import ReferenceProjects.Lib.Bits
import ReferenceProjects.Lib.Fill
import ReferenceProjects.Xdma.Impl.Cdev
import ReferenceProjects.Xdma.Impl.Submit

/-!
This module contains what a user reads of a bypass device node, `char_bypass_read()` with
`copy_desc_data()`, and what becomes of what he writes to it, `char_bypass_write()`.
-/

namespace Xdma

/-- `sizeof(struct xdma_desc)` -/
def sizeofXdmaDesc : Nat := 32

/-- The bytes of a descriptor in memory, its words little-endian. -/
def XdmaDesc.memory (d : XdmaDesc) : List (BitVec 8) :=
  [d.control, d.bytes, d.srcAddrLo, d.srcAddrHi, d.dstAddrLo, d.dstAddrHi, d.nextLo, d.nextHi].flatMap
    (Bits.toBytes 4)

/-- The device node, `bypass_bar_idx` of its device, and the driver with its engine. -/
structure BypassCdev where
  xcdevCheck : Int
  bypassBarIdx : Int
  drv : Driver

/-- A call of `read()`. `vfs_read()` refuses a `count` that is negative as a number with a sign. -/
structure BypassCall where
  /-- `buf` is not NULL -/
  buf : Bool
  count : BitVec 64
  count_lt : count.toNat < 2 ^ 63
  /-- what `copy_to_user()` returns: how many bytes it leaves out -/
  copyToUser : Nat → Nat

/-- The memory behind `buf`, `buf_offset` and how many copies were made so far. -/
structure BypassBuf where
  user : Nat → BitVec 8
  bufOffset : BitVec 64
  copies : Nat

/-- One `i` of `copy_desc_data()`, with `rc`. -/
def copyDesc (call : BypassCall) (s : BypassBuf × Int) (d : XdmaDesc) : BypassBuf × Int :=
  let (b, rc) := s
  if b.bufOffset + BitVec.ofNat 64 sizeofXdmaDesc ≤ call.count then
    let copyErr := call.copyToUser b.copies
    let user := Fill.put b.user b.bufOffset.toNat (d.memory.take (sizeofXdmaDesc - copyErr))
    if copyErr ≠ 0 then
      ({ user, bufOffset := call.count, copies := b.copies + 1 }, -einval)
    else
      ({ user, bufOffset := b.bufOffset + BitVec.ofNat 64 sizeofXdmaDesc, copies := b.copies + 1 }, rc)
  else
    (b, -enomem)

/-- `copy_desc_data()`; `buf_offset` is never NULL. -/
def copyDescData (call : BypassCall) (descs : List XdmaDesc) (b : BypassBuf) : BypassBuf × Int :=
  if !call.buf then
    (b, -einval)
  else
    -- fill user buffer with descriptor data
    descs.foldl (copyDesc call) (b, 0)

/-- What a call returns, and the memory behind `buf` after it. -/
structure BypassResult where
  rv : Int
  user : Nat → BitVec 8

/-- The loop over `transfer_list`: `rc` is what the last transfer returns. -/
def bypassTransfers (call : BypassCall) (drv : Driver) : List XferPtr → BypassBuf × Int → BypassBuf × Int
  | [], s => s
  | t :: ts, s => bypassTransfers call drv ts (copyDescData call (drv.xferDescs t) s.1)

/-- `char_bypass_read()` -/
def charBypassRead (c : BypassCdev) (call : BypassCall) (user : Nat → BitVec 8) : BypassResult :=
  if c.xcdevCheck < 0 then
    ⟨c.xcdevCheck, user⟩
  else if call.count &&& 3 ≠ 0 then
    ⟨-einval, user⟩
  else if !call.buf then
    ⟨-einval, user⟩
  else if c.bypassBarIdx < 0 then
    ⟨-enodev, user⟩
  else
    let (b, rc) := bypassTransfers call c.drv c.drv.engine.transferList (⟨user, 0, 0⟩, c.xcdevCheck)
    ⟨if rc < 0 then rc else b.bufOffset.toInt, b.user⟩

/-- A call of `write()`. `vfs_write()` cuts `count` down to `MAX_RW_COUNT`. -/
structure BypassWrite where
  /-- `buf` is not NULL -/
  buf : Bool
  count : BitVec 64
  count_le : count.toNat ≤ 0x7ffff000
  /-- the memory behind `buf` -/
  user : Nat → BitVec 8
  /-- what `copy_from_user()` returns for the word at an offset: how many bytes it leaves out -/
  copyFromUser : Nat → Nat

/-- A word that is written to a BAR, by its address there. -/
structure BarWrite where
  addr : Nat
  val : BitVec 32
  deriving DecidableEq, Repr

/-- The loop of `char_bypass_write()` over at most `n` more words, with `rc` and the words written. -/
def bypassWriteLoop (call : BypassWrite) (addr : Nat)
    : (n : Nat) → (bufOffset : BitVec 64) → Int → List BarWrite → Int × List BarWrite
  | 0, _, rc, writes => (rc, writes)
  | n + 1, bufOffset, rc, writes =>
    if bufOffset < call.count then
      let copyErr := call.copyFromUser bufOffset.toNat
      if copyErr = 0 then
        let descData := Bits.load 32 (fun k => call.user (bufOffset.toNat + k)) 4
        let bufOffset := bufOffset + 4
        -- `rc` is an `int`
        bypassWriteLoop call addr n bufOffset (bufOffset.setWidth 32).toInt (writes ++ [⟨addr, descData⟩])
      else
        (-einval, writes)
    else
      (rc, writes)

/-- `char_bypass_write()`; what is added to the address of the BAR counts words. -/
def charBypassWrite (xcdevCheck bypassBarIdx : Int) (bypassOffset : Nat) (call : BypassWrite)
    : Int × List BarWrite :=
  if xcdevCheck < 0 then
    (xcdevCheck, [])
  else if call.count &&& 3 ≠ 0 then
    (-einval, [])
  else if !call.buf then
    (-einval, [])
  else if bypassBarIdx < 0 then
    (-enodev, [])
  else
    bypassWriteLoop call (4 * bypassOffset) (call.count.toNat / 4) 0 xcdevCheck []

end Xdma
