import ReferenceProjects.Lib.Bits
import ReferenceProjects.Xdma.Impl.Cdev

/-!
This module contains the XVC character device: `xvc_ioctl()` and `xvc_shift_bits()`.
-/

namespace Xdma

def completionLoopMax : Nat := 100

/-- `struct xvc_ioc`, with the user memory that its pointers are for. -/
structure XvcIoc where
  opcode : BitVec 32
  length : BitVec 32
  tmsBuf : Nat → BitVec 8
  tdiBuf : Nat → BitVec 8

/-- What the registers answer one shift: `control` as often as it is read, and `tdo` when it is done. -/
structure XvcShiftRegs where
  control : Nat → BitVec 32
  tdo : BitVec 32

/--
A call of `xvc_ioctl()`: what `xcdev_check()` returns, whether `cmd` is `XDMA_IOCXVC`, and what the kernel
and the hardware answer. The copies from and to user memory return what they did not copy.
-/
structure XvcCall where
  xcdevCheck : Int
  cmdOk : Bool
  copyIoc : Nat
  ioc : XvcIoc
  kmalloc : BitVec 32 → Bool
  copyTms : Nat
  copyTdi : Nat
  copyTdo : Nat
  regs : Nat → XvcShiftRegs

/-- A shift, with what the length, TMS and TDI registers hold when it is enabled. -/
structure XvcShift where
  length : BitVec 32
  tms : BitVec 32
  tdi : BitVec 32
  deriving DecidableEq, Repr

/-- The three parts of the buffer, each of `total_bytes`. -/
inductive XvcArea where
  | tms
  | tdi
  | tdo
  deriving DecidableEq, Repr

/-- The part of an area that a `memcpy()` reads or writes. -/
structure XvcMemcpy where
  area : XvcArea
  offset : Nat
  length : Nat
  deriving DecidableEq, Repr

/--
The state of the loop: the length register, the memory from `buffer` on, the shifts that were enabled and
the copies that were made, the first one first, and whether the addition to `bits` ever wrapped.
-/
structure XvcState where
  length : BitVec 32
  mem : Nat → BitVec 8
  shifts : List XvcShift
  memcpys : List XvcMemcpy
  bitsWrap : Bool

/-- The loop of `xvc_shift_bits()` that polls for completion; false if the count runs out. -/
def xvcPoll (control : Nat → BitVec 32) : (count i : Nat) → Bool
  | 0, _ => false
  | count + 1, i => if control i &&& 0x01 = 0 then true else xvcPoll control count (i + 1)

/-- `xvc_shift_bits()` -/
def xvcShiftBits (regs : XvcShiftRegs) (s : XvcState) (tmsBits tdiBits : BitVec 32)
    : XvcState × Option (BitVec 32) :=
  let s := { s with shifts := s.shifts ++ [⟨s.length, tmsBits, tdiBits⟩] }
  if xvcPoll regs.control completionLoopMax 0 then (s, some regs.tdo) else (s, none)

/-- Where an area begins. -/
def XvcArea.base (totalBytes : BitVec 32) : XvcArea → Nat
  | .tms => 0
  | .tdi => totalBytes.toNat
  | .tdo => totalBytes.toNat + totalBytes.toNat

/-- `memcpy(&store, buf + bytes, shift_bytes)` into a word that is 0 -/
def XvcState.load (s : XvcState) (totalBytes : BitVec 32) (area : XvcArea) (bytes shiftBytes : BitVec 32)
    : XvcState × BitVec 32 :=
  ({ s with memcpys := s.memcpys ++ [⟨area, bytes.toNat, shiftBytes.toNat⟩] },
    Bits.load 32 (fun i => s.mem (area.base totalBytes + bytes.toNat + i)) shiftBytes.toNat)

/-- `memcpy(buf + bytes, &store, shift_bytes)` -/
def XvcState.store (s : XvcState) (totalBytes : BitVec 32) (area : XvcArea) (bytes shiftBytes : BitVec 32)
    (word : BitVec 32) : XvcState :=
  { s with
      memcpys := s.memcpys ++ [⟨area, bytes.toNat, shiftBytes.toNat⟩]
      mem := Bits.store s.mem (area.base totalBytes + bytes.toNat) word shiftBytes.toNat }

/-- The `for` loop of `xvc_ioctl()` with its `rv`; `none` if the fuel runs out before it ends. -/
def xvcLoop (regs : Nat → XvcShiftRegs) (totalBits totalBytes : BitVec 32)
    : (fuel : Nat) → (bits bitsLeft : BitVec 32) → XvcState → Option (XvcState × Int)
  | 0, _, _, _ => none
  | fuel + 1, bits, bitsLeft, s =>
    if bits < totalBits then
      let bytes := bits >>> 3
      let (s, shiftBytes) :=
        if bitsLeft < 32 then
          -- set number of bits to shift out
          ({ s with length := bitsLeft }, (bitsLeft + 7) >>> 3)
        else
          (s, 4)
      let (s, tmsStore) := s.load totalBytes .tms bytes shiftBytes
      let (s, tdiStore) := s.load totalBytes .tdi bytes shiftBytes
      -- shift data out and copy to output buffer
      match xvcShiftBits (regs s.shifts.length) s tmsStore tdiStore with
      | (s, none) => some (s, -etimedout)
      | (s, some tdoStore) =>
        let s := s.store totalBytes .tdo bytes shiftBytes tdoStore
        let s := { s with bitsWrap := s.bitsWrap || 2 ^ 32 ≤ bits.toNat + 32 }
        xvcLoop regs totalBits totalBytes fuel (bits + 32) (bitsLeft - 32) s
    else
      some (s, 0)

/-- What becomes of a call; `tdo` is the buffer that `copy_to_user()` is called with. -/
structure XvcResult where
  rv : Int
  state : XvcState
  tdo : Option (List (BitVec 8))

/-- The memory after the copies from the user. -/
def XvcCall.mem (c : XvcCall) (totalBytes : BitVec 32) : Nat → BitVec 8 := fun i =>
  if i < totalBytes.toNat then c.ioc.tmsBuf i else c.ioc.tdiBuf (i - totalBytes.toNat)

/-- The bytes of an area. -/
def XvcState.bytes (s : XvcState) (totalBytes : BitVec 32) (area : XvcArea) : List (BitVec 8) :=
  (List.range totalBytes.toNat).map (fun i => s.mem (area.base totalBytes + i))

/-- Before the loop nothing was shifted. -/
def XvcState.init (length : BitVec 32) (mem : Nat → BitVec 8) : XvcState :=
  ⟨length, mem, [], [], false⟩

/-- `total_bytes` -/
def xvcTotalBytes (totalBits : BitVec 32) : BitVec 32 := (totalBits + 7) >>> 3

/-- `xvc_ioctl()`, when the length register holds `length` -/
def xvcIoctl (c : XvcCall) (fuel : Nat) (length : BitVec 32) : Option XvcResult :=
  let opcode := c.ioc.opcode
  let totalBits := c.ioc.length
  let totalBytes := xvcTotalBytes totalBits
  let s := XvcState.init length (c.mem totalBytes)
  if c.xcdevCheck < 0 then
    some ⟨c.xcdevCheck, s, none⟩
  else if !c.cmdOk then
    some ⟨-enoioctlcmd, s, none⟩
  else if c.copyIoc ≠ 0 then
    some ⟨c.copyIoc, s, none⟩
  -- invalid operation type, no operation performed
  else if opcode ≠ 0x01 ∧ opcode ≠ 0x02 then
    some ⟨-einval, s, none⟩
  else if !c.kmalloc (totalBytes * 3) then
    some ⟨-enomem, s, none⟩
  else if c.copyTms ≠ 0 then
    some ⟨c.copyTms, s, none⟩
  else if c.copyTdi ≠ 0 then
    some ⟨c.copyTdi, s, none⟩
  else
    -- set length register to 32 initially if more than one word-transaction is to be done
    let s := if 32 ≤ totalBits then { s with length := 0x20 } else s
    (xvcLoop c.regs totalBits totalBytes fuel 0 totalBits s).map (fun (s, rv) =>
      if rv < 0 then
        ⟨rv, s, none⟩
      else
        -- if testing bar access swap tdi and tdo buffers to "loopback"
        let tdoBuf := if opcode = 0x2 then XvcArea.tdi else .tdo
        ⟨c.copyTdo, s, some (s.bytes totalBytes tdoBuf)⟩)

end Xdma
