import ReferenceProjects.Xdma.Impl.Cdev

/-!
This module contains the access of the user to a BAR: `char_ctrl_read()`, `char_ctrl_write()` and
`bridge_mmap()`.
-/

namespace Xdma

/-- `PAGE_SHIFT` -/
def pageShift : Nat := 12

/-- The physical addresses of a BAR: its size is a power of two, and it begins at a multiple of it. -/
structure PciBar where
  start : BitVec 64
  len : Nat
  size : ∃ k, len = 2 ^ k
  aligned : len ∣ start.toNat
  fits : start.toNat + len ≤ 2 ^ 64

/-- `pci_resource_end()` -/
def PciBar.stop (b : PciBar) : BitVec 64 := .ofNat 64 (b.start.toNat + b.len - 1)

/-- `map_len` of `map_single_bar()`, at most `INT_MAX` -/
def PciBar.mapLen (b : PciBar) : Nat := if 2 ^ 31 - 1 < b.len then 2 ^ 31 - 1 else b.len

/-- A device node of a BAR, which is mapped into the kernel at `base`. -/
structure CtrlCdev where
  xcdevCheck : Int
  bar : PciBar
  base : BitVec 64

/-- An access of the driver to the device, or a range that it maps for the user. -/
inductive CtrlAccess where
  /-- `ioread32()` or `iowrite32()` at a kernel address -/
  | reg (addr : BitVec 64)
  /-- `io_remap_pfn_range()` of so many bytes from a page on -/
  | remap (pfn size : BitVec 64)
  deriving DecidableEq, Repr

/-- What a call returns, with the position after it, its accesses and the word that the user gets. -/
structure CtrlResult where
  rv : Int
  pos : BitVec 64
  accesses : List CtrlAccess
  word : Option (BitVec 32)
  deriving DecidableEq, Repr

/-- `char_ctrl_read()`; what the copy to the user leaves out is not looked at. -/
def charCtrlRead (c : CtrlCdev) (ioread32 : BitVec 64 → BitVec 32) (pos : BitVec 64) : CtrlResult :=
  if c.xcdevCheck < 0 then
    ⟨c.xcdevCheck, pos, [], none⟩
  -- only 32-bit aligned and 32-bit multiples
  else if pos &&& 3 ≠ 0 then
    ⟨-eproto, pos, [], none⟩
  else
    -- first address is BAR base plus file position offset
    let reg := c.base + pos
    ⟨4, pos + 4, [.reg reg], some (ioread32 reg)⟩

/-- `char_ctrl_write()` -/
def charCtrlWrite (c : CtrlCdev) (pos : BitVec 64) : CtrlResult :=
  if c.xcdevCheck < 0 then
    ⟨c.xcdevCheck, pos, [], none⟩
  else if pos &&& 3 ≠ 0 then
    ⟨-eproto, pos, [], none⟩
  else
    ⟨4, pos + 4, [.reg (c.base + pos)], none⟩

/-- `struct vm_area_struct`, which is of whole pages. -/
structure Vma where
  vmStart : BitVec 64
  vmEnd : BitVec 64
  vmPgoff : BitVec 64
  nonempty : vmStart < vmEnd
  startAligned : 2 ^ pageShift ∣ vmStart.toNat
  endAligned : 2 ^ pageShift ∣ vmEnd.toNat

/-- `off` -/
def Vma.off (vma : Vma) : BitVec 64 := vma.vmPgoff <<< pageShift

/-- `vsize` -/
def Vma.vsize (vma : Vma) : BitVec 64 := vma.vmEnd - vma.vmStart

/-- `bridge_mmap()`; `remap` is what `io_remap_pfn_range()` returns, which maps nothing if it fails. -/
def bridgeMmap (c : CtrlCdev) (remap : Int) (vma : Vma) : CtrlResult :=
  if c.xcdevCheck < 0 then
    ⟨c.xcdevCheck, 0, [], none⟩
  else
    -- BAR physical address
    let phys := c.bar.start + vma.off
    -- complete resource
    let psize := c.bar.stop - c.bar.start + 1 - vma.off
    if vma.vsize > psize then
      ⟨-einval, 0, [], none⟩
    else if remap ≠ 0 then
      ⟨-eagain, 0, [], none⟩
    else
      ⟨0, 0, [.remap (phys >>> pageShift) vma.vsize], none⟩

/-- The calls that a user can make of a device node. -/
inductive CtrlCall where
  | read (ioread32 : BitVec 64 → BitVec 32) (pos : BitVec 64)
  | write (pos : BitVec 64)
  | mmap (remap : Int) (vma : Vma)

def CtrlCall.run (c : CtrlCdev) : CtrlCall → CtrlResult
  | .read ioread32 pos => charCtrlRead c ioread32 pos
  | .write pos => charCtrlWrite c pos
  | .mmap remap vma => bridgeMmap c remap vma

end Xdma
