import Mathlib.Data.BitVec
import Mathlib.Logic.Function.Basic
import ReferenceProjects.Lib.Loop
import ReferenceProjects.Xdma.Defs

/-!
This module contains the functions that write single descriptors and descriptor chains.
-/

namespace Xdma

/-- The outcome of a call whose return value the caller drops: on an error nothing was written. -/
def keepOnError (r : Except Errno α) (old : α) : α :=
  match r with
  | .ok new => new
  | .error _ => old

/--
`xdma_get_next_adj()`: the number for adjacent descriptors to set in a descriptor, based on the
remaining number of descriptors and the lower bits of the address of the next descriptor.
-/
def xdmaGetNextAdj (remaining : Nat) (nextLo : BitVec 32) : Nat :=
  if remaining ≤ 1 then
    0
  else
    -- a shift by 5 divides by `sizeof(struct xdma_desc)`
    let nextIndex := ((nextLo &&& 0xfff) >>> 5).toNat % xdmaMaxAdjBlockSize
    min (xdmaMaxAdjBlockSize - nextIndex - 1) (remaining - 1)

/--
`transfer_desc_init()`: chain the `count` descriptors from index `base` on as a singly-linked list
of bus addresses, and terminate the last one.
-/
def transferDescInit (desc : Nat → XdmaDesc) (base : Nat) (descBus : BitVec 64) (count : Nat)
    : Except Errno (Nat → XdmaDesc) :=
  if count > xdmaTransferMaxDesc then
    .error .einval
  else
    let link := fun i d =>
      let next := descBus + BitVec.ofNat 64 (32 * (i + 1))
      { d with nextLo := pciDmaL next, nextHi := pciDmaH next, bytes := 0, control := descMagic }
    let desc := Loop.rewrite link base desc (count - 1)
    let last := base + (count - 1)
    .ok <| Function.update desc last
      { desc last with nextLo := 0, nextHi := 0, bytes := 0, control := descMagic }

/-- `xdma_desc_link()`: link a descriptor to a second one, or terminate it. -/
def xdmaDescLink (first : XdmaDesc) (second : Option (BitVec 64)) : XdmaDesc :=
  let control := first.control &&& 0x00FFC0ff
  let first :=
    match second with
    | some secondBus => { first with nextLo := pciDmaL secondBus, nextHi := pciDmaH secondBus }
    | none => { first with nextLo := 0, nextHi := 0 }
  { first with control := control ||| descMagic }

/-- `xdma_desc_adjacent()`: set how many descriptors are adjacent to the next one. -/
def xdmaDescAdjacent (desc : XdmaDesc) (nextAdjacent : Nat) : XdmaDesc :=
  let control := desc.control &&& 0x0000f0ff
  { desc with control := control ||| (0xAD4B0000 ||| (BitVec.ofNat 32 nextAdjacent <<< 8)) }

/-- `xdma_desc_control_set()`: set the control byte of a descriptor. -/
def xdmaDescControlSet (first : XdmaDesc) (controlField : BitVec 32) : Except Errno XdmaDesc :=
  let control := first.control &&& ~~~lsByteMask
  if controlField &&& ~~~lsByteMask ≠ 0 then
    .error .einval
  else
    .ok { first with control := control ||| controlField }

/-- `xdma_desc_set()`: fill a descriptor with the transfer details. -/
def xdmaDescSet (desc : XdmaDesc) (rcBusAddr epAddr : BitVec 64) (len : Nat)
    (dir : DmaDataDirection) : XdmaDesc :=
  let desc := { desc with bytes := BitVec.ofNat 32 len }
  match dir with
  | .toDevice =>
    { desc with
        srcAddrLo := pciDmaL rcBusAddr
        srcAddrHi := pciDmaH rcBusAddr
        dstAddrLo := pciDmaL epAddr
        dstAddrHi := pciDmaH epAddr
    }
  | .fromDevice =>
    { desc with
        srcAddrLo := pciDmaL epAddr
        srcAddrHi := pciDmaH epAddr
        dstAddrLo := pciDmaL rcBusAddr
        dstAddrHi := pciDmaH rcBusAddr
    }

/-- `xdma_desc_done()`: `memset` the descriptors to zero. -/
def xdmaDescDone (desc : Nat → XdmaDesc) (base count : Nat) : Nat → XdmaDesc :=
  Loop.rewrite (fun _ _ => .zero) base desc count

namespace XdmaDesc

/-- The bus address that the next pointer holds. -/
def next (d : XdmaDesc) : BitVec 64 := d.nextHi ++ d.nextLo

def srcAddr (d : XdmaDesc) : BitVec 64 := d.srcAddrHi ++ d.srcAddrLo

def dstAddr (d : XdmaDesc) : BitVec 64 := d.dstAddrHi ++ d.dstAddrLo

/-- The next-adjacent byte of the control word. -/
def nextAdjacent (d : XdmaDesc) : Nat := ((d.control >>> 8) &&& 0xff).toNat

/-- The top half of the control word. -/
def magic (d : XdmaDesc) : BitVec 32 := d.control >>> 16

/-- The control byte proper. -/
def lowByte (d : XdmaDesc) : BitVec 32 := d.control &&& lsByteMask

end XdmaDesc

end Xdma
