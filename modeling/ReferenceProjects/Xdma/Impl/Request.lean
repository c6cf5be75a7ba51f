import ReferenceProjects.Xdma.Defs

/-!
This module contains the construction of a request from a mapped scatter list:
`xdma_init_request()`.
-/

namespace Xdma

/-- The value that an `int` holds after it was assigned `x`. -/
def toInt32 (x : Int) : Int := (BitVec.ofInt 32 x).toInt

/-- The value that an `unsigned int` holds after it was assigned `x`. -/
def toUInt32 (x : Int) : Nat := (BitVec.ofInt 32 x).toNat

/--
Why `xdma_init_request()` has no request to return. The last two make it return `NULL`; in the
others the kernel takes a division error, or the function never returns.
-/
inductive InitFault where
  | divideError
  | endless
  | enomem
  | overlong
  deriving DecidableEq, Repr

/-- The first loop of `xdma_init_request()`: how many descriptors beyond one for each segment. -/
def extraDesc (descBlenMax : Nat) (extra : Int) : List Scatterlist → Except InitFault Int
  | [] => .ok extra
  | sg :: sgl =>
    if sg.dmaLen > descBlenMax then
      if descBlenMax = 0 then
        .error .divideError
      else
        let n : Nat := (sg.dmaLen + descBlenMax - 1) % 2 ^ 32 / descBlenMax
        extraDesc descBlenMax (toInt32 (extra + (n : Int))) sgl
    else
      extraDesc descBlenMax extra sgl

/--
The `while (tlen)` loop of `xdma_init_request()` on one segment; `none` when it has not ended after
`fuel` rounds.
-/
def splitSg (descBlenMax : Nat) : (fuel : Nat) → (addr : BitVec 64) → (tlen : Nat)
    → Option (List SwDesc)
  | _, _, 0 => some []
  | 0, _, _ + 1 => none
  | fuel + 1, addr, tlen =>
    if tlen > descBlenMax then
      (splitSg descBlenMax fuel (addr + BitVec.ofNat 64 descBlenMax) (tlen - descBlenMax)).map
        (fun sdesc => ⟨addr, descBlenMax⟩ :: sdesc)
    else
      some [⟨addr, tlen⟩]

/-- The second loop of `xdma_init_request()`. A round that shortens `tlen` shortens it by one at
least, so a segment that is not split after its length in rounds never is. -/
def splitSgl (descBlenMax : Nat) : List Scatterlist → Option (List SwDesc)
  | [] => some []
  | sg :: sgl => do
    let head ← splitSg descBlenMax sg.dmaLen sg.dmaAddress sg.dmaLen
    let tail ← splitSgl descBlenMax sgl
    return head ++ tail

/-- `desc_blen_max` after `xdma_mod_init()`, which clamps the parameter of the module from above. -/
def xdmaModInit (descBlenMax : BitVec 32) : Nat :=
  if descBlenMax > BitVec.ofNat 32 xdmaDescBlenMax then xdmaDescBlenMax else descBlenMax.toNat

/--
`size` in `xdma_request_alloc()`, an `unsigned int`. The size of a `struct xdma_request_cb` depends on
the kernel, that of a `struct sw_desc` is 16.
-/
def xdmaRequestSize (sizeofReq sdescNr : Nat) : Nat := (sizeofReq + sdescNr * 16) % 2 ^ 32

/--
`xdma_init_request()`. The allocator `alloc` says for which numbers of entries
`xdma_request_alloc()` finds the memory.
-/
def xdmaInitRequest (descBlenMax : Nat) (alloc : Nat → Bool) (sgl : List Scatterlist)
    (epAddr : BitVec 64) : Except InitFault XdmaRequestCb :=
  let max := toInt32 sgl.length
  match extraDesc descBlenMax 0 (sgl.take max.toNat) with
  | .error fault => .error fault
  | .ok extra =>
    let max := toInt32 (max + extra)
    if alloc (toUInt32 max) then
      match splitSgl descBlenMax sgl with
      | none => .error .endless
      | some sdesc =>
        if toInt32 sdesc.length > max then
          .error .overlong
        else
          .ok ⟨epAddr, 0, sdesc⟩
    else
      .error .enomem

end Xdma
