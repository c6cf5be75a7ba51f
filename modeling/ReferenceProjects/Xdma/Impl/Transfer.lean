import ReferenceProjects.Xdma.Impl.Desc

/-!
This module contains the construction of a transfer from the software descriptors of a request:
`transfer_build()` and `transfer_init()`.
-/

namespace Xdma

/-- What the loop of `transfer_build()` writes: both rings, `req->ep_addr` and `xfer->len`. -/
structure BuildState where
  desc : Nat → XdmaDesc
  cyclicResult : Nat → XdmaResult
  epAddr : BitVec 64
  len : Nat

/--
`transfer_build()`: write the next `desc_max` software descriptors of the request into the
descriptors of the transfer.
-/
def transferBuild (e : XdmaEngine) (req : XdmaRequestCb) (xfer : XdmaTransfer) (descMax : Nat)
    : XdmaEngine × XdmaRequestCb × XdmaTransfer :=
  let b := go e xfer 0 ⟨e.desc, e.cyclicResult, req.epAddr, xfer.len⟩
    ((req.sdesc.drop req.swDescIdx).take descMax)
  ( { e with desc := b.desc, cyclicResult := b.cyclicResult },
    { req with epAddr := b.epAddr, swDescIdx := req.swDescIdx + descMax },
    { xfer with len := b.len } )
where
  body (e : XdmaEngine) (xfer : XdmaTransfer) (j : Nat) (b : BuildState) (sdesc : SwDesc)
      : BuildState :=
    let k := xfer.descIndex + j
    let d := xdmaDescSet (b.desc k) sdesc.addr b.epAddr sdesc.len xfer.dir
    let bus := xfer.resBus + BitVec.ofNat 64 (32 * j)
    { desc :=
        Function.update b.desc k <|
          if e.streamC2h then { d with srcAddrLo := pciDmaL bus, srcAddrHi := pciDmaH bus } else d
      cyclicResult :=
        if e.streamC2h then Function.update b.cyclicResult k ⟨0, 0⟩ else b.cyclicResult
      -- for non-inc-add mode don't increment ep_addr
      epAddr := if e.nonIncrAddr then b.epAddr else b.epAddr + BitVec.ofNat 64 sdesc.len
      len := (b.len + sdesc.len) % 2 ^ 32
    }
  go (e : XdmaEngine) (xfer : XdmaTransfer) (j : Nat) (b : BuildState) : List SwDesc → BuildState
    | [] => b
    | sdesc :: rest => go e xfer (j + 1) (body e xfer j b sdesc) rest

/--
The number of descriptors that `transfer_init()` gives the next transfer of a request: what the
request has left, cut at the ring size and once more at the end of the ring.
-/
def transferDescMax (e : XdmaEngine) (req : XdmaRequestCb) : Nat :=
  let descMax := min (req.swDescCnt - req.swDescIdx) xdmaTransferMaxDesc
  if e.descIdx + descMax ≥ xdmaTransferMaxDesc then
    xdmaTransferMaxDesc - e.descIdx
  else
    descMax

/--
The control and adjacency words that `transfer_init()` writes over the `n` built descriptors from
index `base` on.
-/
def transferControl (eopFlush : Bool) (desc : Nat → XdmaDesc) (base n : Nat) : Nat → XdmaDesc :=
  let last := n - 1
  -- stop engine, EOP for AXI ST, req IRQ on last descriptor
  let control := xdmaDescStopped ||| xdmaDescEop ||| xdmaDescCompleted
  let desc := Function.update desc (base + last)
    (keepOnError (xdmaDescControlSet (desc (base + last)) control) (desc (base + last)))
  let desc :=
    if eopFlush then
      Loop.rewrite (fun _ d => keepOnError (xdmaDescControlSet d xdmaDescCompleted) d) base desc last
    else
      desc
  -- fill in adjacent numbers
  Loop.rewrite (fun i d => xdmaDescAdjacent d (xdmaGetNextAdj (n - i - 1) d.nextLo)) base desc n

/--
`transfer_init()`: take the next descriptors of the ring for the next transfer of a request.
-/
def transferInit (e : XdmaEngine) (req : XdmaRequestCb)
    : XdmaEngine × XdmaRequestCb × XdmaTransfer :=
  let base := e.descIdx
  let xfer := { XdmaTransfer.zero e.dir with
    descIndex := base
    descBus := e.descBus + BitVec.ofNat 64 (32 * base)
    resBus := e.cyclicResultBus + BitVec.ofNat 64 (32 * base)
  }
  let descMax := transferDescMax e req
  let e := { e with
    desc := keepOnError (transferDescInit e.desc base xfer.descBus descMax) e.desc
  }
  let (e, req, xfer) := transferBuild e req xfer descMax
  let e := { e with
    desc := transferControl e.eopFlush e.desc base descMax
    descIdx := (base + descMax) % xdmaTransferMaxDesc
    descUsed := e.descUsed + descMax
  }
  let xfer := { xfer with
    descAdjacent := descMax
    descCmplTh := if e.eopFlush then 1 else descMax
    descNum := descMax
  }
  (e, req, xfer)

end Xdma
