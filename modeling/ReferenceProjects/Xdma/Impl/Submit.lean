import ReferenceProjects.Xdma.Impl.Queue
import ReferenceProjects.Xdma.Impl.Request

/-!
This module contains the blocking submission of a request, `xdma_xfer_submit()`, and the parts that
it shares with `xdma_xfer_submit_nowait()`.
-/

namespace Xdma

/--
The body of both submit loops up to `transfer_queue()`: build the next transfer of request `r` in
`t`. `nents` counts the software descriptors that the request has left.
-/
def submitInit (s : Driver) (r : Nat) (t : XferPtr) (cb : Option Nat) (dmaMapped : Bool)
    (nents : Nat) : Driver × Nat :=
  let s := s.transferInit r t
  let xfer := { s.xfer t with cb := cb }
  let xfer := if dmaMapped then xfer else { xfer with flags := xferFlagNeedUnmap }
  -- last transfer for the given request?
  let nents := nents - xfer.descNum
  let xfer := if nents = 0 then { xfer with lastInRequest := true, sgt := some r } else xfer
  (s.setXfer t xfer, nents)

/-- The bytes that the results of the completed descriptors add up to. -/
def resultTotal (e : XdmaEngine) (xfer : XdmaTransfer) (n : Nat) : Nat :=
  ((List.range n).map (fun i => (e.cyclicResult (xfer.descIndex + i)).length.toNat)).sum

/-- What the submit loop carries from one transfer to the next. -/
structure SubmitLoop where
  rv : Option Errno
  done : Nat
  nents : Nat
  deriving DecidableEq, Repr

/-- `switch (xfer->state)` of `xdma_xfer_submit()`, what it does to the variables of the loop. -/
def submitSwitch (e : XdmaEngine) (xfer : XdmaTransfer) (l : SubmitLoop) : SubmitLoop :=
  match xfer.state with
  | .completed =>
    -- for C2H streaming use writeback results
    if e.streamC2h then
      { rv := none
        done := l.done + resultTotal e xfer xfer.descCmpl.toInt.toNat
        -- finish the whole request
        nents := if e.eopFlush then 0 else l.nents
      }
    else
      { l with rv := none, done := l.done + xfer.len }
  | .failed => { l with rv := some .eio }
  | _ => { l with rv := some .erestartsys }

variable (p : ModuleParam)

/--
The time-out and signal path of `xdma_xfer_submit()`: the status read dumps the registers and can
fail, then the transfer is neither aborted nor the engine stopped.
-/
def submitTimeout (s : Driver) (t : XferPtr) (hw : HwRegs) : Driver :=
  match engineStatusRead s hw false true with
  | .error _ => s
  | .ok s =>
    match transferAbort s t with
    | .error _ => s
    | .ok s => xdmaEngineStop p s

/-- `switch (xfer->state)` of `xdma_xfer_submit()`, what it does to the driver. -/
def submitWake (s : Driver) (t : XferPtr) (hw : HwRegs) : Driver :=
  match (s.xfer t).state with
  | .completed | .failed => s
  | _ => submitTimeout p s t hw

/-- The end of the body of the submit loop. -/
def submitDestroy (s : Driver) (t : XferPtr) : Driver :=
  transferDestroy { s with engine.descUsed := s.engine.descUsed - (s.xfer t).descNum } t

/-- What follows the submit loop: `unmap_sgl` and freeing the request. -/
def submitExit (s : Driver) (r : Nat) (dmaMapped : Bool) : Driver :=
  xdmaRequestFree (if dmaMapped then s else s.unmapSg r) r

/--
What happens outside `xdma_xfer_submit()` to one transfer it queues: the registers that the queueing
and the wake-up read, and everything that changes the driver until the waiter holds the lock again.
-/
structure Wait where
  hwQueue : HwRegs
  hwWake : HwRegs
  others : Driver → Driver

/--
The result of `xdma_xfer_submit()`: the value returned, the descriptors of every transfer as they
stood when it was queued, and the driver it leaves behind.
-/
structure SubmitResult where
  ret : Except Errno Nat
  descs : List (List XdmaDesc)
  drv : Driver

/-- The descriptors of a transfer. -/
def Driver.xferDescs (s : Driver) (t : XferPtr) : List XdmaDesc :=
  (List.range (s.xfer t).descNum).map (fun i => s.engine.desc ((s.xfer t).descIndex + i))

/-- `return done ? done : rv;` -/
def submitReturn (l : SubmitLoop) : Except Errno Nat :=
  if l.done ≠ 0 then
    .ok l.done
  else
    match l.rv with
    | some err => .error err
    | none => .ok 0

/--
The `while (nents)` loop of `xdma_xfer_submit()` for request `r`, its `k`-th round first; `none`
when it has not ended after `fuel` rounds.
-/
def submitLoop (r : Nat) (dmaMapped : Bool) (env : Nat → Wait) : (fuel k : Nat) → Driver
    → SubmitLoop → Option (SubmitLoop × List (List XdmaDesc) × Driver)
  | fuel, k, s, l =>
    if l.nents = 0 then
      some (l, [], s)
    else
      match fuel with
      | 0 => none
      | fuel + 1 =>
        let t := XferPtr.tfer r 0
        let (s, nents) := submitInit s r t none dmaMapped l.nents
        match transferQueue p s t (env k).hwQueue with
        | .error err => some ({ l with rv := some err, nents := nents }, [], s)
        | .ok s' =>
          let queued := s.xferDescs t
          let s := (env k).others s'
          let l := submitSwitch s.engine (s.xfer t) { l with nents := nents }
          let s := submitDestroy (submitWake p s t (env k).hwWake) t
          if l.rv.isSome then
            some (l, [queued], s)
          else
            (submitLoop r dmaMapped env fuel (k + 1) s l).map
              (fun (l, descs, s) => (l, queued :: descs, s))

/-- The state in which a request is made: the scatter list is mapped. -/
def Driver.mapSg (s : Driver) (r : Nat) (sgl : List Scatterlist) : Driver :=
  { s with sgt := Function.update s.sgt r { s.sgt r with nents := sgl.length } }

/--
What both submissions do first: check the engine that the channel number selects, map the scatter
list, which is mapped already or mapped by `pci_map_sg()`, and make the request. The second
component is the error returned, or the request; `none` when the call does not return.
-/
def submitRequest (alloc : Nat → Bool) (s : Driver) (r : Nat) (write : Bool) (epAddr : BitVec 64)
    (sgl : List Scatterlist) (dmaMapped : Bool) : Option (Driver × Except Errno XdmaRequestCb) :=
  if s.offline then
    some (s, .error .ebusy)
  else if s.engine.dir ≠ (if write then .toDevice else .fromDevice) then
    some (s, .error .einval)
  else if sgl.length = 0 then
    some (s, .error .eio)
  else
    let s := s.mapSg r sgl
    match xdmaInitRequest p.descBlenMax alloc sgl epAddr with
    | .error .enomem | .error .overlong =>
      some (if dmaMapped then s else s.unmapSg r, .error .enomem)
    | .error .divideError | .error .endless => none
    | .ok req => some ({ s with req := Function.update s.req r req }, .ok req)

/-- `xdma_xfer_submit()` of the scatter list `sgl`; `none` when it does not return. -/
def xdmaXferSubmit (alloc : Nat → Bool) (s : Driver) (r : Nat) (write : Bool) (epAddr : BitVec 64)
    (sgl : List Scatterlist) (dmaMapped : Bool) (env : Nat → Wait) : Option SubmitResult :=
  match submitRequest p alloc s r write epAddr sgl dmaMapped with
  | none => none
  | some (s, .error err) => some ⟨.error err, [], s⟩
  | some (s, .ok req) =>
    match submitLoop p r dmaMapped env req.swDescCnt 0 s ⟨none, 0, req.swDescCnt⟩ with
    | none => none
    | some (l, descs, s) => some ⟨submitReturn l, descs, submitExit s r dmaMapped⟩

end Xdma
