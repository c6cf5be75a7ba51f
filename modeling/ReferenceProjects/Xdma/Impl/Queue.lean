import ReferenceProjects.Xdma.Impl.Transfer
import ReferenceProjects.Xdma.Impl.Engine

/-!
This module contains the life of a transfer from its initialisation on: queueing it on the engine,
aborting and destroying it, and freeing the request that it is part of.
-/

namespace Xdma

/-- The transfer is embedded in request `r`. -/
def XferPtr.ofReq (r : Nat) : XferPtr → Bool
  | .tfer r' _ => r' == r
  | .perf _ => false

/-- `transfer_init()` on the transfer `t` for request `r`. -/
def Driver.transferInit (s : Driver) (r : Nat) (t : XferPtr) : Driver :=
  let (e, req, xfer) := Xdma.transferInit s.engine (s.req r)
  { s with
      engine := e
      req := Function.update s.req r req
      xfer := Function.update s.xfer t xfer
      hist.live := t :: s.hist.live.filter (fun u => u ≠ t)
  }

/-- `pci_unmap_sg()` of the scatter table of request `r`, where it is still mapped. -/
def Driver.unmapSg (s : Driver) (r : Nat) : Driver :=
  let sgt := s.sgt r
  if sgt.nents ≠ 0 then
    { s with sgt := Function.update s.sgt r ⟨0, sgt.unmaps + 1⟩ }
  else
    s

/-- `transfer_destroy()` -/
def transferDestroy (s : Driver) (t : XferPtr) : Driver :=
  let xfer := s.xfer t
  -- free descriptors
  let s := { s with
    engine.desc := xdmaDescDone s.engine.desc xfer.descIndex xfer.descNum
    hist.live := s.hist.live.filter (fun u => u ≠ t)
  }
  if xfer.lastInRequest && xfer.flags &&& xferFlagNeedUnmap ≠ 0 then
    match xfer.sgt with
    | some r => s.unmapSg r
    | none => s
  else
    s

/-- `xdma_request_free()`: the transfers embedded in the request are gone with it. -/
def xdmaRequestFree (s : Driver) (r : Nat) : Driver :=
  { s with
      hist.freed := (r, s.engine.transferList) :: s.hist.freed
      hist.live := s.hist.live.filter (fun u => !u.ofReq r)
  }

/-- Only the head of the queue is unlinked, in case it is `t`. -/
def unlinkHead (t : XferPtr) : List XferPtr → List XferPtr
  | [] => []
  | head :: rest => if head = t then rest else head :: rest

/-- `transfer_abort()` -/
def transferAbort (s : Driver) (t : XferPtr) : Except Errno Driver :=
  let xfer := s.xfer t
  if xfer.descNum = 0 then
    .error .einval
  else
    let s := { s with engine.transferList := unlinkHead t s.engine.transferList }
    .ok <| s.setXfer t (if xfer.state = .submitted then { xfer with state := .aborted } else xfer)

variable (p : ModuleParam)

/-- `transfer_queue()`, what it checks before it takes the lock of the engine. -/
def transferQueueCheck (s : Driver) (t : XferPtr) : Except Errno Unit :=
  if (s.xfer t).descNum = 0 then
    .error .einval
  else if s.offline then
    .error .ebusy
  else
    .ok ()

/-- `transfer_queue()`, what it does under the lock of the engine. -/
def transferQueueLocked (s : Driver) (t : XferPtr) (hw : HwRegs) : Except Errno Driver :=
  -- engine is being shutdown; do not accept new transfers
  if s.engine.shutdown.request then
    .error .ebusy
  else
    -- mark the transfer as submitted, add it to the tail of the engine transfer queue
    let s := s.setXfer t { s.xfer t with state := .submitted }
    let s := { s with engine.transferList := s.engine.transferList ++ [t] }
    if s.engine.running then
      .ok s
    else
      -- a failed start is logged, the transfer stays queued
      .ok ((engineStart p s hw).getD s)

/-- `transfer_queue()` with no other step between the check and the lock. -/
def transferQueue (s : Driver) (t : XferPtr) (hw : HwRegs) : Except Errno Driver := do
  transferQueueCheck s t
  transferQueueLocked p s t hw

end Xdma
