import ReferenceProjects.Xdma.Impl.Queue
import ReferenceProjects.Xdma.Impl.Submit

/-!
This module contains `engine_service()` and the functions it calls, among them
`xdma_xfer_completion()`, which the I/O callback of an asynchronous request runs.
-/

namespace Xdma

variable (p : ModuleParam)

/--
`switch (xfer->state)` of `xdma_xfer_completion()`: the driver, what is added to `done`, and whether
the loop goes on.
-/
def completionSwitch (s : Driver) (t : XferPtr) (hw : HwRegs) : Driver × Nat × Bool :=
  let xfer := s.xfer t
  match xfer.state with
  | .completed =>
    -- for C2H streaming use writeback results
    if s.engine.streamC2h then
      (s, resultTotal s.engine xfer xfer.descNum, true)
    else
      (s, xfer.len, true)
  | .failed => (s, 0, false)
  | _ =>
    -- transfer can still be in-flight, and no failure of these calls is looked at
    let s := keepOnError (engineStatusRead s hw false true) s
    let s := keepOnError (transferAbort s t) s
    (xdmaEngineStop p s, 0, false)

/--
The `while (nents)` loop of `xdma_xfer_completion()`. A round that goes on is one for a completed
transfer, which has a descriptor at least, so `fuel` for every descriptor of the request suffices.
-/
def completionLoop (r : Nat) (hw : HwRegs) : (fuel tferIdx nents : Nat) → Driver → Nat → Driver × Nat
  | 0, _, _, s, done => (s, done)
  | fuel + 1, tferIdx, nents, s, done =>
    if nents = 0 then
      (s, done)
    else
      let t := XferPtr.tfer r tferIdx
      let nents := nents - (s.xfer t).descNum
      let (s, bytes, more) := completionSwitch p s t hw
      let s := transferDestroy s t
      let s := { s with engine.descUsed := s.engine.descUsed - (s.xfer t).descNum }
      if more then
        completionLoop r hw fuel (tferIdx + 1) nents s (done + bytes)
      else
        (s, done)

/-- `xdma_xfer_completion()` for request `r`, with `dma_mapped` 0 as its only caller has it. -/
def xdmaXferCompletion (s : Driver) (r : Nat) (hw : HwRegs) : Driver × Nat :=
  let cnt := (s.req r).swDescCnt
  let (s, done) := completionLoop p r hw cnt 0 cnt s 0
  (xdmaRequestFree (s.unmapSg r) r, done)

/-- `engine_transfer_completion()` -/
def engineTransferCompletion (s : Driver) (t : XferPtr) (hw : HwRegs) : Driver :=
  -- awake task on transfer's wait queue
  let s := { s with hist.wakeups := t :: s.hist.wakeups }
  -- send completion notification for last transfer
  match (s.xfer t).cb, (s.xfer t).lastInRequest with
  | some r, true => (xdmaXferCompletion p s r hw).1
  | _, _ => s

/-- `list_del(engine->transfer_list.next)` -/
def Driver.listDel (s : Driver) : Driver :=
  { s with engine.transferList := s.engine.transferList.tail }

/--
`engine_service_transfer_list()`: complete all the transfers that the engine completed, except for
the last one. Each round unlinks one, so `fuel` for every linked transfer suffices.
-/
def engineServiceTransferList (hw : HwRegs) : (fuel : Nat) → Driver → Option XferPtr → BitVec 32
    → Driver × Option XferPtr × BitVec 32
  | 0, s, transfer, descCompleted => (s, transfer, descCompleted)
  | fuel + 1, s, transfer, descCompleted =>
    match transfer with
    | none => (s, none, descCompleted)
    | some t =>
      let xfer := s.xfer t
      if !xfer.cyclic && descCompleted > BitVec.ofNat 32 xfer.descNum then
        let s := s.listDel
        let s := { s with engine.descDequeued := s.engine.descDequeued + BitVec.ofNat 32 xfer.descNum }
        let s := s.setXfer t { s.xfer t with state := .completed }
        let s := engineTransferCompletion p s t hw
        engineServiceTransferList hw fuel s s.engine.transferList.head?
          (descCompleted - BitVec.ofNat 32 xfer.descNum)
      else
        (s, transfer, descCompleted)

/-- `engine_err_handle()`: the status that it reads again is only printed. -/
def engineErrHandle (s : Driver) (t : XferPtr) : Driver :=
  xdmaEngineStop p (s.setXfer t { s.xfer t with state := .failed })

/-- `engine_service_shutdown()`: nobody waits for the shutdown but by looking at the engine. -/
def engineServiceShutdown (s : Driver) : Driver := xdmaEngineStop p s

/-- An end-of-packet result among the first `n` of a transfer. -/
def eopReceived (e : XdmaEngine) (xfer : XdmaTransfer) (n : Nat) : Bool :=
  (List.range n).any (fun i => (e.cyclicResult (xfer.descIndex + i)).status &&& rxStatusEop ≠ 0)

/-- The flags of a transfer after the search for an end-of-packet result. -/
def eopFlags (e : XdmaEngine) (xfer : XdmaTransfer) (n : Nat) : BitVec 32 :=
  if eopReceived e xfer n then xfer.flags ||| xferFlagStC2hEopRcved else xfer.flags

/--
The verdict of `engine_service_final_transfer()` on the transfer at the head of the queue; `none`
when it stays there.
-/
def finalVerdict (s : Driver) (t : XferPtr) (descCompleted : BitVec 32) : Driver × Bool :=
  let xfer := s.xfer t
  if s.engine.status &&& errMask s.engine.dir ≠ 0 then
    (engineErrHandle p s t, true)
  -- the engine stopped on current transfer?
  else if descCompleted < BitVec.ofNat 32 xfer.descNum then
    if s.engine.eopFlush then
      -- check if eop received
      let flags := eopFlags s.engine xfer descCompleted.toNat
      let xfer := { xfer with flags := flags, descCmpl := xfer.descCmpl + descCompleted }
      let s := s.setXfer t xfer
      if flags &&& xferFlagStC2hEopRcved = 0 then
        (s, false)
      else
        let s := engineServiceShutdown p s
        let s := s.setXfer t { xfer with state := .completed }
        ({ s with engine.descDequeued := s.engine.descDequeued + xfer.descCmpl }, true)
    else
      let s := s.setXfer t { xfer with state := .failed, descCmpl := descCompleted }
      -- add dequeued number of descriptors during this run
      ({ s with engine.descDequeued := s.engine.descDequeued + BitVec.ofNat 32 xfer.descNum }, true)
  else
    let s := s.setXfer t
      { xfer with state := .completed, descCmpl := BitVec.ofNat 32 xfer.descNum }
    ({ s with engine.descDequeued := s.engine.descDequeued + BitVec.ofNat 32 xfer.descNum }, true)

/-- `engine_service_final_transfer()` -/
def engineServiceFinalTransfer (s : Driver) (transfer : Option XferPtr) (descCompleted : BitVec 32)
    (hw : HwRegs) : Driver :=
  match transfer with
  | none => s
  | some t =>
    match finalVerdict p s t descCompleted with
    | (s, true) => engineTransferCompletion p s.listDel t hw
    | (s, false) => s

/-- `engine_service_perf()` -/
def engineServicePerf (s : Driver) (descCompleted : BitVec 32) : Driver :=
  match s.engine.xdmaPerf with
  | none => s
  | some perf =>
    -- a descriptor was completed?
    let perf :=
      if s.engine.status &&& xdmaStatDescCompleted ≠ 0 then
        { perf with iterations := descCompleted }
      else
        perf
    -- a descriptor stopped the engine?
    let perf :=
      if s.engine.status &&& xdmaStatDescStopped ≠ 0 then { perf with stopped := true } else perf
    { s with engine.xdmaPerf := some perf }

/-- `engine_service_resume()` -/
def engineServiceResume (s : Driver) (hw : HwRegs) : Driver :=
  if !s.engine.running then
    -- in the case of shutdown, let it finish what's in the Q
    if s.engine.transferList ≠ [] then
      (engineStart p s hw).getD s
    else if s.engine.shutdown.request then
      { s with engine.shutdown.idle := true }
    else
      s
  else if s.engine.transferList = [] then
    engineServiceShutdown p s
  else
    s

/--
`engine_service()` of an engine that ran, up to where it knows the descriptor count: the status is
read where it has to be, and an engine that is no longer busy is shut down.
-/
def engineServiceStatus (s : Driver) (descWriteback : BitVec 32) (hw : HwRegs) : Driver :=
  let descCount := descWriteback &&& wbCountMask
  let errFlag := descWriteback &&& wbErrMask
  let s :=
    if descCount = 0 ∨ errFlag ≠ 0 then { s with engine.status := hw.statusRc } else s
  if s.engine.status &&& xdmaStatBusy = 0 ∨ !s.engine.eopFlush ∧ descCount ≠ 0 then
    engineServiceShutdown p s
  else
    s

/-- `engine_service()` from the count of completed descriptors on. -/
def engineServiceCount (s : Driver) (descCount : BitVec 32) (hw : HwRegs) : Driver :=
  let transfer := s.engine.transferList.head?
  let s := if transfer.isSome then engineServicePerf s descCount else s
  -- account for already dequeued transfers during this engine run
  let descCount := descCount - s.engine.descDequeued
  let (s, transfer, descCount) :=
    engineServiceTransferList p hw s.engine.transferList.length s transfer descCount
  let s := engineServiceFinalTransfer p s transfer descCount hw
  if s.engine.eopFlush then s else engineServiceResume p s hw

/-- The count that a service works with: without a writeback it is read from the hardware. -/
def serviceCount (descWriteback : BitVec 32) (hw : HwRegs) : BitVec 32 :=
  let descCount := descWriteback &&& wbCountMask
  if descCount = 0 then hw.completedDescCount else descCount

/-- `engine_service()` -/
def engineService (s : Driver) (descWriteback : BitVec 32) (hw : HwRegs) : Driver :=
  if !s.engine.running then
    { s with engine.status := hw.statusRc }
  else
    let s := engineServiceStatus p s descWriteback hw
    let descCount := serviceCount descWriteback hw
    if descCount = 0 then s else engineServiceCount p s descCount hw

/-- The return value of `engine_service()`: an error of polling is signalled to the caller. -/
def engineServiceRet (s : Driver) (descWriteback : BitVec 32) : Int :=
  if s.engine.running ∧ descWriteback &&& wbErrMask ≠ 0 then -1 else 0

end Xdma
