import ReferenceProjects.Xdma.Impl.Service

/-!
This module contains the threads that use one engine: any number of blocking and nowait submissions,
the servicing of the engine, and taking the device offline and back online. A step is what a thread
does under the lock of the engine, or between two such sections.
-/

namespace Xdma

/-- Where a submission is. `nents` is what it has left, `tferIdx` the transfers it queued. -/
inductive Pc where
  /-- the request is made, `desc_lock` not taken yet -/
  | ready
  /-- at the head of the submit loop -/
  | loop (tferIdx nents : Nat)
  /-- the next transfer is built -/
  | built (tferIdx nents : Nat)
  /-- `transfer_queue()` passed its checks and waits for the lock of the engine -/
  | checked (tferIdx nents : Nat)
  /-- sleeps until the transfer is done, a signal arrives or the time is up -/
  | waiting (nents : Nat)
  /-- looked at the state of the transfer, which is not destroyed yet -/
  | woken (nents : Nat) (failed : Bool)
  /-- left the loop, the request is not freed yet -/
  | leaving
  /-- returned `-EIOCBQUEUED` -/
  | queued (tferIdx : Nat)
  /-- returned, and the request is gone -/
  | returned
  deriving DecidableEq, Repr

/-- One submission: `xdma_xfer_submit()` or, not waiting, `xdma_xfer_submit_nowait()`. -/
structure Thread where
  wait : Bool
  dmaMapped : Bool
  pc : Pc
  deriving DecidableEq, Repr

/-- The submissions are named by their request. -/
structure Sys where
  drv : Driver
  thr : Nat → Option Thread
  descLock : Option Nat

/-- What a submission does next. -/
inductive ThreadOp where
  | lock
  | init
  | check
  | queue (hw : HwRegs)
  | wake (hw : HwRegs)
  | destroy
  | exit
  deriving DecidableEq, Repr

inductive Event where
  | submit (r : Nat) (wait dmaMapped write alloc : Bool) (epAddr : BitVec 64)
      (sgl : List Scatterlist)
  | thread (r : Nat) (op : ThreadOp)
  | service (descWriteback : BitVec 32) (hw : HwRegs)
  | setOffline
  | offlineEngine
  | onlineEngine
  | clearOffline
  deriving Repr

/-- The head of the submit loop, or what follows it. -/
def Pc.goOn (wait : Bool) (tferIdx nents : Nat) : Pc :=
  if nents ≠ 0 then
    .loop tferIdx nents
  else if wait then
    .leaving
  else
    .queued tferIdx

/-- The transfer that a submission works on: the blocking one has one at a time. -/
def Thread.tfer (th : Thread) (r tferIdx : Nat) : XferPtr :=
  .tfer r (if th.wait then 0 else tferIdx)

/-- The I/O callback that a submission gives its transfers. -/
def Thread.cb (th : Thread) (r : Nat) : Option Nat := if th.wait then none else some r

def Sys.setThread (s : Sys) (r : Nat) (th : Thread) : Sys :=
  { s with thr := Function.update s.thr r (some th) }

variable (p : ModuleParam)

/-- `xdma_device_offline()`, what it does to the engine under its lock. -/
def deviceOfflineEngine (s : Driver) : Driver :=
  xdmaEngineStop p { s with engine.shutdown.request := true }

/-- `engine_init_regs()`, the registers of the engine itself. -/
def engineInitRegs (s : Driver) : Driver :=
  let w := xdmaCtrlIeDescAlignMismatch ||| xdmaCtrlIeMagicStopped ||| xdmaCtrlIeReadError
    ||| xdmaCtrlIeDescError
  let w := if p.pollMode then w else w ||| xdmaCtrlIeDescStopped ||| xdmaCtrlIeDescCompleted
  { s with engine.regs.interruptEnableMask := w }

/-- `xdma_device_online()`, what it does to the engine. -/
def deviceOnlineEngine (s : Driver) : Driver :=
  { engineInitRegs p s with engine.shutdown.request := false }

/-- A step of submission `r`, which is `th`. -/
def Sys.stepThread (s : Sys) (r : Nat) (th : Thread) : ThreadOp → Option Sys
  | .lock =>
    match th.wait, th.pc, s.descLock with
    | true, .ready, none =>
      let s := { s with descLock := some r }
      some (s.setThread r { th with pc := .goOn true 0 (s.drv.req r).swDescCnt })
    | _, _, _ => none
  | .init =>
    match th.pc with
    | .loop k nents =>
      let (drv, nents) := submitInit s.drv r (th.tfer r k) (th.cb r) th.dmaMapped nents
      some ({ s with drv := drv }.setThread r { th with pc := .built k nents })
    | _ => none
  | .check =>
    match th.pc with
    | .built k nents =>
      match transferQueueCheck s.drv (th.tfer r k) with
      | .ok () => some (s.setThread r { th with pc := .checked k nents })
      | .error _ => some (s.setThread r { th with pc := .leaving })
    | _ => none
  | .queue hw =>
    match th.pc with
    | .checked k nents =>
      match transferQueueLocked p s.drv (th.tfer r k) hw with
      | .ok drv =>
        let pc := if th.wait then .waiting nents else .goOn false (k + 1) nents
        some ({ s with drv := drv }.setThread r { th with pc := pc })
      | .error _ => some (s.setThread r { th with pc := .leaving })
    | _ => none
  | .wake hw =>
    match th.pc with
    | .waiting nents =>
      let t := th.tfer r 0
      let l := submitSwitch s.drv.engine (s.drv.xfer t) ⟨none, 0, nents⟩
      let drv := submitWake p s.drv t hw
      some ({ s with drv := drv }.setThread r { th with pc := .woken l.nents l.rv.isSome })
    | _ => none
  | .destroy =>
    match th.pc with
    | .woken nents failed =>
      let drv := submitDestroy s.drv (th.tfer r 0)
      let pc := if failed then .leaving else .goOn true 0 nents
      some ({ s with drv := drv }.setThread r { th with pc := pc })
    | _ => none
  | .exit =>
    match th.pc with
    | .leaving =>
      let drv := submitExit s.drv r th.dmaMapped
      let lock := if s.descLock = some r then none else s.descLock
      some ({ s with drv := drv, descLock := lock }.setThread r { th with pc := .returned })
    | _ => none

/-- One step; `none` when the event cannot happen in the state. -/
def Sys.step (s : Sys) : Event → Option Sys
  | .submit r wait dmaMapped write alloc epAddr sgl =>
    match s.thr r with
    | some _ => none
    | none =>
      match submitRequest p (fun _ => alloc) s.drv r write epAddr sgl dmaMapped with
      | none => none
      | some (drv, .error _) =>
        some ({ s with drv := drv }.setThread r ⟨wait, dmaMapped, .returned⟩)
      | some (drv, .ok req) =>
        let pc := if wait then .ready else .goOn false 0 req.swDescCnt
        some ({ s with drv := drv }.setThread r ⟨wait, dmaMapped, pc⟩)
  | .service descWriteback hw => some { s with drv := engineService p s.drv descWriteback hw }
  | .setOffline => some { s with drv.offline := true }
  | .offlineEngine => some { s with drv := deviceOfflineEngine p s.drv }
  | .onlineEngine => some { s with drv := deviceOnlineEngine p s.drv }
  | .clearOffline => some { s with drv.offline := false }
  | .thread r op => (s.thr r).bind (fun th => s.stepThread p r th op)

/-- No submission yet, and an engine as it was created. -/
structure Sys.Initial (s : Sys) : Prop where
  thr : ∀ r, s.thr r = none
  running : s.drv.engine.running = false
  transferList : s.drv.engine.transferList = []
  descIdx : s.drv.engine.descIdx < 2048
  descUsed : s.drv.engine.descUsed = 0
  live : s.drv.hist.live = []
  freed : s.drv.hist.freed = []
  credits : s.drv.hist.credits = []

/-- The driver with a new engine, as `engine_create()` leaves it. -/
def Sys.init (dir : DmaDataDirection) (streaming : Bool) : Sys where
  drv := Driver.init (XdmaEngine.init dir streaming 0x100000 0x200000)
  thr := fun _ => none
  descLock := none

theorem Sys.init_initial (dir : DmaDataDirection) (streaming : Bool)
    : (Sys.init dir streaming).Initial :=
  ⟨fun _ => rfl, rfl, rfl, Nat.zero_lt_succ _, rfl, rfl, rfl, rfl⟩

end Xdma
