import ReferenceProjects.Xdma.Impl.Perf
import ReferenceProjects.Xdma.Lemmas.Step

/-!
This module contains that an engine stays quiet from the moment `xdma_device_offline()` requests its
shutdown until `xdma_device_online()` takes the request back.
-/

namespace Xdma

/-- The engine is stopped and its shutdown requested. -/
structure Quiet (d : Driver) : Prop where
  request : d.engine.shutdown.request = true
  running : d.engine.running = false

/-- A step that ends with a quiet engine and neither queued a transfer nor set the engine running. -/
structure QuietStep (d d' : Driver) : Prop where
  quiet : Quiet d'
  list : d'.engine.transferList <:+ d.engine.transferList
  control : ∃ ws, d'.hist.controlWrites = ws ++ d.hist.controlWrites
    ∧ ∀ w ∈ ws, w &&& xdmaCtrlRunStop = 0

section Driver

variable {p : ModuleParam} {d d' : Driver}

theorem Quiet.of_eq (h : Quiet d) (hshutdown : d'.engine.shutdown = d.engine.shutdown)
    (hrunning : d'.engine.running = d.engine.running)
    (hlist : d'.engine.transferList = d.engine.transferList)
    (hcontrol : d'.hist.controlWrites = d.hist.controlWrites)
    : QuietStep d d' := by
  constructor
  . constructor
    . rw [hshutdown, h.request]
    . rw [hrunning, h.running]
  . rw [hlist]
  . refine ⟨[], ?_, by simp⟩
    rw [hcontrol, List.nil_append]

theorem ctrlCommon_runStop (p : ModuleParam)
    : ctrlCommon p &&& xdmaCtrlRunStop = 0 := by
  unfold ctrlCommon
  cases p.pollMode <;> decide

theorem QuietStep.stop (hrequest : d'.engine.shutdown.request = true)
    (hlist : d'.engine.transferList <:+ d.engine.transferList)
    (hcontrol : d'.hist.controlWrites = d.hist.controlWrites)
    : QuietStep d (xdmaEngineStop p d') := by
  rw [xdmaEngineStop_eq]
  constructor
  . exact ⟨hrequest, rfl⟩
  . apply hlist
  . refine ⟨[ctrlCommon p], ?_, ?_⟩
    . rw [← hcontrol]
      rfl
    . intro w hw
      rw [List.mem_singleton.mp hw, ctrlCommon_runStop]

theorem deviceOfflineEngine_quiet (d : Driver)
    : QuietStep d (deviceOfflineEngine p d) := by
  unfold deviceOfflineEngine
  exact QuietStep.stop rfl (List.suffix_refl _) rfl

theorem Quiet.service (h : Quiet d) (descWriteback : BitVec 32) (hw : HwRegs)
    : QuietStep d (engineService p d descWriteback hw) := by
  unfold engineService
  rw [h.running, Bool.not_false, if_pos rfl]
  exact h.of_eq rfl rfl rfl rfl

theorem Quiet.wake (h : Quiet d) (t : XferPtr) (hw : HwRegs)
    : QuietStep d (submitWake p d t hw) := by
  rcases submitWake_cases p d t hw with ⟨status, heq⟩ | ⟨_, status, xfer, heq, _⟩
  . rw [heq]
    exact h.of_eq rfl rfl rfl rfl
  . rw [heq]
    exact QuietStep.stop h.request (unlinkHead_suffix t _) rfl

theorem Quiet.not_queued (h : Quiet d) (t : XferPtr) (hw : HwRegs) (d' : Driver)
    : transferQueueLocked p d t hw ≠ .ok d' := by
  intro hok
  rcases transferQueueLocked_cases hok with ⟨hrequest, _⟩
  rw [h.request] at hrequest
  contradiction

theorem Quiet.submit (h : Quiet d) {alloc : Nat → Bool} {r : Nat} {write dmaMapped : Bool}
    {epAddr : BitVec 64} {sgl : List Scatterlist} {res : Except Errno XdmaRequestCb}
    (hsubmit : submitRequest p alloc d r write epAddr sgl dmaMapped = some (d', res))
    : QuietStep d d' := by
  rcases submitRequest_eq hsubmit with ⟨heq, _⟩
  rw [heq]
  exact h.of_eq rfl rfl rfl rfl

end Driver

section Step

variable {p : ModuleParam}

theorem Quiet.thread {s s' : Sys} (h : Quiet s.drv) {r : Nat} {th : Thread} {op : ThreadOp}
    (hstep : s.stepThread p r th op = some s')
    : QuietStep s.drv s'.drv := by
  have hcases := Sys.stepThread_cases hstep
  cases op with
  | lock =>
    rcases hcases with ⟨_, _, _, rfl⟩
    exact h.of_eq rfl rfl rfl rfl
  | init =>
    rcases hcases with ⟨k, n, _, rfl⟩
    dsimp only [Sys.setThread]
    rw [submitInit_eq]
    exact h.of_eq rfl rfl rfl rfl
  | check =>
    rcases hcases with ⟨k, n, _, rfl⟩
    exact h.of_eq rfl rfl rfl rfl
  | queue hw =>
    rcases hcases with ⟨k, n, _, ⟨_, rfl⟩ | ⟨d', hok, rfl⟩⟩
    . exact h.of_eq rfl rfl rfl rfl
    . exact absurd hok (h.not_queued _ hw d')
  | wake hw =>
    rcases hcases with ⟨n, _, rfl⟩
    apply h.wake
  | destroy =>
    rcases hcases with ⟨n, failed, _, rfl⟩
    dsimp only [Sys.setThread]
    rw [submitDestroy_eq]
    exact h.of_eq rfl rfl rfl rfl
  | exit =>
    rcases hcases with ⟨_, rfl⟩
    dsimp only [Sys.setThread]
    rw [submitExit_eq]
    exact h.of_eq rfl rfl rfl rfl

theorem Quiet.sys {s s' : Sys} (h : Quiet s.drv) {e : Event} (honline : e ≠ .onlineEngine)
    (hstep : s.step p e = some s')
    : QuietStep s.drv s'.drv := by
  cases e with
  | submit r wait dmaMapped write alloc epAddr sgl =>
    simp only [Sys.step] at hstep
    split at hstep
    . contradiction
    . split at hstep
      . contradiction
      . next hsubmit =>
        rw [← Option.some.inj hstep]
        apply h.submit hsubmit
      . next hsubmit =>
        rw [← Option.some.inj hstep]
        apply h.submit hsubmit
  | thread r op =>
    rcases Option.bind_eq_some_iff.mp hstep with ⟨th, _, hthread⟩
    apply h.thread hthread
  | service descWriteback hw =>
    rw [← Option.some.inj hstep]
    apply h.service
  | setOffline =>
    rw [← Option.some.inj hstep]
    exact h.of_eq rfl rfl rfl rfl
  | offlineEngine =>
    rw [← Option.some.inj hstep]
    apply deviceOfflineEngine_quiet
  | onlineEngine => contradiction
  | clearOffline =>
    rw [← Option.some.inj hstep]
    exact h.of_eq rfl rfl rfl rfl

theorem Quiet.perfStop {d d' : Driver} (h : Quiet d) (hstop : performanceStop p d = some d')
    : QuietStep d d' := by
  unfold performanceStop at hstop
  split at hstop
  . rw [← Option.some.inj hstop]
    exact h.of_eq rfl rfl rfl rfl
  . rw [← Option.some.inj hstop]
    exact h.of_eq rfl rfl rfl rfl
  . contradiction
  . next run rest hlist =>
    have hstep : QuietStep d (xdmaEngineStop p d) :=
      QuietStep.stop h.request (List.suffix_refl _) rfl
    rw [← Option.some.inj hstop]
    constructor
    . exact ⟨hstep.quiet.request, hstep.quiet.running⟩
    . rw [hlist]
      dsimp only
      split
      . apply List.suffix_cons
      . apply List.suffix_refl
    . apply hstep.control

theorem Quiet.step {s s' : PerfSys} (h : Quiet s.sys.drv) {e : PerfEvent}
    (honline : e ≠ .sys .onlineEngine) (hstep : s.step p e = some s')
    : QuietStep s.sys.drv s'.sys.drv := by
  cases e with
  | sys e =>
    rcases Option.map_eq_some_iff.mp hstep with ⟨sys, hsys, heq⟩
    rw [← heq]
    apply h.sys _ hsys
    intro he
    rw [he] at honline
    contradiction
  | start run perf perfBufBus =>
    simp only [PerfSys.step] at hstep
    split at hstep
    . rw [← Option.some.inj hstep]
      exact h.of_eq rfl rfl rfl rfl
    . split at hstep
      . contradiction
      . split at hstep
        . rw [← Option.some.inj hstep]
          exact h.of_eq rfl rfl rfl rfl
        . rw [← Option.some.inj hstep]
          exact h.of_eq rfl rfl rfl rfl
  | queue hw =>
    simp only [PerfSys.step] at hstep
    split at hstep
    . contradiction
    . split at hstep
      . contradiction
      . next t _ _ d' hqueue =>
        exact absurd (transferQueue_ok hqueue).2.2 (h.not_queued t hw d')
  | stop =>
    rcases Option.map_eq_some_iff.mp hstep with ⟨d', hstop, heq⟩
    rw [← heq]
    apply h.perfStop hstop

/--
From any state on, an engine that is taken offline stays quiet at every step until it is brought
online: the request stays, the engine does not run, no transfer is queued, and no word with the RUN
bit is written to the control register.
-/
theorem offlineEngine_quiet (p : ModuleParam) (s : PerfSys) (es : List PerfEvent)
    (honline : .sys .onlineEngine ∉ es)
    : Transition.StepsHold (PerfSys.step p) (fun s _ s' => QuietStep s.sys.drv s'.sys.drv) s
        (.sys .offlineEngine :: es) := by
  intro s' hs'
  have hfirst : QuietStep s.sys.drv s'.sys.drv := by
    rw [← Option.some.inj hs']
    apply deviceOfflineEngine_quiet
  refine ⟨hfirst, ?_⟩
  have hquiet := hfirst.quiet
  clear hs' hfirst
  induction es generalizing s' with
  | nil => trivial
  | cons e es ih =>
    rw [List.mem_cons, not_or] at honline
    intro m hm
    have hstep := hquiet.step (Ne.symm honline.1) hm
    exact ⟨hstep, ih honline.2 m hstep.quiet⟩

/--
An engine that works on a transfer is taken offline; a submission that was past its check comes to the
lock, the engine is serviced, and the waiter of the transfer gives up.
-/
theorem offlineEngine_quiet_timeout
    : ∃ s, Transition.run (PerfSys.step ⟨false, true, 4096⟩) ⟨Sys.init .toDevice false, none⟩
          ((submitFirst 0 true true ++ [Event.submit 1 false true true true 0 [⟨0x2000, 16⟩],
            Event.thread 1 .init, Event.thread 1 .check]).map .sys) = some s
        ∧ Transition.StepsHold (PerfSys.step ⟨false, true, 4096⟩)
          (fun s _ s' => QuietStep s.sys.drv s'.sys.drv) s
          [.sys .offlineEngine, .sys (.thread 1 (.queue (healthyRegs 0))),
            .sys (.service 0 (healthyRegs 1)), .sys (.thread 0 (.wake (healthyRegs 0)))] :=
  ⟨_, rfl, offlineEngine_quiet _ _ _ (by simp)⟩

end Step

end Xdma
