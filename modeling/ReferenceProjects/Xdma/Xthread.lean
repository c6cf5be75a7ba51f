import ReferenceProjects.Lib.Run
import ReferenceProjects.Xdma.Impl.Thread

/-!
This module contains when a completion thread only polls engines that have a transfer on their queue:
one pending work item makes it go to all of them.
-/

namespace Xdma

/-- A call of `fproc` is for an engine with a queued transfer, whose count it hands on. -/
def FprocQueued (s : Xthread) (e : XthreadEvent) (s' : Xthread) : Prop :=
  match e with
  | .fproc _ => ∃ engine, ∃ transfer ∈ s.transferList engine,
      s'.calls = (engine, transfer.descCmplTh) :: s.calls
  | _ => True

/-- The next step of the thread begins its loop over the work items. -/
def Xthread.Enters (s : Xthread) : Prop :=
  match s.pc with
  | .pending (engine :: _) => s.transferList engine ≠ []
  | .reschedule => s.thp.schedule = true
  | _ => False

/--
When the thread begins its loop all its engines have something queued, and nobody else takes the last
transfer of an engine that the loop has yet to come to.
-/
def Filled (s : Xthread) (e : XthreadEvent) : Prop :=
  match e with
  | .thread => s.Enters → ∀ engine ∈ s.thp.workList, s.transferList engine ≠ []
  | .unlink engine i =>
    match s.pc with
    | .process rest => engine ∈ rest → (s.transferList engine).eraseIdx i ≠ []
    | _ => True
  | _ => True

instance (s : Xthread) : Decidable s.Enters := by
  unfold Xthread.Enters
  split <;> infer_instance

instance (s : Xthread) (e : XthreadEvent) : Decidable (Filled s e) := by
  unfold Filled
  split
  . infer_instance
  . split <;> infer_instance
  . infer_instance

/-- The engines that the loop has yet to come to are different ones with something queued. -/
structure XthreadInv (s : Xthread) : Prop where
  nodup : s.thp.workList.Nodup
  process : ∀ rest, s.pc = .process rest → rest.Nodup ∧ ∀ engine ∈ rest, s.transferList engine ≠ []

theorem Xthread.descCmplTh_mem {s : Xthread} {engine : Nat} (h : s.transferList engine ≠ [])
    : ∃ transfer ∈ s.transferList engine, s.descCmplTh engine = transfer.descCmplTh := by
  unfold Xthread.descCmplTh
  cases hqueue : s.transferList engine with
  | nil => exact absurd hqueue h
  | cons transfer rest => exact ⟨transfer, List.mem_cons_self, rfl⟩

theorem Xthread.setQueue_ne (s : Xthread) {engine engine' : Nat} (queue : List XdmaTransfer)
    (h : engine' ≠ engine)
    : (s.setQueue engine queue).transferList engine' = s.transferList engine' :=
  Function.update_of_ne h _ _

/-- What a step can do. -/
inductive XthreadStep (s : Xthread) : XthreadEvent → Xthread → Prop where
  | enter (enters : s.Enters)
      : XthreadStep s .thread s.enter
  | go (pc : XthreadPc) (hpc : ∀ rest, pc ≠ .process rest)
      : XthreadStep s .thread { s with pc := pc }
  | fproc (unlinked engine : Nat) (rest : List Nat) (hpc : s.pc = .process (engine :: rest))
      : XthreadStep s (.fproc unlinked)
          { s.setQueue engine ((s.transferList engine).drop unlinked) with
            pc := .process rest
            calls := (engine, s.descCmplTh engine) :: s.calls }
  | wakeup
      : XthreadStep s .wakeup { s with thp := { s.thp with schedule := true } }
  | queue (engine : Nat) (transfer : XdmaTransfer)
      : XthreadStep s (.queue engine transfer)
          (s.setQueue engine (s.transferList engine ++ [transfer]))
  | unlink (engine i : Nat)
      : XthreadStep s (.unlink engine i) (s.setQueue engine ((s.transferList engine).eraseIdx i))
  | addWork (engine : Nat) (hpc : s.pc.unlocked = true) (hmem : engine ∉ s.thp.workList)
      : XthreadStep s (.addWork engine)
          { s with
            thp := { s.thp with
              workList := s.thp.workList ++ [engine]
              workCnt := s.thp.workCnt + 1 } }
  | removeWork (engine : Nat) (hpc : s.pc.unlocked = true) (hmem : engine ∈ s.thp.workList)
      : XthreadStep s (.removeWork engine)
          { s with
            thp := { s.thp with
              workList := s.thp.workList.erase engine
              workCnt := s.thp.workCnt - 1 } }

theorem Xthread.stepThread_cases {s s' : Xthread} (h : s.stepThread = some s')
    : XthreadStep s .thread s' := by
  unfold Xthread.stepThread at h
  split at h
  . cases h
    exact .go _ (fun rest => by simp)
  . cases h
    exact .go _ (fun rest => by simp)
  . rename_i engine rest hpc
    cases h
    split
    . rename_i hqueue
      apply XthreadStep.enter
      unfold Xthread.Enters
      rw [hpc]
      exact hqueue
    . exact .go _ (fun rest => by simp)
  . rename_i hpc
    split at h
    . rename_i hschedule
      cases h
      apply XthreadStep.enter
      unfold Xthread.Enters
      rw [hpc]
      exact hschedule
    . cases h
  . cases h
    exact .go _ (fun rest => by simp)
  . cases h

theorem Xthread.step_cases {s s' : Xthread} {e : XthreadEvent} (h : s.step e = some s')
    : XthreadStep s e s' := by
  cases e with
  | thread => exact Xthread.stepThread_cases h
  | fproc unlinked =>
    unfold Xthread.step at h
    dsimp only at h
    split at h
    . rename_i engine rest hpc
      cases h
      exact .fproc unlinked engine rest hpc
    . cases h
  | wakeup =>
    cases h
    exact .wakeup
  | queue engine transfer =>
    cases h
    exact .queue engine transfer
  | unlink engine i =>
    cases h
    exact .unlink engine i
  | addWork engine =>
    unfold Xthread.step at h
    dsimp only at h
    split at h
    . rename_i hcond
      rw [Bool.and_eq_true] at hcond
      cases h
      exact .addWork engine hcond.1 (by simpa using hcond.2)
    . cases h
  | removeWork engine =>
    unfold Xthread.step at h
    dsimp only at h
    split at h
    . rename_i hcond
      rw [Bool.and_eq_true] at hcond
      cases h
      exact .removeWork engine hcond.1 (by simpa using hcond.2)
    . cases h

theorem XthreadPc.unlocked_ne {pc : XthreadPc} (h : pc.unlocked = true) (rest : List Nat)
    : pc ≠ .process rest := by
  rintro rfl
  cases h

section Step

variable {s : Xthread}

theorem XthreadInv.enter (h : XthreadInv s)
    (hfilled : ∀ engine ∈ s.thp.workList, s.transferList engine ≠ [])
    : XthreadInv s.enter where
  nodup := h.nodup
  process := by
    intro rest hpc
    unfold Xthread.enter at hpc ⊢
    dsimp only at hpc ⊢
    split at hpc
    . cases hpc
    . cases hpc
      exact ⟨h.nodup, hfilled⟩

theorem XthreadInv.fproc (h : XthreadInv s) (unlinked : Nat) {engine : Nat} {rest : List Nat}
    (hpc : s.pc = .process (engine :: rest))
    : XthreadInv
        { s.setQueue engine ((s.transferList engine).drop unlinked) with
          pc := .process rest
          calls := (engine, s.descCmplTh engine) :: s.calls } where
  nodup := h.nodup
  process := by
    intro rest' hpc'
    cases hpc'
    obtain ⟨hnodup, hqueued⟩ := h.process _ hpc
    rw [List.nodup_cons] at hnodup
    refine ⟨hnodup.2, ?_⟩
    intro engine' hmem
    -- the engine that was served does not come again
    have hne : engine' ≠ engine := by
      rintro rfl
      exact hnodup.1 hmem
    dsimp only
    rw [Xthread.setQueue_ne s _ hne]
    exact hqueued engine' (List.mem_cons_of_mem _ hmem)

theorem XthreadInv.setQueue (h : XthreadInv s) (engine : Nat) (queue : List XdmaTransfer)
    (hqueue : ∀ rest, s.pc = .process rest → engine ∈ rest → queue ≠ [])
    : XthreadInv (s.setQueue engine queue) where
  nodup := h.nodup
  process := by
    intro rest hpc
    obtain ⟨hnodup, hqueued⟩ := h.process rest hpc
    refine ⟨hnodup, ?_⟩
    intro engine' hmem
    by_cases heq : engine' = engine
    . subst heq
      unfold Xthread.setQueue
      dsimp only
      rw [Function.update_self]
      exact hqueue rest hpc hmem
    . rw [Xthread.setQueue_ne s queue heq]
      exact hqueued engine' hmem

theorem XthreadInv.step {e : XthreadEvent} {s' : Xthread} (h : XthreadInv s) (hfilled : Filled s e)
    (hstep : s.step e = some s')
    : XthreadInv s' := by
  cases Xthread.step_cases hstep with
  | enter enters => exact h.enter (hfilled enters)
  | go pc hpc => exact ⟨h.nodup, fun rest heq => absurd heq (hpc rest)⟩
  | fproc unlinked engine rest hpc => exact h.fproc unlinked hpc
  | wakeup => exact ⟨h.nodup, h.process⟩
  | queue engine transfer => exact h.setQueue engine _ (fun _ _ _ => by simp)
  | unlink engine i =>
    apply h.setQueue engine
    intro rest hpc
    unfold Filled at hfilled
    dsimp only at hfilled
    rw [hpc] at hfilled
    exact hfilled
  | addWork engine hpc hmem =>
    refine ⟨?_, fun rest heq => absurd heq (XthreadPc.unlocked_ne hpc rest)⟩
    exact h.nodup.append (List.nodup_singleton engine) (by simpa using hmem)
  | removeWork engine hpc hmem =>
    exact ⟨h.nodup.erase engine, fun rest heq => absurd heq (XthreadPc.unlocked_ne hpc rest)⟩

/-- A call for an engine with something queued is for one of its transfers. -/
theorem FprocQueued.of_inv {e : XthreadEvent} {s' : Xthread} (h : XthreadInv s)
    (hstep : s.step e = some s')
    : FprocQueued s e s' := by
  cases Xthread.step_cases hstep with
  | fproc unlinked engine rest hpc =>
    have hqueued := (h.process _ hpc).2 engine List.mem_cons_self
    obtain ⟨transfer, hmem, hcount⟩ := Xthread.descCmplTh_mem hqueued
    refine ⟨engine, transfer, hmem, ?_⟩
    rw [← hcount]
  | _ => trivial

end Step

theorem XthreadInv.init (head : Nat → Nat)
    : XthreadInv (Xthread.init head) where
  nodup := List.nodup_nil
  process := by
    intro rest hpc
    cases hpc

/-- Whatever happens, the engines on the thread are different ones and are counted. -/
structure XthreadWork (s : Xthread) : Prop where
  nodup : s.thp.workList.Nodup
  workCnt : s.thp.workCnt = s.thp.workList.length

theorem XthreadWork.step {s s' : Xthread} {e : XthreadEvent} (h : XthreadWork s)
    (hstep : s.step e = some s')
    : XthreadWork s' := by
  cases Xthread.step_cases hstep with
  | addWork engine hpc hmem =>
    refine ⟨h.nodup.append (List.nodup_singleton engine) (by simpa using hmem), ?_⟩
    simp [h.workCnt]
  | removeWork engine hpc hmem =>
    refine ⟨h.nodup.erase engine, ?_⟩
    dsimp only
    rw [h.workCnt, List.length_erase_of_mem hmem]
  | _ => exact ⟨h.nodup, h.workCnt⟩

/-- A pass that nobody disturbs calls for transfers only if there is one at every engine. -/
theorem fprocs_queued_iff {s : Xthread} {rest : List Nat} (hpc : s.pc = .process rest)
    (hnodup : rest.Nodup) (unlinked : List Nat) (hlen : unlinked.length = rest.length)
    : Transition.StepsHold Xthread.step FprocQueued s (unlinked.map .fproc)
        ↔ ∀ engine ∈ rest, s.transferList engine ≠ [] := by
  induction rest generalizing s unlinked with
  | nil =>
    rw [List.length_eq_zero_iff.mp hlen]
    exact iff_of_true trivial (by simp)
  | cons engine rest ih =>
    cases unlinked with
    | nil => cases hlen
    | cons n unlinked =>
      rw [List.nodup_cons] at hnodup
      let s' : Xthread :=
        { s.setQueue engine ((s.transferList engine).drop n) with
          pc := .process rest
          calls := (engine, s.descCmplTh engine) :: s.calls }
      have hstep : s.step (.fproc n) = some s' := by
        unfold Xthread.step
        rw [hpc]
      have hcall : FprocQueued s (.fproc n) s' ↔ s.transferList engine ≠ [] := by
        constructor
        . rintro ⟨engine', transfer, hmem, hcalls⟩
          have heq : engine = engine' := congrArg Prod.fst (List.cons.inj hcalls).1
          rw [heq]
          exact List.ne_nil_of_mem hmem
        . intro hqueue
          obtain ⟨transfer, hmem, hcount⟩ := Xthread.descCmplTh_mem hqueue
          refine ⟨engine, transfer, hmem, ?_⟩
          rw [← hcount]
      have hothers : (∀ engine' ∈ rest, s'.transferList engine' ≠ [])
          ↔ ∀ engine' ∈ rest, s.transferList engine' ≠ [] := by
        apply forall₂_congr
        intro engine' hmem
        have hne : engine' ≠ engine := by
          rintro rfl
          exact hnodup.1 hmem
        exact Iff.of_eq (congrArg (· ≠ []) (Xthread.setQueue_ne s _ hne))
      have htail := ih (s := s') rfl hnodup.2 unlinked (Nat.succ.inj hlen)
      rw [List.forall_mem_cons, ← hcall, ← hothers, ← htail, List.map_cons]
      constructor
      . intro h
        exact h s' hstep
      . intro h s'' hs''
        rw [hstep] at hs''
        cases hs''
        exact h

theorem Xthread.pass_queued_iff {s : Xthread} (h : XthreadWork s) (henters : s.Enters)
    (unlinked : List Nat) (hlen : unlinked.length = s.thp.workList.length)
    : Transition.StepsHold Xthread.step FprocQueued s (.thread :: unlinked.map .fproc)
        ↔ ∀ engine ∈ s.thp.workList, s.transferList engine ≠ [] := by
  have hstep : s.step .thread = some s.enter := by
    unfold Xthread.Enters at henters
    unfold Xthread.step Xthread.stepThread
    dsimp only
    split at henters
    . rename_i hpc
      rw [hpc]
      dsimp only
      rw [if_pos henters]
    . rename_i hpc
      rw [hpc]
      dsimp only
      rw [if_pos henters]
    . exact henters.elim
  have hpass : Transition.StepsHold Xthread.step FprocQueued s.enter (unlinked.map .fproc)
      ↔ ∀ engine ∈ s.thp.workList, s.transferList engine ≠ [] := by
    by_cases hcnt : s.thp.workCnt = 0
    . rw [h.workCnt, List.length_eq_zero_iff] at hcnt
      rw [hcnt] at hlen ⊢
      rw [List.length_eq_zero_iff.mp hlen]
      exact iff_of_true trivial (by simp)
    . apply fprocs_queued_iff ?_ h.nodup unlinked hlen
      unfold Xthread.enter
      rw [if_neg hcnt]
  rw [← hpass]
  constructor
  . intro hsteps
    exact (hsteps s.enter hstep).2
  . intro hsteps s' hs'
    rw [hstep] at hs'
    cases hs'
    exact ⟨trivial, hsteps⟩

/--
In a run in which the thread only begins with all its engines busy, all its calls are for transfers; and
a pass that nobody disturbs makes only such calls exactly if it begins so.
-/
theorem xthreadMain_fproc_queued (head : Nat → Nat) (es : List XthreadEvent)
    : (Transition.StepsHold Xthread.step (fun s e _ => Filled s e) (Xthread.init head) es
          → Transition.StepsHold Xthread.step FprocQueued (Xthread.init head) es)
      ∧ ∀ s, Transition.run Xthread.step (Xthread.init head) es = some s → s.Enters →
          ∀ unlinked : List Nat, unlinked.length = s.thp.workList.length →
            (Transition.StepsHold Xthread.step FprocQueued s (.thread :: unlinked.map .fproc)
              ↔ ∀ engine ∈ s.thp.workList, s.transferList engine ≠ []) := by
  constructor
  . intro hfilled
    apply Transition.stepsHold_of_invariant ?_ (XthreadInv.init head) hfilled
    intro s e s' h hfill hstep
    exact ⟨h.step hfill hstep, FprocQueued.of_inv h hstep⟩
  . intro s hrun
    have hinit : XthreadWork (Xthread.init head) := ⟨List.nodup_nil, rfl⟩
    have hstates : Transition.StatesHold Xthread.step XthreadWork (Xthread.init head) es :=
      Transition.statesHold_of_inductive (fun _ h => h) (fun s e s' h => h.step) hinit
    exact Xthread.pass_queued_iff (hstates.of_run hrun)

/-- Two engines, of which the second one has a transfer, and the thread about to begin. -/
def onePending : List XthreadEvent :=
  [.addWork 0, .addWork 1, .queue 1 (.zero .toDevice), .thread, .thread]

theorem xthreadMain_fproc_empty
    : ¬ ∀ (head : Nat → Nat) (es : List XthreadEvent),
        Transition.StepsHold Xthread.step FprocQueued (Xthread.init head) es := by
  intro h
  have hrun := (h (fun _ => 0) (onePending ++ [.thread] ++ [.fproc 0])).last rfl rfl
  obtain ⟨engine, transfer, hmem, hcalls⟩ := hrun
  have heq : 0 = engine := congrArg Prod.fst (List.cons.inj hcalls).1
  rw [← heq] at hmem
  cases hmem

theorem xthreadMain_fproc_queued_one
    : Transition.StepsHold Xthread.step FprocQueued (Xthread.init (fun _ => 0))
        [.addWork 0, .queue 0 (.zero .toDevice), .thread, .thread, .fproc 1] :=
  (xthreadMain_fproc_queued (fun _ => 0) _).1 (by decide)

end Xdma
