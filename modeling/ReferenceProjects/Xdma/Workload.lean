import ReferenceProjects.Xdma.Kthreads

/-!
This module contains how `xdma_thread_add_work()` shares out the engines among the completion threads.
-/

namespace Xdma

section Pick

variable {workCnt : Nat → Nat} {threadCnt : Nat}

/--
The loop ends at an idle thread, or else at the last thread with less than `v`, or where it was before if
there is none of those.
-/
theorem addWorkLoop_spec (n i idx v : Nat) (hi : i + n = threadCnt) (hidx : idx < threadCnt)
    : let r := addWorkLoop workCnt threadCnt n i idx v
      i ≤ r ∧ r < threadCnt ∧ workCnt r = 0
        ∨ (∀ j, i ≤ j → j < threadCnt → workCnt j ≠ 0)
          ∧ (r = idx ∧ (∀ j, i ≤ j → j < threadCnt → v ≤ workCnt j)
            ∨ i ≤ r ∧ r < threadCnt ∧ workCnt r < v
              ∧ ∀ j, r < j → j < threadCnt → v ≤ workCnt j) := by
  induction n generalizing i idx with
  | zero =>
    right
    exact ⟨fun j hij hj => absurd hj (by omega), .inl ⟨rfl, fun j hij hj => absurd hj (by omega)⟩⟩
  | succ n ih =>
    unfold addWorkLoop
    rw [if_neg (Nat.ne_of_lt hidx)]
    by_cases hidle : workCnt i = 0
    . rw [if_pos hidle]
      exact .inl ⟨Nat.le_refl i, by omega, hidle⟩
    . rw [if_neg hidle]
      -- what holds of the threads after this one and of this one
      have hfirst : ∀ {P : Nat → Prop}, P i → (∀ j, i + 1 ≤ j → j < threadCnt → P j)
          → ∀ j, i ≤ j → j < threadCnt → P j := by
        intro P hP hrest j hij hj
        by_cases heq : j = i
        . rw [heq]
          exact hP
        . exact hrest j (by omega) hj
      by_cases hless : workCnt i < v
      . rw [if_pos hless]
        rcases ih (i + 1) i (by omega) (by omega) with ⟨hir, hr⟩ | ⟨hbusy, hr⟩
        . exact .inl ⟨by omega, hr⟩
        . right
          refine ⟨hfirst hidle hbusy, .inr ?_⟩
          rcases hr with ⟨heq, hrest⟩ | ⟨hir, hr⟩
          . rw [heq]
            exact ⟨Nat.le_refl i, by omega, hless, fun j hij hj => hrest j hij hj⟩
          . exact ⟨by omega, hr⟩
      . rw [if_neg hless]
        rcases ih (i + 1) idx (by omega) hidx with ⟨hir, hr⟩ | ⟨hbusy, hr⟩
        . exact .inl ⟨by omega, hr⟩
        . right
          refine ⟨hfirst hidle hbusy, ?_⟩
          rcases hr with ⟨heq, hrest⟩ | ⟨hir, hr⟩
          . exact .inl ⟨heq, hfirst (by omega) hrest⟩
          . exact .inr ⟨by omega, hr⟩

/--
Some thread is idle, or none has less work than the first one, or the last of those that have less has
the least of all.
-/
def LastIsLeast (workCnt : Nat → Nat) (threadCnt : Nat) : Prop :=
  (∃ i < threadCnt, workCnt i = 0)
    ∨ (∀ i < threadCnt, workCnt 0 ≤ workCnt i)
    ∨ ∃ l < threadCnt, workCnt l < workCnt 0
        ∧ (∀ i < threadCnt, l < i → workCnt 0 ≤ workCnt i)
        ∧ ∀ i < threadCnt, workCnt l ≤ workCnt i

instance (workCnt : Nat → Nat) (threadCnt : Nat) : Decidable (LastIsLeast workCnt threadCnt) := by
  unfold LastIsLeast
  infer_instance

theorem addWorkLoop_least_iff (hpos : 0 < threadCnt)
    : let r := addWorkLoop workCnt threadCnt threadCnt 0 threadCnt 0
      r < threadCnt ∧ ((∀ i < threadCnt, workCnt r ≤ workCnt i) ↔ LastIsLeast workCnt threadCnt) := by
  obtain ⟨n, rfl⟩ : ∃ n, threadCnt = n + 1 := ⟨threadCnt - 1, by omega⟩
  have hloop : addWorkLoop workCnt (n + 1) (n + 1) 0 (n + 1) 0
      = addWorkLoop workCnt (n + 1) n 1 0 (workCnt 0) := by
    conv_lhs => unfold addWorkLoop
    rw [if_pos rfl]
  have hspec := @addWorkLoop_spec workCnt (n + 1) n 1 0 (workCnt 0)
    (by omega) hpos
  dsimp only at hspec ⊢
  rw [hloop]
  generalize addWorkLoop workCnt (n + 1) n 1 0 (workCnt 0) = r at hspec
  rcases hspec with ⟨-, hr, hidle⟩ | ⟨hbusy, ⟨heq, hnone⟩ | ⟨h1r, hr, hless, hlast⟩⟩
  . refine ⟨hr, iff_of_true ?_ (.inl ⟨r, hr, hidle⟩)⟩
    intro i _
    rw [hidle]
    exact Nat.zero_le _
  . -- no thread has less than the first one
    have hleast : ∀ i < n + 1, workCnt 0 ≤ workCnt i := by
      intro i hi
      by_cases hzero : i = 0
      . rw [hzero]
      . exact hnone i (by omega) hi
    rw [heq]
    exact ⟨hpos, iff_of_true hleast (.inr (.inl hleast))⟩
  . refine ⟨hr, ?_⟩
    constructor
    . intro hleast
      exact .inr (.inr ⟨r, hr, hless, fun i hi hri => hlast i hri hi, hleast⟩)
    . rintro (⟨i, hi, hidle⟩ | hfirst | ⟨l, hl, hless', hlast', hleast⟩)
      . -- the first thread has some work, as another one has less
        by_cases hzero : i = 0
        . rw [hzero] at hidle
          omega
        . exact absurd hidle (hbusy i (by omega) hi)
      . exact absurd (hfirst r hr) (by omega)
      . have heq : l = r := by
          rcases Nat.lt_trichotomy l r with hlt | heq | hgt
          . exact absurd (hlast' r hr hlt) (by omega)
          . exact heq
          . exact absurd (hlast l hgt hl) (by omega)
        rw [← heq]
        exact hleast

end Pick

/-- The counts of the threads are the lengths of their lists, and each engine is on the list it should be. -/
structure Counted (s : Kthreads) : Prop where
  workCnt : ∀ i, (s.thp i).workCnt = (s.thp i).workList.length
  nodup : ∀ i, (s.thp i).workList.Nodup
  mem_iff : ∀ engine i, engine ∈ (s.thp i).workList ↔ s.cmplthp engine = some i

/-- An engine is attached to a thread that has the least work, and the counts are kept. -/
def LeastLoaded (s : Kthreads) (e : WorkEvent) (s' : Kthreads) : Prop :=
  (∀ engine, e = .addWork engine → ∃ idx < s.threadCnt, s'.cmplthp engine = some idx
    ∧ ∀ i < s.threadCnt, (s.thp idx).workCnt ≤ (s.thp i).workCnt)
    ∧ Counted s'

/-- When an engine is attached, the thread that the loop comes to last has the least work. -/
def Balanced (s : Kthreads) (e : WorkEvent) : Prop :=
  match e with
  | .addWork _ => LastIsLeast (fun i => (s.thp i).workCnt) s.threadCnt
  | .removeWork _ => True

section Work

variable {s : Kthreads}

theorem addWorkIdx_least_iff (hpos : 0 < s.threadCnt)
    : addWorkIdx s < s.threadCnt
      ∧ ((∀ i < s.threadCnt, (s.thp (addWorkIdx s)).workCnt ≤ (s.thp i).workCnt)
        ↔ LastIsLeast (fun i => (s.thp i).workCnt) s.threadCnt) :=
  addWorkLoop_least_iff hpos

theorem Counted.addWork (h : Counted s) {engine : Nat} (hnew : s.cmplthp engine = none)
    : Counted (xdmaThreadAddWork s engine) := by
  have hnone : ∀ i, engine ∉ (s.thp i).workList := by
    intro i hmem
    rw [h.mem_iff, hnew] at hmem
    cases hmem
  unfold xdmaThreadAddWork
  constructor
  all_goals dsimp only
  . intro i
    by_cases heq : i = addWorkIdx s
    . subst heq
      rw [Kthreads.setThp_self]
      dsimp only
      rw [List.length_append, List.length_singleton, h.workCnt]
    . rw [Kthreads.setThp_ne s _ heq]
      exact h.workCnt i
  . intro i
    by_cases heq : i = addWorkIdx s
    . subst heq
      rw [Kthreads.setThp_self]
      exact (h.nodup _).append (List.nodup_singleton engine) (by simpa using hnone _)
    . rw [Kthreads.setThp_ne s _ heq]
      exact h.nodup i
  . intro engine' i
    by_cases heq : i = addWorkIdx s
    . subst heq
      rw [Kthreads.setThp_self]
      dsimp only
      rw [List.mem_append, List.mem_singleton, h.mem_iff]
      by_cases heng : engine' = engine
      . rw [heng, Function.update_self]
        exact iff_of_true (.inr rfl) rfl
      . rw [Function.update_of_ne heng, or_iff_left heng]
        exact Iff.rfl
    . rw [Kthreads.setThp_ne s _ heq]
      by_cases heng : engine' = engine
      . rw [heng, Function.update_self]
        apply iff_of_false (hnone i)
        rintro ⟨⟩
        exact heq rfl
      . rw [Function.update_of_ne heng]
        exact h.mem_iff engine' i

theorem Counted.removeWork (h : Counted s) (engine : Nat)
    : Counted (xdmaThreadRemoveWork s engine) := by
  unfold xdmaThreadRemoveWork
  dsimp only
  cases hthp : s.cmplthp engine with
  | none =>
    refine ⟨h.workCnt, h.nodup, ?_⟩
    intro engine' i
    rw [h.mem_iff]
    dsimp only
    by_cases heng : engine' = engine
    . rw [heng, Function.update_self, hthp]
    . rw [Function.update_of_ne heng]
  | some idx =>
    have hmem : engine ∈ (s.thp idx).workList := (h.mem_iff engine idx).mpr hthp
    let s' : Kthreads := { s with cmplthp := Function.update s.cmplthp engine none }
    let thp : XdmaKthread :=
      { s.thp idx with
        workList := (s.thp idx).workList.erase engine
        workCnt := (s.thp idx).workCnt - 1 }
    change Counted (s'.setThp idx thp)
    constructor
    . intro i
      by_cases heq : i = idx
      . subst heq
        rw [Kthreads.setThp_self]
        dsimp only [thp]
        rw [List.length_erase_of_mem hmem, h.workCnt]
      . rw [Kthreads.setThp_ne s' thp heq]
        exact h.workCnt i
    . intro i
      by_cases heq : i = idx
      . subst heq
        rw [Kthreads.setThp_self]
        exact (h.nodup i).erase engine
      . rw [Kthreads.setThp_ne s' thp heq]
        exact h.nodup i
    . intro engine' i
      change engine' ∈ ((s'.setThp idx thp).thp i).workList
        ↔ Function.update s.cmplthp engine none engine' = some i
      by_cases heq : i = idx
      . subst heq
        rw [Kthreads.setThp_self]
        dsimp only [thp]
        rw [(h.nodup i).mem_erase_iff, h.mem_iff]
        by_cases heng : engine' = engine
        . rw [heng, Function.update_self]
          simp
        . rw [Function.update_of_ne heng]
          exact and_iff_right heng
      . rw [Kthreads.setThp_ne s' thp heq]
        by_cases heng : engine' = engine
        . rw [heng, Function.update_self]
          apply iff_of_false ?_ (by simp)
          intro hmem'
          have hsome := (h.mem_iff engine i).mp hmem'
          rw [hthp] at hsome
          cases hsome
          exact heq rfl
        . rw [Function.update_of_ne heng]
          exact h.mem_iff engine' i

theorem Kthreads.work_threadCnt {s' : Kthreads} {e : WorkEvent} (hstep : s.work e = some s')
    : s'.threadCnt = s.threadCnt := by
  cases e with
  | addWork engine =>
    unfold Kthreads.work at hstep
    dsimp only at hstep
    split at hstep
    . cases hstep
      rfl
    . cases hstep
  | removeWork engine =>
    cases hstep
    unfold xdmaThreadRemoveWork
    dsimp only
    split <;> rfl

theorem Counted.work {s' : Kthreads} {e : WorkEvent} (h : Counted s) (hstep : s.work e = some s')
    : Counted s' := by
  cases e with
  | addWork engine =>
    unfold Kthreads.work at hstep
    dsimp only at hstep
    split at hstep
    . rename_i hnew
      cases hstep
      exact h.addWork hnew
    . cases hstep
  | removeWork engine =>
    cases hstep
    exact h.removeWork engine

theorem LeastLoaded.iff {s' : Kthreads} {e : WorkEvent} (h : Counted s) (hpos : 0 < s.threadCnt)
    (hstep : s.work e = some s')
    : LeastLoaded s e s' ↔ Balanced s e := by
  unfold LeastLoaded
  rw [and_iff_left (h.work hstep)]
  cases e with
  | removeWork engine => exact iff_of_true (fun engine' heq => by cases heq) trivial
  | addWork engine =>
    obtain ⟨hidx, hleast⟩ := addWorkIdx_least_iff hpos
    have hcmplthp : s'.cmplthp engine = some (addWorkIdx s) := by
      unfold Kthreads.work at hstep
      dsimp only at hstep
      split at hstep
      . cases hstep
        exact Function.update_self engine _ s.cmplthp
      . cases hstep
    unfold Balanced
    dsimp only
    rw [← hleast]
    constructor
    . intro hall
      obtain ⟨idx, -, hsome, hmin⟩ := hall engine rfl
      rw [hcmplthp] at hsome
      cases hsome
      exact hmin
    . intro hmin engine' heq
      cases heq
      exact ⟨addWorkIdx s, hidx, hcmplthp, hmin⟩

end Work

section Idle

/-- There is no work yet. -/
structure Idle (s : Kthreads) : Prop where
  workCnt : ∀ i, (s.thp i).workCnt = 0
  workList : ∀ i, (s.thp i).workList = []
  cmplthp : ∀ engine, s.cmplthp engine = none

theorem Idle.counted {s : Kthreads} (h : Idle s)
    : Counted s where
  workCnt := by
    intro i
    rw [h.workCnt, h.workList]
    rfl
  nodup := by
    intro i
    rw [h.workList]
    exact List.nodup_nil
  mem_iff := by
    intro engine i
    rw [h.workList, h.cmplthp]
    simp

theorem Idle.setThp {s : Kthreads} (h : Idle s) (i : Nat) (thp : XdmaKthread)
    (hcnt : thp.workCnt = 0) (hlist : thp.workList = [])
    : Idle (s.setThp i thp) where
  workCnt := by
    intro j
    by_cases heq : j = i
    . subst heq
      rw [Kthreads.setThp_self]
      exact hcnt
    . rw [Kthreads.setThp_ne s _ heq]
      exact h.workCnt j
  workList := by
    intro j
    by_cases heq : j = i
    . subst heq
      rw [Kthreads.setThp_self]
      exact hlist
    . rw [Kthreads.setThp_ne s _ heq]
      exact h.workList j
  cmplthp := h.cmplthp

theorem Idle.threadsCreateLoop {s : Kthreads} (h : Idle s) (numThreads : Nat)
    (created : Nat → Bool) (cpus : List Nat) (i : Nat)
    : Idle (Xdma.threadsCreateLoop numThreads created cpus i s).1 := by
  induction cpus generalizing i s with
  | nil => exact h
  | cons cpu cpus ih =>
    unfold Xdma.threadsCreateLoop
    dsimp only
    have hset := h.setThp i { s.thp i with cpu := cpu, callbacks := true } (h.workCnt i)
      (h.workList i)
    generalize s.setThp i { s.thp i with cpu := cpu, callbacks := true } = m at hset
    have hstart : Idle (xdmaKthreadStart m i (created i)).1 := by
      unfold xdmaKthreadStart
      split
      . exact hset
      . dsimp only
        have hlist := hset.setThp i { m.thp i with workList := [] } (hset.workCnt i) rfl
        split
        . have htask := hlist.setThp i
            { (m.setThp i { m.thp i with workList := [] }).thp i with task := true }
            (hlist.workCnt i) (hlist.workList i)
          exact ⟨htask.workCnt, htask.workList, htask.cmplthp⟩
        . exact hlist
    generalize xdmaKthreadStart m i (created i) = r at hstart
    have hcnt : Idle { r.1 with threadCnt := r.1.threadCnt + 1 } :=
      ⟨hstart.workCnt, hstart.workList, hstart.cmplthp⟩
    split
    . exact ⟨hstart.workCnt, hstart.workList, hstart.cmplthp⟩
    . split
      . exact hcnt
      . exact ih hcnt (i + 1)

theorem Idle.create (k : CreateEnv) (numThreads : Nat)
    : Idle (xdmaThreadsCreate k numThreads .init).1 := by
  have hinit : Idle { Kthreads.init with csThreads := some numThreads, thp := fun _ => .zero } :=
    ⟨fun _ => rfl, fun _ => rfl, fun _ => rfl⟩
  unfold xdmaThreadsCreate
  rw [if_neg (by simp [Kthreads.init])]
  split
  . exact ⟨fun _ => rfl, fun _ => rfl, fun _ => rfl⟩
  . exact hinit.threadsCreateLoop numThreads k.created k.cpus 0

end Idle

/-- The counts are kept, and there is a thread to attach to. -/
structure Sharing (s : Kthreads) : Prop extends Counted s where
  threads : 0 < s.threadCnt

theorem Sharing.work {s s' : Kthreads} {e : WorkEvent} (h : Sharing s) (hstep : s.work e = some s')
    : Sharing s' where
  toCounted := h.toCounted.work hstep
  threads := by
    rw [Kthreads.work_threadCnt hstep]
    exact h.threads

instance (s : Kthreads) (e : WorkEvent) : Decidable (Balanced s e) := by
  unfold Balanced
  split <;> infer_instance

theorem Sharing.leastLoaded_iff {s : Kthreads} (h : Sharing s) (es : List WorkEvent)
    : Transition.StepsHold Kthreads.work LeastLoaded s es
        ↔ Transition.StepsHold Kthreads.work (fun s e _ => Balanced s e) s es := by
  apply Transition.stepsHold_iff_stepsHold ?_ ?_ h
  . intro s e s' h hbalanced hstep
    exact ⟨h.work hstep, (LeastLoaded.iff h.toCounted h.threads hstep).mpr hbalanced⟩
  . intro s e s' h hstep hleast
    exact (LeastLoaded.iff h.toCounted h.threads hstep).mp hleast

theorem Sharing.create (k : CreateEnv) (numThreads : Nat)
    (hpos : 0 < (xdmaThreadsCreate k numThreads .init).1.threadCnt)
    : Sharing (xdmaThreadsCreate k numThreads .init).1 where
  toCounted := (Idle.create k numThreads).counted
  threads := hpos

/--
From the creation of the threads on every engine is attached to a thread with the least work exactly if
at each of these moments the last thread with less than the first one has the least.
-/
theorem xdmaThreadAddWork_least_iff (k : CreateEnv) (numThreads : Nat) (es : List WorkEvent)
    (hpos : 0 < (xdmaThreadsCreate k numThreads .init).1.threadCnt)
    : let s := (xdmaThreadsCreate k numThreads .init).1
      Transition.StepsHold Kthreads.work LeastLoaded s es
        ↔ Transition.StepsHold Kthreads.work (fun s e _ => Balanced s e) s es :=
  (Sharing.create k numThreads hpos).leastLoaded_iff es

/-- Three threads, with three engines on the first one, one on the second and two on the third. -/
def unevenLoad : List WorkEvent :=
  [.addWork 0, .addWork 1, .addWork 2, .addWork 3, .addWork 4, .addWork 5, .addWork 6, .removeWork 0]

theorem xdmaThreadAddWork_not_least
    : ¬ ∀ (k : CreateEnv) (numThreads : Nat) (es : List WorkEvent),
        let s := (xdmaThreadsCreate k numThreads .init).1
        0 < s.threadCnt → Transition.StepsHold Kthreads.work LeastLoaded s es := by
  intro h
  let k : CreateEnv := ⟨true, [0, 1, 2], fun _ => true⟩
  have hpos : 0 < (xdmaThreadsCreate k 3 .init).1.threadCnt := by decide
  have hsteps := h k 3 (unevenLoad ++ [.addWork 7]) hpos
  rw [(Sharing.create k 3 hpos).leastLoaded_iff] at hsteps
  revert hsteps
  decide +kernel

theorem xdmaThreadAddWork_least_iff_two
    : let s := (xdmaThreadsCreate ⟨true, [0, 1, 2, 3], fun _ => true⟩ 2 .init).1
      let es := [.addWork 0, .addWork 1, .addWork 2, .removeWork 0, .addWork 0]
      Transition.StepsHold Kthreads.work LeastLoaded s es
        ↔ Transition.StepsHold Kthreads.work (fun s e _ => Balanced s e) s es :=
  xdmaThreadAddWork_least_iff _ 2 _ (by decide)

end Xdma
