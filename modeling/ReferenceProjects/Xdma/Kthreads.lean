import Mathlib.Data.List.Range
import ReferenceProjects.Lib.Run
import ReferenceProjects.Xdma.Impl.Thread

/-!
This module contains which threads are running when `xdma_threads_create()` returns, and how the engines
are shared out among them.
-/

namespace Xdma

/-- The threads that run are those of the first `thread_cnt` entries, which the array has. -/
structure Kthreads.Sound (s : Kthreads) : Prop where
  entries : s.threadCnt ≤ s.csThreads.getD 0
  running : s.running.Perm (List.range s.threadCnt)
  started : ∀ i < s.threadCnt, (s.thp i).callbacks = true ∧ (s.thp i).task = true

/-- Each of the threads was stopped once, and none runs any more. -/
structure StoppedOnce (s s' : Kthreads) : Prop where
  running : s'.running = []
  stops : s'.stops = (List.range s.threadCnt).reverse ++ s.stops

/--
A creation that fails leaves no thread running, one that succeeds has threads that can be stopped; and
stopping them stops each once.
-/
def ThreadsKept (s : Kthreads) (e : KthreadsEvent) (s' : Kthreads) : Prop :=
  match e with
  | .create k numThreads =>
    let rv := (xdmaThreadsCreate k numThreads s).2
    (rv < 0 → s'.running = [])
      ∧ (rv = 0 → s'.Sound ∧ ∀ ret, StoppedOnce s' (xdmaThreadsDestroy ret s'))
  | .destroy _ => StoppedOnce s s'

/-- How many threads a creation starts if none fails to start; it stops at 0 never. -/
def threadsWanted (numThreads cpus : Nat) : Nat :=
  if numThreads = 0 then cpus else min numThreads cpus

/--
The threads exist already, there is no memory for the array, there is no processor, the first thread does
not start, or at least one thread is asked for and all start.
-/
def StartsAllOrNone (s : Kthreads) (e : KthreadsEvent) : Prop :=
  match e with
  | .create k numThreads =>
    s.threadCnt ≠ 0 ∨ k.kzalloc = false ∨ k.cpus = [] ∨ k.created 0 = false
      ∨ 0 < numThreads ∧ ∀ i < min numThreads k.cpus.length, k.created i = true
  | .destroy _ => True

/-- The first `i` threads have been started. -/
structure Starting (numThreads i : Nat) (s : Kthreads) : Prop where
  csThreads : s.csThreads = some numThreads
  threadCnt : s.threadCnt = i
  running : s.running.Perm (List.range i)
  started : ∀ j < i, (s.thp j).callbacks = true ∧ (s.thp j).task = true
  rest : ∀ j ≥ i, (s.thp j).task = false

@[simp]
theorem Kthreads.setThp_self (s : Kthreads) (i : Nat) (thp : XdmaKthread)
    : (s.setThp i thp).thp i = thp := by
  simp [Kthreads.setThp]

@[simp]
theorem Kthreads.setThp_ne (s : Kthreads) {i j : Nat} (thp : XdmaKthread) (h : j ≠ i)
    : (s.setThp i thp).thp j = s.thp j := by
  simp [Kthreads.setThp, h]

@[simp]
theorem Kthreads.setThp_setThp (s : Kthreads) (i : Nat) (thp thp' : XdmaKthread)
    : (s.setThp i thp).setThp i thp' = s.setThp i thp' := by
  unfold Kthreads.setThp
  dsimp only
  rw [Function.update_idem]

/-- The state when the thread of entry `i` was started. -/
def Kthreads.startThp (s : Kthreads) (i cpu : Nat) : Kthreads :=
  { s.setThp i { s.thp i with cpu := cpu, callbacks := true, workList := [], task := true } with
    running := i :: s.running
    threadCnt := s.threadCnt + 1 }

theorem threadsCreateLoop_cons (numThreads : Nat) (created : Nat → Bool) (cpu : Nat)
    (cpus : List Nat) {i : Nat} {s : Kthreads} (htask : (s.thp i).task = false)
    : threadsCreateLoop numThreads created (cpu :: cpus) i s
        =
      if created i then
        if s.threadCnt + 1 = numThreads then
          (s.startThp i cpu, 0)
        else
          threadsCreateLoop numThreads created cpus (i + 1) (s.startThp i cpu)
      else
        let thp := { s.thp i with cpu := cpu, callbacks := true, workList := [] }
        ({ s.setThp i thp with csThreads := none, threadCnt := 0 }, -efault) := by
  have hneg : -efault < 0 := by decide
  conv_lhs => unfold threadsCreateLoop xdmaKthreadStart
  simp only [Kthreads.setThp_self, Kthreads.setThp_setThp, htask]
  cases created i with
  | false =>
    simp only [Bool.false_eq_true, ↓reduceIte, if_pos hneg]
  | true =>
    simp only [Bool.false_eq_true, ↓reduceIte, Int.lt_irrefl]
    rfl

section Create

variable {numThreads i : Nat} {s : Kthreads}

theorem Starting.startThp (h : Starting numThreads i s) (cpu : Nat)
    : Starting numThreads (i + 1) (s.startThp i cpu) where
  csThreads := h.csThreads
  threadCnt := congrArg Nat.succ h.threadCnt
  running := by
    rw [List.range_succ]
    exact (h.running.cons i).trans (List.perm_append_singleton i _).symm
  started := by
    intro j hj
    by_cases heq : j = i
    . subst heq
      dsimp only [Kthreads.startThp]
      rw [Kthreads.setThp_self]
      exact ⟨rfl, rfl⟩
    . dsimp only [Kthreads.startThp]
      rw [Kthreads.setThp_ne s _ heq]
      exact h.started j (by omega)
  rest := by
    intro j hj
    dsimp only [Kthreads.startThp]
    rw [Kthreads.setThp_ne s _ (by omega)]
    exact h.rest j (by omega)

/-- The loop starts as many threads as are wanted, or as many as start before one does not. -/
theorem threadsCreateLoop_spec (created : Nat → Bool) (cpus : List Nat) (h : Starting numThreads i s)
    (hi : numThreads = 0 ∨ i < numThreads)
    : let r := threadsCreateLoop numThreads created cpus i s
      let wanted := threadsWanted numThreads (i + cpus.length)
      r.2 = 0 ∧ Starting numThreads wanted r.1 ∧ (∀ j, i ≤ j → j < wanted → created j = true)
        ∨ ∃ m, i ≤ m ∧ m < wanted ∧ created m = false ∧ (∀ j, i ≤ j → j < m → created j = true)
          ∧ r.2 < 0 ∧ r.1.running.Perm (List.range m) ∧ r.1.csThreads = none
          ∧ r.1.threadCnt = 0 := by
  induction cpus generalizing i s with
  | nil =>
    left
    have hwanted : threadsWanted numThreads (i + 0) = i := by
      unfold threadsWanted
      split <;> omega
    dsimp only [List.length_nil, threadsCreateLoop]
    rw [hwanted]
    exact ⟨rfl, h, fun j hij hj => absurd hj (by omega)⟩
  | cons cpu cpus ih =>
    rw [threadsCreateLoop_cons numThreads created cpu cpus (h.rest i (Nat.le_refl i))]
    have hlen : i + (cpu :: cpus).length = i + 1 + cpus.length := by
      rw [List.length_cons]
      omega
    rw [hlen]
    cases hcreated : created i with
    | false =>
      have hneg : -efault < 0 := by decide
      right
      rw [if_neg (by simp)]
      refine ⟨i, Nat.le_refl i, ?_, hcreated, ?_, hneg, h.running, rfl, rfl⟩
      . unfold threadsWanted
        split <;> omega
      . exact fun j hij hj => absurd hj (by omega)
    | true =>
      have hnext := h.startThp cpu
      have hcnt := h.threadCnt
      rw [if_pos rfl]
      by_cases hlast : s.threadCnt + 1 = numThreads
      . left
        have hwanted : threadsWanted numThreads (i + 1 + cpus.length) = i + 1 := by
          unfold threadsWanted
          split <;> omega
        rw [if_pos hlast, hwanted]
        refine ⟨rfl, hnext, ?_⟩
        intro j hij hj
        have heq : j = i := by omega
        rw [heq, hcreated]
      . rw [if_neg hlast]
        -- this thread and those that started after it
        have hfirst : ∀ m, (∀ j, i + 1 ≤ j → j < m → created j = true)
            → ∀ j, i ≤ j → j < m → created j = true := by
          intro m hothers j hij hj
          by_cases heq : j = i
          . rw [heq, hcreated]
          . exact hothers j (by omega) hj
        rcases ih hnext (by omega) with ⟨hrv, hall, hothers⟩ | ⟨m, him, hm, hfail, hothers, hm'⟩
        . exact .inl ⟨hrv, hall, hfirst _ hothers⟩
        . exact .inr ⟨m, by omega, hm, hfail, hfirst m hothers, hm'⟩

theorem Kthreads.Sound.running_nil (h : s.Sound) (hcnt : s.threadCnt = 0)
    : s.running = [] := by
  have hperm := h.running
  rw [hcnt] at hperm
  exact hperm.eq_nil

theorem Kthreads.Sound.starting (h : s.Sound) (hcnt : s.threadCnt = 0)
    : Starting numThreads 0 { s with csThreads := some numThreads, thp := fun _ => .zero } where
  csThreads := rfl
  threadCnt := hcnt
  running := by rw [h.running_nil hcnt]; exact List.Perm.refl []
  started := fun j hj => absurd hj (Nat.not_lt_zero j)
  rest := fun _ _ => rfl

theorem Starting.sound (h : Starting numThreads i s) (hi : i ≤ numThreads)
    : s.Sound where
  entries := by
    rw [h.csThreads, h.threadCnt]
    exact hi
  running := by
    rw [h.threadCnt]
    exact h.running
  started := by
    rw [h.threadCnt]
    exact h.started

end Create

section Destroy

variable {s : Kthreads}

theorem xdmaKthreadStop_task {i : Nat} (rv : Int) (htask : (s.thp i).task = true)
    : (xdmaKthreadStop s i rv).running = s.running.erase i
      ∧ (xdmaKthreadStop s i rv).stops = i :: s.stops
      ∧ ∀ j, j ≠ i → (xdmaKthreadStop s i rv).thp j = s.thp j := by
  unfold xdmaKthreadStop
  rw [htask, if_neg (by simp)]
  dsimp only
  split
  . exact ⟨rfl, rfl, fun j hj => Kthreads.setThp_ne s _ hj⟩
  . refine ⟨rfl, rfl, ?_⟩
    intro j hj
    rw [Kthreads.setThp_ne _ _ hj]
    exact Kthreads.setThp_ne s _ hj

theorem threadsDestroyLoop_spec (rv : Nat → Int) (n i : Nat)
    (hrunning : s.running.Perm (List.range' i n))
    (hstarted : ∀ j, i ≤ j → j < i + n → (s.thp j).callbacks = true ∧ (s.thp j).task = true)
    : let s' := threadsDestroyLoop rv n i s
      s'.running = [] ∧ s'.stops = (List.range' i n).reverse ++ s.stops := by
  induction n generalizing i s with
  | zero => exact ⟨hrunning.eq_nil, rfl⟩
  | succ n ih =>
    obtain ⟨hcallbacks, htask⟩ := hstarted i (Nat.le_refl i) (by omega)
    unfold threadsDestroyLoop
    rw [hcallbacks, if_pos rfl]
    obtain ⟨hrun, hstops, hothers⟩ := xdmaKthreadStop_task (rv i) htask
    have herase : (xdmaKthreadStop s i (rv i)).running.Perm (List.range' (i + 1) n) := by
      have herase := hrunning.erase i
      rw [List.range'_succ, List.erase_cons_head] at herase
      rw [hrun]
      exact herase
    have hrest := ih (i + 1) herase (by
      intro j hij hj
      rw [hothers j (by omega)]
      exact hstarted j (by omega) (by omega))
    refine ⟨hrest.1, ?_⟩
    rw [hrest.2, hstops, List.range'_succ, List.reverse_cons, List.append_assoc]
    rfl

theorem Kthreads.Sound.destroy (h : s.Sound) (rv : Nat → Int)
    : StoppedOnce s (xdmaThreadsDestroy rv s) := by
  unfold xdmaThreadsDestroy
  by_cases hcnt : s.threadCnt = 0
  . rw [if_pos hcnt]
    refine ⟨h.running_nil hcnt, ?_⟩
    rw [hcnt]
    rfl
  . rw [if_neg hcnt]
    have hrunning := h.running
    rw [List.range_eq_range'] at hrunning
    have hloop := threadsDestroyLoop_spec rv s.threadCnt 0 hrunning
      (fun j _ hj => h.started j (by omega))
    refine ⟨hloop.1, ?_⟩
    rw [List.range_eq_range']
    exact hloop.2

end Destroy

section Run

variable {s : Kthreads}

theorem Kthreads.Sound.of_none (hcnt : s.threadCnt = 0) (hrunning : s.running = [])
    : s.Sound where
  entries := by omega
  running := by
    rw [hcnt, hrunning]
    exact List.Perm.refl []
  started := by
    intro i hi
    omega

theorem ThreadsKept.create_zero_iff (k : CreateEnv) (numThreads : Nat)
    (hrv : (xdmaThreadsCreate k numThreads s).2 = 0)
    : ThreadsKept s (.create k numThreads) (xdmaThreadsCreate k numThreads s).1
        ↔ (xdmaThreadsCreate k numThreads s).1.Sound := by
  constructor
  . intro h
    exact (h.2 hrv).1
  . intro hsound
    exact ⟨fun hneg => absurd hneg (by omega), fun _ => ⟨hsound, hsound.destroy⟩⟩

theorem ThreadsKept.create_neg_iff (k : CreateEnv) (numThreads : Nat)
    (hrv : (xdmaThreadsCreate k numThreads s).2 < 0)
    : ThreadsKept s (.create k numThreads) (xdmaThreadsCreate k numThreads s).1
        ↔ (xdmaThreadsCreate k numThreads s).1.running = [] := by
  constructor
  . intro h
    exact h.1 hrv
  . intro hrunning
    exact ⟨fun _ => hrunning, fun hzero => absurd hzero (by omega)⟩

/-- The creation of threads where there are none, with memory for the array. -/
theorem ThreadsKept.create_loop_iff (h : s.Sound) (k : CreateEnv) (numThreads : Nat)
    (hcnt : s.threadCnt = 0) (hkzalloc : k.kzalloc = true)
    : ThreadsKept s (.create k numThreads) (xdmaThreadsCreate k numThreads s).1
        ↔ k.cpus = [] ∨ k.created 0 = false
          ∨ 0 < numThreads ∧ ∀ i < min numThreads k.cpus.length, k.created i = true := by
  have hloop : xdmaThreadsCreate k numThreads s
      = threadsCreateLoop numThreads k.created k.cpus 0
          { s with csThreads := some numThreads, thp := fun _ => .zero } := by
    unfold xdmaThreadsCreate
    rw [if_neg (not_not.mpr hcnt), hkzalloc, if_neg (by simp)]
  have hspec := threadsCreateLoop_spec k.created k.cpus (h.starting hcnt : Starting numThreads 0 _)
    (by omega)
  rw [Nat.zero_add] at hspec
  dsimp only at hspec
  rw [← hloop] at hspec
  rcases hspec with ⟨hrv, hall, hcreated⟩ | ⟨m, -, hm, hfail, hothers, hrv, hrunning, -, -⟩
  . rw [ThreadsKept.create_zero_iff k numThreads hrv]
    by_cases hzero : numThreads = 0
    . -- the loop never meets the number of threads and runs out of processors
      have hwanted : threadsWanted numThreads k.cpus.length = k.cpus.length := if_pos hzero
      rw [hwanted] at hall hcreated
      constructor
      . intro hsound
        have hentries := hsound.entries
        rw [hall.csThreads, hall.threadCnt, hzero, Option.getD_some] at hentries
        exact .inl (List.length_eq_zero_iff.mp (by omega))
      . intro hcond
        apply hall.sound
        rcases hcond with hnil | hfirst | hpos
        . rw [hnil]
          exact Nat.zero_le _
        . by_contra hlen
          have htrue := hcreated 0 (Nat.le_refl 0) (by omega)
          rw [hfirst] at htrue
          cases htrue
        . omega
    . have hwanted : threadsWanted numThreads k.cpus.length = min numThreads k.cpus.length :=
        if_neg hzero
      rw [hwanted] at hall hcreated
      apply iff_of_true (hall.sound (Nat.min_le_left _ _))
      exact .inr (.inr ⟨by omega, fun i hi => hcreated i (Nat.zero_le i) hi⟩)
  . rw [ThreadsKept.create_neg_iff k numThreads hrv]
    by_cases hzero : m = 0
    . subst hzero
      exact iff_of_true hrunning.eq_nil (.inr (.inl hfail))
    . apply iff_of_false
      . intro hnil
        rw [hnil] at hrunning
        have hlen := hrunning.length_eq
        rw [List.length_nil, List.length_range] at hlen
        omega
      . have hfirst := hothers 0 (Nat.le_refl 0) (by omega)
        have hwanted : m < k.cpus.length ∧ (0 < numThreads → m < numThreads) := by
          unfold threadsWanted at hm
          split at hm <;> omega
        rintro (hnil | hfalse | ⟨hpos, hstarted⟩)
        . rw [hnil, List.length_nil] at hwanted
          omega
        . rw [hfirst] at hfalse
          cases hfalse
        . have htrue := hstarted m (by omega)
          rw [hfail] at htrue
          cases htrue

theorem ThreadsKept.create_iff (h : s.Sound) (k : CreateEnv) (numThreads : Nat)
    : ThreadsKept s (.create k numThreads) (xdmaThreadsCreate k numThreads s).1
        ↔ StartsAllOrNone s (.create k numThreads) := by
  unfold StartsAllOrNone
  dsimp only
  by_cases hcnt : s.threadCnt = 0
  . rw [or_iff_right (not_not.mpr hcnt)]
    cases hkzalloc : k.kzalloc with
    | false =>
      apply iff_of_true ?_ (.inl rfl)
      have hcreate : xdmaThreadsCreate k numThreads s
          = ({ s with csThreads := none }, -enomem) := by
        unfold xdmaThreadsCreate
        rw [if_neg (not_not.mpr hcnt), hkzalloc]
        rfl
      have hneg : -enomem < 0 := by decide
      rw [ThreadsKept.create_neg_iff k numThreads (by rw [hcreate]; exact hneg), hcreate]
      exact h.running_nil hcnt
    | true =>
      rw [or_iff_right (by simp)]
      exact ThreadsKept.create_loop_iff h k numThreads hcnt hkzalloc
  . have hcreate : xdmaThreadsCreate k numThreads s = (s, 0) := by
      unfold xdmaThreadsCreate
      rw [if_pos hcnt]
    apply iff_of_true ?_ (.inl hcnt)
    rw [ThreadsKept.create_zero_iff k numThreads (by rw [hcreate]), hcreate]
    exact h

theorem xdmaThreadsCreate_rv (h : s.Sound) (k : CreateEnv) (numThreads : Nat)
    : let r := xdmaThreadsCreate k numThreads s
      r.2 = 0 ∨ r.2 < 0 ∧ r.1.threadCnt = 0 := by
  unfold xdmaThreadsCreate
  by_cases hcnt : s.threadCnt = 0
  . rw [if_neg (not_not.mpr hcnt)]
    split
    . have hneg : -enomem < 0 := by decide
      exact .inr ⟨hneg, hcnt⟩
    . rcases threadsCreateLoop_spec k.created k.cpus (h.starting hcnt : Starting numThreads 0 _)
        (by omega) with ⟨hrv, -, -⟩ | ⟨m, -, -, -, -, hrv, -, -, hzero⟩
      . exact .inl hrv
      . exact .inr ⟨hrv, hzero⟩
  . rw [if_pos hcnt]
    exact .inl rfl

theorem ThreadsKept.sound {s' : Kthreads} {e : KthreadsEvent} (h : s.Sound)
    (hstep : s.step e = some s') (hkept : ThreadsKept s e s')
    : s'.Sound := by
  cases e with
  | create k numThreads =>
    cases hstep
    rcases xdmaThreadsCreate_rv h k numThreads with hrv | ⟨hrv, hcnt⟩
    . exact (hkept.2 hrv).1
    . exact .of_none hcnt (hkept.1 hrv)
  | destroy rv =>
    cases hstep
    apply Kthreads.Sound.of_none ?_ hkept.running
    unfold xdmaThreadsDestroy
    split
    . assumption
    . rfl

theorem ThreadsKept.iff {s' : Kthreads} {e : KthreadsEvent} (h : s.Sound)
    (hstep : s.step e = some s')
    : ThreadsKept s e s' ↔ StartsAllOrNone s e := by
  cases e with
  | create k numThreads =>
    cases hstep
    exact ThreadsKept.create_iff h k numThreads
  | destroy rv =>
    cases hstep
    exact iff_of_true (h.destroy rv) trivial

/--
Over every life of the driver no thread is lost exactly if each creation of threads starts all that it is
asked for, at least one, or none.
-/
theorem xdmaThreads_kept_iff (es : List KthreadsEvent)
    : Transition.StepsHold Kthreads.step ThreadsKept Kthreads.init es
        ↔ Transition.StepsHold Kthreads.step (fun s e _ => StartsAllOrNone s e) Kthreads.init es := by
  have hinit : Kthreads.init.Sound := .of_none rfl rfl
  apply Transition.stepsHold_iff_stepsHold ?_ ?_ hinit
  . intro s e s' h hcond hstep
    have hkept := (ThreadsKept.iff h hstep).mpr hcond
    exact ⟨hkept.sound h hstep, hkept⟩
  . intro s e s' h hstep hkept
    exact (ThreadsKept.iff h hstep).mp hkept

end Run

/-- Two processors, of which the second one gets no thread. -/
theorem xdmaThreadsCreate_not_kept
    : ¬ ∀ es, Transition.StepsHold Kthreads.step ThreadsKept Kthreads.init es := by
  intro h
  have hkept := (h [.create ⟨true, [0, 1], fun i => i = 0⟩ 2] _ rfl).1
  have hrunning := hkept.1 (by decide)
  cases hrunning

end Xdma
