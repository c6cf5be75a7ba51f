import Mathlib.Data.Option.Basic

/-!
This module contains runs of a system given by a partial step function: what holds at every step of
a run, what holds in every state it reaches, and the rules that derive either from an invariant.
-/

namespace Transition

variable {σ ε : Type*} (step : σ → ε → Option σ)

/--
Execute the events of a list in order, `none` as soon as one of them is not enabled.
-/
def run (s : σ) : List ε → Option σ
  | [] => some s
  | e :: es => (step s e).bind (fun s' => run s' es)

/--
`P` holds of every step that the run takes.
-/
def StepsHold (P : σ → ε → σ → Prop) (s : σ) : List ε → Prop
  | [] => True
  | e :: es => ∀ s', step s e = some s' → P s e s' ∧ StepsHold P s' es

/--
`Q` holds in every state that the run reaches, the first one included.
-/
def StatesHold (Q : σ → Prop) (s : σ) : List ε → Prop
  | [] => Q s
  | e :: es => Q s ∧ ∀ s', step s e = some s' → StatesHold Q s' es

/-- The number of steps of the run for which `f` holds. -/
def count (f : σ → ε → Bool) (s : σ) : List ε → Nat
  | [] => 0
  | e :: es =>
    (if f s e then 1 else 0) + match step s e with
      | none => 0
      | some s' => count f s' es

/-- A run checks a decidable property of its steps by executing them. -/
def decidableStepsHold {P : σ → ε → σ → Prop} [∀ s e s', Decidable (P s e s')]
    : (s : σ) → (es : List ε) → Decidable (StepsHold step P s es)
  | _, [] => .isTrue trivial
  | s, e :: es =>
    match h : step s e with
    | none => .isTrue (by intro s' hs'; rw [h] at hs'; cases hs')
    | some s' =>
      have : Decidable (StepsHold step P s' es) := decidableStepsHold s' es
      decidable_of_iff (P s e s' ∧ StepsHold step P s' es) (by simp [StepsHold, h])

instance {P : σ → ε → σ → Prop} [∀ s e s', Decidable (P s e s')] (s : σ) (es : List ε)
    : Decidable (StepsHold step P s es) := decidableStepsHold step s es

/-- A run checks a decidable property of its states by executing its steps. -/
def decidableStatesHold {Q : σ → Prop} [∀ s, Decidable (Q s)]
    : (s : σ) → (es : List ε) → Decidable (StatesHold step Q s es)
  | s, [] => inferInstanceAs (Decidable (Q s))
  | s, e :: es =>
    match h : step s e with
    | none => decidable_of_iff (Q s) (by simp [StatesHold, h])
    | some s' =>
      have : Decidable (StatesHold step Q s' es) := decidableStatesHold s' es
      decidable_of_iff (Q s ∧ StatesHold step Q s' es) (by simp [StatesHold, h])

instance {Q : σ → Prop} [∀ s, Decidable (Q s)] (s : σ) (es : List ε)
    : Decidable (StatesHold step Q s es) := decidableStatesHold step s es

variable {step}

theorem StepsHold.last {P : σ → ε → σ → Prop} {s m s' : σ} {es : List ε} {e : ε}
    (h : StepsHold step P s (es ++ [e])) (hrun : run step s es = some m)
    (hstep : step m e = some s')
    : P m e s' := by
  induction es generalizing s with
  | nil =>
    simp only [run, Option.some.injEq] at hrun
    subst hrun
    exact (h s' hstep).1
  | cons e' es ih =>
    simp only [run, Option.bind_eq_some_iff] at hrun
    rcases hrun with ⟨n, hn, hrun⟩
    exact ih (h n hn).2 hrun

theorem run_append (s : σ) (es es' : List ε)
    : run step s (es ++ es') = (run step s es).bind (fun m => run step m es') := by
  induction es generalizing s with
  | nil => rfl
  | cons e es ih =>
    show (step s e).bind (fun m => run step m (es ++ es'))
      = ((step s e).bind (fun m => run step m es)).bind _
    rw [Option.bind_assoc]
    exact Option.bind_congr (fun m _ => ih m)

/-- What the steps of two systems on the same event keep between them, their runs keep. -/
theorem run_related {τ : Type*} {step' : τ → ε → Option τ} {R : σ → τ → Prop}
    (hstep : ∀ s t e s' t', R s t → step s e = some s' → step' t e = some t' → R s' t')
    {s s' : σ} {t t' : τ} {es : List ε} (h : R s t) (hrun : run step s es = some s')
    (hrun' : run step' t es = some t')
    : R s' t' := by
  induction es generalizing s t with
  | nil =>
    simp only [run, Option.some.injEq] at hrun hrun'
    subst hrun hrun'
    exact h
  | cons e es ih =>
    simp only [run, Option.bind_eq_some_iff] at hrun hrun'
    obtain ⟨m, hm, hrun⟩ := hrun
    obtain ⟨m', hm', hrun'⟩ := hrun'
    exact ih (hstep s t e m m' h hm hm') hrun hrun'

/-- What holds of every event of a list holds of every step of its run. -/
theorem stepsHold_of_mem {C : ε → Prop} {s : σ} {es : List ε} (h : ∀ e ∈ es, C e)
    : StepsHold step (fun _ e _ => C e) s es := by
  induction es generalizing s with
  | nil => trivial
  | cons e es ih =>
    rw [List.forall_mem_cons] at h
    intro s' _
    exact ⟨h.1, ih h.2⟩

theorem StatesHold.head {Q : σ → Prop} {s : σ} {es : List ε} (h : StatesHold step Q s es)
    : Q s := by
  cases es with
  | nil => exact h
  | cons => exact h.1

theorem StatesHold.of_run {Q : σ → Prop} {s s' : σ} {es : List ε} (h : StatesHold step Q s es)
    (hrun : run step s es = some s')
    : Q s' := by
  induction es generalizing s with
  | nil =>
    simp only [run, Option.some.injEq] at hrun
    rw [← hrun]
    exact h
  | cons e es ih =>
    simp only [run, Option.bind_eq_some_iff] at hrun
    rcases hrun with ⟨m, hm, hrun⟩
    exact ih (h.2 m hm) hrun

/--
An invariant that every step allowed by `C` keeps, and under which such a step satisfies `P`, gives
`P` at every step of a run whose steps are all allowed.
-/
theorem stepsHold_of_invariant {Inv : σ → Prop} {C : σ → ε → Prop} {P : σ → ε → σ → Prop}
    (hstep : ∀ s e s', Inv s → C s e → step s e = some s' → Inv s' ∧ P s e s')
    {s : σ} {es : List ε} (hinv : Inv s) (hC : StepsHold step (fun s e _ => C s e) s es)
    : StepsHold step P s es := by
  induction es generalizing s with
  | nil => trivial
  | cons e es ih =>
    intro s' hs'
    rcases hC s' hs' with ⟨hc, hrest⟩
    rcases hstep s e s' hinv hc hs' with ⟨hinv', hp⟩
    exact ⟨hp, ih hinv' hrest⟩

/--
A property holds in every state of a run when it holds in the first one and after every step.
-/
theorem statesHold_iff {Q : σ → Prop} {s : σ} {es : List ε}
    : StatesHold step Q s es ↔ Q s ∧ StepsHold step (fun _ _ s' => Q s') s es := by
  induction es generalizing s with
  | nil => exact (and_iff_left trivial).symm
  | cons e es ih =>
    unfold StatesHold StepsHold
    apply and_congr_right
    intro _
    apply forall₂_congr
    intro s' _
    exact ih

/--
The same rule for a property of states.
-/
theorem statesHold_of_invariant {Inv Q : σ → Prop} {C : σ → ε → Prop}
    (hQ : ∀ s, Inv s → Q s)
    (hstep : ∀ s e s', Inv s → C s e → step s e = some s' → Inv s')
    {s : σ} {es : List ε} (hinv : Inv s) (hC : StepsHold step (fun s e _ => C s e) s es)
    : StatesHold step Q s es := by
  rw [statesHold_iff]
  refine ⟨hQ s hinv, stepsHold_of_invariant ?_ hinv hC⟩
  intro s e s' hinv hc hs'
  have hinv' := hstep s e s' hinv hc hs'
  exact ⟨hinv', hQ s' hinv'⟩

/--
An invariant that every step keeps, and under which every step satisfies `P`, gives `P` at every
step of a run.
-/
theorem stepsHold_of_inductive {Inv : σ → Prop} {P : σ → ε → σ → Prop}
    (hP : ∀ s e s', Inv s → step s e = some s' → P s e s')
    (hstep : ∀ s e s', Inv s → step s e = some s' → Inv s')
    {s : σ} {es : List ε} (hinv : Inv s)
    : StepsHold step P s es := by
  induction es generalizing s with
  | nil => trivial
  | cons e es ih =>
    intro s' hs'
    exact ⟨hP s e s' hinv hs', ih (hstep s e s' hinv hs')⟩

/--
An invariant that every step keeps gives what it says of a state in every state of a run.
-/
theorem statesHold_of_inductive {Inv Q : σ → Prop} (hQ : ∀ s, Inv s → Q s)
    (hstep : ∀ s e s', Inv s → step s e = some s' → Inv s')
    {s : σ} {es : List ε} (hinv : Inv s)
    : StatesHold step Q s es := by
  rw [statesHold_iff]
  refine ⟨hQ s hinv, stepsHold_of_inductive ?_ hstep hinv⟩
  intro s e s' hinv hs'
  exact hQ s' (hstep s e s' hinv hs')

/--
A run goes on as long as there are events when every event is enabled in a state of the invariant.
-/
theorem run_of_progress {Inv : σ → Prop}
    (hstep : ∀ s e, Inv s → ∃ s', step s e = some s' ∧ Inv s') {s : σ} (es : List ε) (hinv : Inv s)
    : ∃ s', run step s es = some s' ∧ Inv s' := by
  induction es generalizing s with
  | nil => exact ⟨s, rfl, hinv⟩
  | cons e es ih =>
    obtain ⟨m, hm, hinvm⟩ := hstep s e hinv
    obtain ⟨s', hs', hinv'⟩ := ih hinvm
    refine ⟨s', ?_, hinv'⟩
    simp only [run, hm, Option.bind_some, hs']

/--
An invariant that follows how often `f` held holds after the run of how often it held there.
-/
theorem count_of_inductive {Inv : Nat → σ → Prop} {f : σ → ε → Bool}
    (hstep : ∀ n s e s', Inv n s → step s e = some s' → Inv (n + if f s e then 1 else 0) s')
    {n : Nat} {s s' : σ} {es : List ε} (hinv : Inv n s) (hrun : run step s es = some s')
    : Inv (n + count step f s es) s' := by
  induction es generalizing n s with
  | nil =>
    simp only [run, Option.some.injEq] at hrun
    subst hrun
    exact hinv
  | cons e es ih =>
    simp only [run, Option.bind_eq_some_iff] at hrun
    rcases hrun with ⟨m, hm, hrun⟩
    have hrest := ih (hstep n s e m hinv hm) hrun
    simp only [count, hm]
    rw [← Nat.add_assoc]
    exact hrest

/--
When, from a state of the invariant, a step is good exactly if it is allowed, where an allowed step
keeps the invariant, all steps of a run are good exactly if all of them are allowed.
-/
theorem stepsHold_iff_stepsHold {Inv : σ → Prop} {P : σ → ε → σ → Prop} {C : σ → ε → Prop}
    (hstep : ∀ s e s', Inv s → C s e → step s e = some s' → Inv s' ∧ P s e s')
    (hbad : ∀ s e s', Inv s → step s e = some s' → P s e s' → C s e)
    {s : σ} {es : List ε} (hinv : Inv s)
    : StepsHold step P s es ↔ StepsHold step (fun s e _ => C s e) s es := by
  constructor
  . intro h
    induction es generalizing s with
    | nil => trivial
    | cons e es ih =>
      intro s' hs'
      have hc := hbad s e s' hinv hs' (h s' hs').1
      exact ⟨hc, ih (hstep s e s' hinv hc hs').1 (h s' hs').2⟩
  . intro h
    exact stepsHold_of_invariant hstep hinv h

/--
When, from a state of the invariant, a step reaches a good state exactly if it is allowed, a run
stays in good states exactly if all its steps are allowed.
-/
theorem statesHold_iff_stepsHold (Inv : σ → Prop) {Q : σ → Prop} {C : σ → ε → Prop}
    (hQ : ∀ s, Inv s → Q s)
    (hstep : ∀ s e s', Inv s → C s e → step s e = some s' → Inv s')
    (hbad : ∀ s e s', Inv s → step s e = some s' → Q s' → C s e)
    {s : σ} {es : List ε} (hinv : Inv s)
    : StatesHold step Q s es ↔ StepsHold step (fun s e _ => C s e) s es := by
  rw [statesHold_iff, and_iff_right (hQ s hinv)]
  refine stepsHold_iff_stepsHold ?_ hbad hinv
  intro s e s' hinv hc hs'
  have hinv' := hstep s e s' hinv hc hs'
  exact ⟨hinv', hQ s' hinv'⟩

end Transition
