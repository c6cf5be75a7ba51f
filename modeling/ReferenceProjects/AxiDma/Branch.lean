import Mathlib.Tactic.Cases
import ReferenceProjects.AxiDma.Impl
import ReferenceProjects.Lib.Run

/-!
This module contains which branch the main loop takes after the transfers of an iteration.
-/

namespace AxiDma

/-- The error bit is set. -/
def Status.HasError (w : Status) : Prop := w.word &&& irqErrorMask ≠ 0

instance (w : Status) : Decidable w.HasError := inferInstanceAs (Decidable (_ ≠ _))

/-- A branch is taken only if it fits the status words of the iteration. -/
def BranchFits (s : Demo) (e : Event) (s' : Demo) : Prop :=
  match e with
  | .main =>
    (s'.pc = .success → ∀ w ∈ s.statuses, ¬ w.HasError)
      ∧ (s'.pc = .error → ∃ w ∈ s.statuses, w.HasError)
  | _ => True

/-- The error bit is clear in all status words that came in before `main()` reads `rx_error`. -/
def ErrorFree (s : Demo) (e : Event) : Prop :=
  match e with
  | .main => s.pc = .testRx → ∀ w ∈ s.statuses, ¬ w.HasError
  | _ => True

theorem not_intrError (status : BitVec 32)
    : ¬ IntrError status := by
  rintro ⟨-, herror⟩
  have hbit := congrArg (fun x : BitVec 32 => x.getLsbD 0) herror
  simp [irqErrorMask] at hbit

/-- Neither handler has reported an error. -/
def Quiet (s : Demo) : Prop := s.txError = false ∧ s.rxError = false

theorem quiet_init
    : Quiet Demo.init := ⟨rfl, rfl⟩

theorem Quiet.step {s s' : Demo} {e : Event} (h : Quiet s) (hstep : s.step e = some s')
    : Quiet s' := by
  cases e with
  | inbyte byte =>
    simp only [Demo.step] at hstep
    split at hstep
    . cases hstep
      unfold Demo.inbyte
      simp only
      split <;> apply h
    . contradiction
  | main =>
    simp only [Demo.step, Demo.main] at hstep
    split at hstep
    . contradiction
    all_goals
      cases hstep
      apply h
  | txIntr status resetIsDone =>
    cases hstep
    simp only [txIntrHandler, not_intrError, ↓reduceIte]
    apply h
  | rxIntr status resetIsDone =>
    cases hstep
    simp only [rxIntrHandler, not_intrError, ↓reduceIte]
    apply h

theorem Quiet.main_pc {s s' : Demo} (h : Quiet s) (hstep : s.main = some s')
    : s'.pc ≠ .error ∧ (s'.pc = .success ↔ s.pc = .testRx) := by
  cases hpc : s.pc with
  | inbyte => simp [Demo.main, hpc] at hstep
  | waitTx | waitRx =>
    -- `main()` goes on or around the inner loop once more
    simp only [Demo.main, hpc, Option.some.injEq] at hstep
    subst hstep
    constructor
    . simp only
      split <;> simp
    . simp only
      split <;> simp
  | testTx | testRx =>
    simp only [Demo.main, hpc, h.1, h.2, Bool.false_eq_true, ↓reduceIte, Option.some.injEq] at hstep
    subst hstep
    simp
  | fill | clearTx | clearRx | dmaToDev | devToDma | error | success =>
    simp only [Demo.main, hpc, Option.some.injEq] at hstep
    subst hstep
    simp

theorem Quiet.fits_iff {s s' : Demo} {e : Event} (h : Quiet s) (hstep : s.step e = some s')
    : BranchFits s e s' ↔ ErrorFree s e := by
  cases e with
  | main =>
    obtain ⟨herror, hsuccess⟩ := h.main_pc hstep
    simp only [BranchFits, ErrorFree, herror, false_implies, and_true, hsuccess]
  | inbyte byte | txIntr status resetIsDone | rxIntr status resetIsDone => exact Iff.rfl

/--
In a run the branches fit the status words exactly if no error bit is set in those that come in before
the branch of their iteration: the code takes the branch for success in any case.
-/
theorem branchFits_iff (es : List Event)
    : Transition.StepsHold Demo.step BranchFits Demo.init es
        ↔ Transition.StepsHold Demo.step (fun s e _ => ErrorFree s e) Demo.init es := by
  have hkeep : ∀ s e s', Quiet s → ErrorFree s e → s.step e = some s' → Quiet s' ∧ BranchFits s e s' := by
    intro s e s' h hfree hstep
    exact ⟨h.step hstep, (h.fits_iff hstep).mpr hfree⟩
  have hbad : ∀ s e s', Quiet s → s.step e = some s' → BranchFits s e s' → ErrorFree s e := by
    intro s e s' h hstep hfits
    apply (h.fits_iff hstep).mp hfits
  exact Transition.stepsHold_iff_stepsHold hkeep hbad quiet_init

instance (s : Demo) (e : Event) (s' : Demo) : Decidable (BranchFits s e s') :=
  match e with
  | .main => inferInstanceAs (Decidable (_ ∧ _))
  | .inbyte _ | .txIntr _ _ | .rxIntr _ _ => .isTrue trivial

/-- The coefficient 1, and a transmission that ends with an error. -/
def failedTransfer : List Event :=
  [.inbyte 0x31, .main, .main, .main, .main, .main, .txIntr 0x4000 (fun _ => true),
    .rxIntr 0x1000 (fun _ => true), .main, .main, .main, .main]

theorem not_branchFits_failed
    : ¬ Transition.StepsHold Demo.step BranchFits Demo.init failedTransfer
        ∧ (Transition.run Demo.step Demo.init failedTransfer).map Demo.pc = some .success := by
  decide

end AxiDma
