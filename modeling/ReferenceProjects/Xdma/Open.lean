import ReferenceProjects.Lib.Run
import ReferenceProjects.Xdma.Impl.Open

/-!
This module contains when no two files have the device node of a C2H stream open: exactly as long as no file
passes the test of `device_open` while another one is between that test and the store.
-/

namespace Xdma

open Transition

/-- No two files have the node of a C2H stream open, and `eop_flush` is that of the file that has it open. -/
structure SgdmaNode.Sole (s : SgdmaNode) : Prop where
  one : ∀ f g trunc trunc', s.files f = .opened trunc → s.files g = .opened trunc' → f = g
  eopFlush : ∀ f trunc, s.files f = .opened trunc → s.eopFlush = trunc

def OpenEvent.IsOpen : OpenEvent → Prop
  | .open _ _ => True
  | _ => False

/-- As long as no further file is opened there is never more than one. -/
def SgdmaNode.Safe (s : SgdmaNode) : Prop :=
  s.exclusive = true → ∀ es, (∀ e ∈ es, ¬ e.IsOpen) → StatesHold SgdmaNode.step SgdmaNode.Sole s es

/-- A file that passes the test does so while no other one is between the test and the store. -/
def SgdmaNode.Alone (s : SgdmaNode) : OpenEvent → Prop
  | .open _ _ => s.exclusive = true → s.deviceOpen = false → ∀ g trunc, s.files g ≠ .tested trunc
  | _ => True

/-- Of a C2H stream, at most one file is past the test. -/
structure SgdmaNode.Owned (s : SgdmaNode) : Prop where
  one : ∀ f g, s.files f ≠ .closed → s.files g ≠ .closed → f = g
  deviceOpen : ∀ f trunc, s.files f = .claimed trunc ∨ s.files f = .opened trunc → s.deviceOpen = true
  eopFlush : ∀ f trunc, s.files f = .opened trunc → s.eopFlush = trunc

section Step

variable {s s' : SgdmaNode}

@[simp]
theorem files_setFile (s : SgdmaNode) (f : Nat) (pc : OpenPc)
    : (s.setFile f pc).files = Function.update s.files f pc := rfl

theorem SgdmaNode.Owned.sole (h : s.Owned)
    : s.Sole := by
  refine ⟨?_, h.eopFlush⟩
  intro f g trunc trunc' hf hg
  exact h.one f g (by simp [hf]) (by simp [hg])

/-- A step sets one file, which becomes the one that is past the test. -/
theorem SgdmaNode.Owned.set {f : Nat} {pc : OpenPc} (hfiles : s'.files = Function.update s.files f pc)
    (hothers : ∀ g ≠ f, s.files g = .closed)
    (hopen : ∀ trunc, pc = .claimed trunc ∨ pc = .opened trunc → s'.deviceOpen = true)
    (hflush : ∀ trunc, pc = .opened trunc → s'.eopFlush = trunc)
    : s'.Owned := by
  have hclosed (g : Nat) (hg : g ≠ f) : s'.files g = .closed := by
    rw [hfiles, Function.update_of_ne hg]
    exact hothers g hg
  have hself : s'.files f = pc := by rw [hfiles, Function.update_self]
  have hf (g : Nat) (hg : s'.files g ≠ .closed) : g = f := by
    by_contra hne
    exact hg (hclosed g hne)
  refine ⟨fun g g' hg hg' => (hf g hg).trans (hf g' hg').symm, ?_, ?_⟩
  . intro g trunc hg
    obtain rfl := hf g (by rcases hg with hg | hg <;> simp [hg])
    rw [hself] at hg
    exact hopen trunc hg
  . intro g trunc hg
    obtain rfl := hf g (by simp [hg])
    rw [hself] at hg
    exact hflush trunc hg

theorem SgdmaNode.Owned.others (h : s.Owned) {f : Nat} (hf : s.files f ≠ .closed)
    : ∀ g ≠ f, s.files g = .closed := by
  intro g hne
  by_contra hg
  exact hne (h.one g f hg hf)

/-- What a step does. -/
inductive SgdmaNode.Change (s : SgdmaNode) : OpenEvent → SgdmaNode → Prop where
  | refused {f trunc} (opened : s.deviceOpen = true) : Change s (.open f trunc) s
  | tested {f trunc} (file : s.files f = .closed) (exclusive : s.exclusive = true)
      (free : s.deviceOpen = false) : Change s (.open f trunc) (s.setFile f (.tested trunc))
  | shared {f trunc} (file : s.files f = .closed) (exclusive : s.exclusive = false)
      : Change s (.open f trunc) (s.setFile f (.opened trunc))
  | claimed {f trunc} (file : s.files f = .tested trunc)
      : Change s (.claim f) { s.setFile f (.claimed trunc) with deviceOpen := true }
  | flushed {f trunc} (file : s.files f = .claimed trunc)
      : Change s (.flush f) { s.setFile f (.opened trunc) with eopFlush := trunc }
  | left {f xcdevCheck trunc} (file : s.files f = .opened trunc)
      : Change s (.close f xcdevCheck) (s.setFile f .closed)
  | closed {f xcdevCheck trunc} (file : s.files f = .opened trunc)
      : Change s (.close f xcdevCheck) { s.setFile f .closed with deviceOpen := false }

theorem SgdmaNode.step_change {e : OpenEvent} (hstep : s.step e = some s')
    : s.Change e s' := by
  cases e with
  | «open» f trunc =>
    unfold SgdmaNode.step at hstep
    dsimp only at hstep
    split at hstep
    . next hfile =>
      split at hstep
      . next hexclusive =>
        split at hstep
        . next hopen =>
          obtain rfl := Option.some.inj hstep
          exact .refused hopen
        . next hfree =>
          obtain rfl := Option.some.inj hstep
          exact .tested hfile hexclusive (by simpa using hfree)
      . next hshared =>
        obtain rfl := Option.some.inj hstep
        exact .shared hfile (by simpa using hshared)
    . contradiction
  | claim f =>
    unfold SgdmaNode.step at hstep
    dsimp only at hstep
    split at hstep
    . next trunc hfile =>
      obtain rfl := Option.some.inj hstep
      exact .claimed hfile
    . contradiction
  | flush f =>
    unfold SgdmaNode.step at hstep
    dsimp only at hstep
    split at hstep
    . next trunc hfile =>
      obtain rfl := Option.some.inj hstep
      exact .flushed hfile
    . contradiction
  | close f xcdevCheck =>
    unfold SgdmaNode.step at hstep
    dsimp only at hstep
    split at hstep
    . next trunc hfile =>
      split at hstep
      . obtain rfl := Option.some.inj hstep
        exact .left hfile
      . split at hstep
        . obtain rfl := Option.some.inj hstep
          exact .closed hfile
        . obtain rfl := Option.some.inj hstep
          exact .left hfile
    . contradiction

theorem SgdmaNode.Change.exclusive {e : OpenEvent} (h : s.Change e s')
    : s'.exclusive = s.exclusive := by
  cases h <;> rfl

theorem SgdmaNode.Owned.change {e : OpenEvent} (h : s.Owned) (hexclusive : s.exclusive = true)
    (he : s.Alone e) (hchange : s.Change e s')
    : s'.Owned := by
  cases hchange with
  | refused => exact h
  | @tested f trunc hfile _ hfree =>
    refine .set rfl ?_ (by simp) (by simp)
    intro g _
    -- who is past the test has not stored yet, and there is nobody like that
    cases hg : s.files g with
    | closed => rfl
    | tested trunc' => exact absurd hg (he hexclusive hfree g trunc')
    | claimed trunc' =>
      have hopen := h.deviceOpen g trunc' (.inl hg)
      rw [hfree] at hopen
      contradiction
    | opened trunc' =>
      have hopen := h.deviceOpen g trunc' (.inr hg)
      rw [hfree] at hopen
      contradiction
  | shared _ hshared =>
    rw [hexclusive] at hshared
    contradiction
  | claimed hfile => exact .set rfl (h.others (by simp [hfile])) (fun _ _ => rfl) (by simp)
  | flushed hfile =>
    refine .set rfl (h.others (by simp [hfile])) ?_ ?_
    . intro _ _
      exact h.deviceOpen _ _ (.inl hfile)
    . intro trunc' heq
      exact OpenPc.opened.inj heq
  | left hfile => exact .set rfl (h.others (by simp [hfile])) (by simp) (by simp)
  | closed hfile => exact .set rfl (h.others (by simp [hfile])) (by simp) (by simp)

theorem SgdmaNode.Alone.of_not_isOpen {e : OpenEvent} (h : ¬ e.IsOpen) (s : SgdmaNode)
    : s.Alone e := by
  cases e with
  | «open» => exact absurd trivial h
  | _ => trivial

theorem SgdmaNode.Owned.safe (h : s.exclusive = true → s.Owned)
    : s.Safe := by
  intro hexclusive es hes
  refine @statesHold_of_invariant _ _ _ (fun s => s.exclusive = true ∧ s.Owned) _ (fun _ e => ¬ e.IsOpen)
    (fun _ h => h.2.sole) ?_ _ _ ⟨hexclusive, h hexclusive⟩ (stepsHold_of_mem hes)
  intro s e s' h he hstep
  have hchange := SgdmaNode.step_change hstep
  exact ⟨hchange.exclusive.trans h.1, h.2.change h.1 (.of_not_isOpen he s) hchange⟩

/-- Two files that are both between the test and the store both get the node open. -/
theorem SgdmaNode.not_safe {f g : Nat} {trunc trunc' : Bool} (hexclusive : s.exclusive = true) (hne : f ≠ g)
    (hf : s.files f = .tested trunc) (hg : s.files g = .tested trunc')
    : ¬ s.Safe := by
  intro hsafe
  have hruns := hsafe hexclusive [.claim f, .flush f, .claim g, .flush g] (by simp [OpenEvent.IsOpen])
  have hrun : run SgdmaNode.step s [.claim f, .flush f, .claim g, .flush g]
      = some { (s.setFile f (.opened trunc)).setFile g (.opened trunc') with
          deviceOpen := true, eopFlush := trunc' } := by
    simp [run, SgdmaNode.step, SgdmaNode.setFile, hf, hg, hne.symm]
  have hsole := hruns.of_run hrun
  apply hne
  exact hsole.one f g trunc trunc' (by simp [hne]) (by simp)

theorem SgdmaNode.Change.alone {e : OpenEvent} (hchange : s.Change e s') (hsafe : s'.Safe)
    : s.Alone e := by
  cases hchange with
  | refused hopen =>
    intro _ hfree
    rw [hopen] at hfree
    contradiction
  | @tested f trunc hfile hexclusive _ =>
    intro _ _ g trunc' hg
    have hne : f ≠ g := by
      intro heq
      rw [heq, hg] at hfile
      contradiction
    have hf : (s.setFile f (.tested trunc)).files f = .tested trunc := Function.update_self f _ s.files
    have hg' : (s.setFile f (.tested trunc)).files g = .tested trunc' :=
      (Function.update_of_ne hne.symm _ _).trans hg
    exact SgdmaNode.not_safe (s := s.setFile f (.tested trunc)) hexclusive hne hf hg' hsafe
  | shared _ hshared =>
    intro hexclusive
    rw [hexclusive] at hshared
    contradiction
  | _ => trivial

end Step

/--
In any order of opens and closes, the node of a C2H stream is and stays the file's that has it open exactly
while no file passes the test of `device_open` when another one has passed it and not yet stored there.
-/
theorem sgdmaOpen_safe_iff (streaming : Bool) (dir : DmaDataDirection) (es : List OpenEvent)
    : StatesHold SgdmaNode.step SgdmaNode.Safe (.init streaming dir) es
        ↔ StepsHold SgdmaNode.step (fun s e _ => s.Alone e) (.init streaming dir) es := by
  refine statesHold_iff_stepsHold (fun s => s.exclusive = true → s.Owned)
    (fun _ h => SgdmaNode.Owned.safe h) ?_ ?_ ?_
  . intro s e s' h he hstep hexclusive
    have hchange := SgdmaNode.step_change hstep
    rw [hchange.exclusive] at hexclusive
    exact (h hexclusive).change hexclusive he hchange
  . intro s e s' _ hstep hsafe
    exact (SgdmaNode.step_change hstep).alone hsafe
  . intro _
    exact ⟨by simp [SgdmaNode.init], by simp [SgdmaNode.init], by simp [SgdmaNode.init]⟩

end Xdma
