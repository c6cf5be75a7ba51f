import Mathlib.Tactic.Cases
import ReferenceProjects.Lib.Run
import ReferenceProjects.Xdma.Impl.Poll

/-!
This module contains when a count that the hardware wrote back is lost between the driver's reading
and clearing of the word.
-/

namespace Xdma

/-- The count in `desc_wb`. -/
def PollPc.held : PollPc → Nat
  | .idle | .read _ => 0
  | .clear _ descWb | .check _ descWb | .service descWb => wbCount descWb

/-- What the word is cleared of has been read. -/
def ClearsSeen (_ : Poll) (e : PollEvent) (s' : Poll) : Prop :=
  e = .clear → s'.mailbox.stored ≤ s'.mailbox.seen

/-- A count that was read and is what was waited for comes to `engine_service()`. -/
def Delivered (s : Poll) : Prop := s.met ≤ max s.serviced s.pc.held

/-- When the word is cleared, the hardware has not raised the count in it after it was read. -/
def NotRaised (s : Poll) (e : PollEvent) : Prop :=
  ∀ expectedWb descWb, e = .clear → s.pc = .clear expectedWb descWb →
    wbCount s.mailbox.word ≤ wbCount descWb

theorem wbCount_zero
    : wbCount 0 = 0 := rfl

/-- What a step can do. -/
inductive PollStep (s : Poll) : PollEvent → Poll → Prop where
  | store (wb : BitVec 32) (m : Mailbox.State (BitVec 32))
      (stored : Mailbox.store wbCount s.mailbox wb = some m)
      : PollStep s (.store wb) { s with mailbox := m }
  | poll (expectedWb : BitVec 32) (pc : s.pc = .idle)
      : PollStep s (.poll expectedWb)
          { s with pc := if expectedWb = 0 then .returned 0 else .read expectedWb }
  | read (expectedWb : BitVec 32) (pc : s.pc = .read expectedWb)
      : PollStep s .read
          { s with
            mailbox := Mailbox.read wbCount s.mailbox
            pc := if s.mailbox.word ≠ 0 then
                .clear expectedWb s.mailbox.word
              else
                .check expectedWb s.mailbox.word
            met := if WbMet expectedWb s.mailbox.word then
                max s.met (wbCount s.mailbox.word)
              else
                s.met }
  | clear (expectedWb descWb : BitVec 32) (pc : s.pc = .clear expectedWb descWb)
      : PollStep s .clear
          { s with mailbox := Mailbox.clear 0 s.mailbox, pc := .check expectedWb descWb }
  | check (expectedWb descWb : BitVec 32) (timeAfter : Bool) (pc : s.pc = .check expectedWb descWb)
      : PollStep s (.check timeAfter) { s with pc := .loop expectedWb descWb timeAfter }
  | service (descWb : BitVec 32) (pc : s.pc = .service descWb)
      : PollStep s .service { s with pc := .idle, serviced := max s.serviced (wbCount descWb) }

theorem Poll.step_cases {s s' : Poll} {e : PollEvent} (h : s.step e = some s')
    : PollStep s e s' := by
  cases e with
  | store wb =>
    simp only [Poll.step, Option.map_eq_some_iff] at h
    obtain ⟨m, hm, rfl⟩ := h
    apply PollStep.store wb m hm
  | poll expectedWb =>
    simp only [Poll.step] at h
    split at h
    . next hpc =>
      cases h
      apply PollStep.poll expectedWb hpc
    . contradiction
  | read =>
    simp only [Poll.step] at h
    split at h
    . next expectedWb hpc =>
      cases h
      apply PollStep.read expectedWb hpc
    . contradiction
  | clear =>
    simp only [Poll.step] at h
    split at h
    . next expectedWb descWb hpc =>
      cases h
      apply PollStep.clear expectedWb descWb hpc
    . contradiction
  | check timeAfter =>
    simp only [Poll.step] at h
    split at h
    . next expectedWb descWb hpc =>
      cases h
      apply PollStep.check expectedWb descWb timeAfter hpc
    . contradiction
  | service =>
    simp only [Poll.step] at h
    split at h
    . next descWb hpc =>
      cases h
      apply PollStep.service descWb hpc
    . contradiction

section Deliver

/-- `Delivered`, as it is kept up to the end of the loop. -/
def Delivering (s : Poll) : Prop :=
  match s.pc with
  | .idle | .read _ => s.met ≤ s.serviced
  | .clear expectedWb descWb | .check expectedWb descWb =>
    s.met ≤ s.serviced ∨ WbMet expectedWb descWb ∧ s.met ≤ max s.serviced (wbCount descWb)
  | .service descWb => s.met ≤ max s.serviced (wbCount descWb)

theorem Delivering.delivered {s : Poll} (h : Delivering s)
    : Delivered s := by
  unfold Delivering at h
  unfold Delivered
  cases hpc : s.pc with
  | idle | read e =>
    rw [hpc] at h
    exact Nat.le_trans h (Nat.le_max_left _ _)
  | clear e d | check e d =>
    rw [hpc] at h
    rcases h with h | h
    . exact Nat.le_trans h (Nat.le_max_left _ _)
    . exact h.2
  | service d =>
    rw [hpc] at h
    apply h

theorem delivering_returned {s : Poll} {descWb : BitVec 32}
    (h : s.met ≤ max s.serviced (wbCount descWb))
    : Delivering { s with pc := .returned descWb } := by
  unfold PollPc.returned
  split
  . next hzero =>
    rw [hzero] at h
    have hle : s.met ≤ s.serviced := by
      rw [wbCount_zero, Nat.max_zero] at h
      apply h
    apply hle
  . apply h

theorem delivering_loop {s : Poll} {expectedWb descWb : BitVec 32} (timeAfter : Bool)
    (h : s.met ≤ s.serviced ∨ WbMet expectedWb descWb ∧ s.met ≤ max s.serviced (wbCount descWb))
    : Delivering { s with pc := .loop expectedWb descWb timeAfter } := by
  have hmax : s.met ≤ max s.serviced (wbCount descWb) := by
    rcases h with h | h
    . exact Nat.le_trans h (Nat.le_max_left _ _)
    . exact h.2
  unfold PollPc.loop
  split
  . apply delivering_returned hmax
  . next herr =>
    split
    . apply delivering_returned hmax
    . next hlt =>
      -- not what was waited for, so nothing of it is owed
      have hnot : ¬ WbMet expectedWb descWb := not_or.mpr ⟨herr, hlt⟩
      have hle : s.met ≤ s.serviced := h.resolve_right (fun h => hnot h.1)
      split
      . apply delivering_returned
        exact Nat.le_trans hle (Nat.le_max_left _ _)
      . apply hle

theorem Delivering.step {s s' : Poll} {e : PollEvent} (h : Delivering s) (hstep : s.step e = some s')
    : Delivering s' := by
  cases Poll.step_cases hstep with
  | store wb m hm => apply h
  | poll expectedWb hpc =>
    have hle : s.met ≤ s.serviced := by simpa [Delivering, hpc] using h
    split
    . apply delivering_returned
      exact Nat.le_trans hle (Nat.le_max_left _ _)
    . apply hle
  | read expectedWb hpc =>
    have hle : s.met ≤ s.serviced := by simpa [Delivering, hpc] using h
    generalize hm : (if WbMet expectedWb s.mailbox.word then
      max s.met (wbCount s.mailbox.word) else s.met) = met
    have hkeep : met ≤ s.serviced
        ∨ WbMet expectedWb s.mailbox.word ∧ met ≤ max s.serviced (wbCount s.mailbox.word) := by
      rw [← hm]
      split
      . next hmet =>
        right
        refine ⟨hmet, ?_⟩
        omega
      . exact .inl hle
    split <;> apply hkeep
  | clear expectedWb descWb hpc => simpa [Delivering, hpc] using h
  | check expectedWb descWb timeAfter hpc =>
    apply delivering_loop timeAfter
    simpa [Delivering, hpc] using h
  | service descWb hpc => simpa [Delivering, hpc] using h

theorem statesHold_delivered (es : List PollEvent)
    : Transition.StatesHold Poll.step Delivered Poll.init es := by
  apply Transition.statesHold_of_inductive (fun _ h => Delivering.delivered h)
  . intro s e s' h hstep
    apply h.step hstep
  . exact Nat.le_refl 0

end Deliver

section Clear

/-- Nothing is lost so far, and what was read last is known. -/
structure PollInv (s : Poll) : Prop where
  intact : Mailbox.Intact 0 wbCount s.mailbox
  seen : ∀ expectedWb descWb, s.pc = .clear expectedWb descWb → s.mailbox.seen = wbCount descWb

theorem PollPc.returned_ne_clear (descWb e d : BitVec 32)
    : PollPc.returned descWb ≠ .clear e d := by
  unfold PollPc.returned
  split <;> simp

theorem PollPc.loop_ne_clear (expectedWb descWb : BitVec 32) (timeAfter : Bool) (e d : BitVec 32)
    : PollPc.loop expectedWb descWb timeAfter ≠ .clear e d := by
  unfold PollPc.loop
  split
  . apply PollPc.returned_ne_clear
  . split
    . apply PollPc.returned_ne_clear
    . split
      . apply PollPc.returned_ne_clear
      . simp

theorem PollInv.step {s s' : Poll} {e : PollEvent} (h : PollInv s) (hnot : NotRaised s e)
    (hstep : s.step e = some s')
    : PollInv s' := by
  cases Poll.step_cases hstep with
  | store wb m hm =>
    constructor
    . apply h.intact.store hm
    . intro expectedWb descWb hpc
      rw [(Mailbox.store_spec hm).2]
      apply h.seen expectedWb descWb hpc
  | poll expectedWb _ =>
    constructor
    . apply h.intact
    . intro e d hpc
      split at hpc
      . exact absurd hpc (PollPc.returned_ne_clear 0 e d)
      . contradiction
  | read expectedWb _ =>
    constructor
    . apply h.intact.read wbCount_zero
    . intro e d hpc
      split at hpc
      . next hword =>
        cases hpc
        apply h.intact.seen_read hword
      . contradiction
  | clear expectedWb descWb hpc =>
    constructor
    . apply h.intact.clear
      rw [h.seen expectedWb descWb hpc]
      apply hnot expectedWb descWb rfl hpc
    . intro e d hpc
      contradiction
  | check expectedWb descWb timeAfter _ =>
    refine ⟨h.intact, ?_⟩
    intro e d hpc
    exact absurd hpc (PollPc.loop_ne_clear expectedWb descWb timeAfter e d)
  | service descWb _ =>
    refine ⟨h.intact, ?_⟩
    intro e d hpc
    contradiction

theorem clearsSeen_iff {s s' : Poll} {e : PollEvent} (h : PollInv s) (hstep : s.step e = some s')
    : ClearsSeen s e s' ↔ NotRaised s e := by
  cases Poll.step_cases hstep with
  | clear expectedWb descWb hpc =>
    -- the largest count that was seen is the one in `desc_wb`
    have hiff := h.intact.clear_iff wbCount_zero
    rw [h.seen expectedWb descWb hpc] at hiff
    constructor
    . intro hclear e d _ hpc'
      rw [hpc] at hpc'
      cases hpc'
      apply hiff.mp (hclear rfl)
    . intro hnot _
      apply hiff.mpr (hnot expectedWb descWb rfl hpc)
  | store | poll | read | check | service =>
    constructor
    . intro _ e d he _
      contradiction
    . intro _ he
      contradiction

theorem pollInv_init
    : PollInv Poll.init := by
  constructor
  . apply Mailbox.intact_init
  . intro e d hpc
    contradiction

end Clear

/--
No count is erased unseen in a run, and those that were waited for come to `engine_service()`, exactly
if the hardware never raises the count in the word between the driver's reading and clearing of it.
-/
theorem clearsSeen_delivered_iff (es : List PollEvent)
    : Transition.StepsHold Poll.step ClearsSeen Poll.init es
          ∧ Transition.StatesHold Poll.step Delivered Poll.init es
        ↔ Transition.StepsHold Poll.step (fun s e _ => NotRaised s e) Poll.init es := by
  have hkeep : ∀ s e s', PollInv s → NotRaised s e → s.step e = some s' →
      PollInv s' ∧ ClearsSeen s e s' := by
    intro s e s' hinv hnot hstep
    exact ⟨hinv.step hnot hstep, (clearsSeen_iff hinv hstep).mpr hnot⟩
  have hbad : ∀ s e s', PollInv s → s.step e = some s' → ClearsSeen s e s' → NotRaised s e := by
    intro s e s' hinv hstep hclear
    apply (clearsSeen_iff hinv hstep).mp hclear
  rw [and_iff_left (statesHold_delivered es)]
  exact Transition.stepsHold_iff_stepsHold hkeep hbad pollInv_init

instance (s : Poll) (e : PollEvent) (s' : Poll) : Decidable (ClearsSeen s e s') :=
  inferInstanceAs (Decidable (_ → _))

/--
With `eop_flush` the thread waits for one descriptor. The second writeback comes after the first was
read and is cleared with it, and the next time the thread polls it times out.
-/
def lostWriteback : List PollEvent :=
  [.poll 1, .store 1, .read, .store 2, .clear, .check false, .service, .poll 1, .read, .check true]

theorem not_clearsSeen_lost
    : ¬ Transition.StepsHold Poll.step ClearsSeen Poll.init lostWriteback
        ∧ Transition.run Poll.step Poll.init lostWriteback = some ⟨⟨0, 2, 1⟩, .idle, 1, 1⟩ := by
  decide

end Xdma
