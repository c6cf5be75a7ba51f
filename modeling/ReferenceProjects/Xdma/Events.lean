import Mathlib.Tactic.Cases
import ReferenceProjects.Xdma.Impl.Events

/-!
This module contains what the readers of an event device get: no event is lost and none is delivered
twice, and a read comes back without one exactly if another reader overtook it.
-/

namespace Xdma

/-- The events of the user interrupt as a latch that the readers share. -/
def EventsAct.op : EventsAct → Option (Latch.Op Nat)
  | .irq => some .set
  | .call _ _ _ _ => none
  | .test r _ => some (.look r)
  | .take r _ => some (.take r)

def Events.ops (s : Events) : List (Latch.Op Nat) := s.history.filterMap EventsAct.op

/-- The read returns an event. -/
def EventsReadRet.isEvent : EventsReadRet → Bool
  | .read eventsUser _ => eventsUser ≠ 0
  | _ => false

/-- A read that returns 4 has given its caller all bytes of an event word that is not 0. -/
def EventsReadRet.Delivers (ret : EventsReadRet) : Prop :=
  ret.rv = 4 → ∃ eventsUser, ret = .read eventsUser 0 ∧ eventsUser ≠ 0

/-- An interrupt that no read has consumed is still there. -/
def NoEventLost (s : Events) : Prop :=
  ∀ later earlier, s.history = later ++ .irq :: earlier → (∀ r n, .take r n ∉ later) →
    s.userIrq.eventsIrq ≠ 0

/-- The read that consumes after an interrupt returns an event. -/
def EventServed (s : Events) (a : EventsAct) (s' : Events) : Prop :=
  ∀ r n later earlier, a = .take r n → s.history = later ++ .irq :: earlier →
    (∀ i m, .take i m ∉ later) →
    ∃ eventsUser, s'.returned = .read eventsUser n :: s.returned ∧ eventsUser ≠ 0

/-- The reads that returned an event are at most the interrupts. -/
def NoEventTwice (s : Events) : Prop :=
  s.returned.countP EventsReadRet.isEvent ≤ s.history.count .irq

def AllDeliver (s : Events) : Prop := ∀ ret ∈ s.returned, ret.Delivers

/--
A reader that consumes was not overtaken since its wait ended: no other reader has consumed, unless an
interrupt has come after that. And its buffer takes the word.
-/
def NotOvertaken (s : Events) (a : EventsAct) : Prop :=
  ∀ r n, a = .take r n → Latch.overtaken r s.ops = false ∧ n = 0

/-- What a step can do. -/
inductive EventsStep (s : Events) : EventsAct → Events → Prop where
  | irq : EventsStep s .irq { s with
      userIrq := (userIrqService s.userIrq).1
      history := .irq :: s.history }
  | refused (r : Nat) (found : Bool) (count pos : BitVec 64) (ret : EventsReadRet)
      (check : charEventsReadCheck found count pos = some ret)
      : EventsStep s (.call r found count pos) { s with
        history := .call r found count pos :: s.history
        returned := ret :: s.returned }
  | called (r : Nat) (found : Bool) (count pos : BitVec 64)
      : EventsStep s (.call r found count pos) { s with
        readers := s.setReader r .waiting
        history := .call r found count pos :: s.history }
  | woken (r : Nat) (signal : Bool) (event : s.userIrq.eventsIrq ≠ 0)
      : EventsStep s (.test r signal) { s with
        readers := s.setReader r .woken
        history := .test r signal :: s.history }
  | interrupted (r : Nat)
      : EventsStep s (.test r true) { s with
        readers := s.setReader r .idle
        history := .test r true :: s.history
        returned := .erestartsys :: s.returned }
  | sleep (r : Nat) (signal : Bool) (reader : s.readers r = .waiting)
      : EventsStep s (.test r signal) { s with history := .test r signal :: s.history }
  | take (r n : Nat) (reader : s.readers r = .woken)
      : EventsStep s (.take r n) {
        userIrq := (eventsTake s.userIrq).1
        readers := s.setReader r .idle
        history := .take r n :: s.history
        returned := .read s.userIrq.eventsIrq n :: s.returned }

theorem Events.step_cases {s s' : Events} {a : EventsAct} (h : s.step a = some s')
    : EventsStep s a s' := by
  cases a with
  | irq =>
    simp only [Events.step, Option.some.injEq] at h
    subst h
    apply EventsStep.irq
  | call r found count pos =>
    simp only [Events.step] at h
    split at h
    . split at h
      . next ret hret =>
        cases h
        apply EventsStep.refused r found count pos ret hret
      . cases h
        apply EventsStep.called
    . contradiction
  | test r signal =>
    simp only [Events.step] at h
    split at h
    . next hreader =>
      split at h
      . next hevent =>
        cases h
        apply EventsStep.woken r signal hevent
      . split at h
        . next hsignal =>
          cases h
          rw [hsignal]
          apply EventsStep.interrupted
        . cases h
          apply EventsStep.sleep r signal hreader
    . contradiction
  | take r n =>
    simp only [Events.step, eventsTake] at h
    split at h
    . next hreader =>
      cases h
      apply EventsStep.take r n hreader
    . contradiction

section Check

variable {found : Bool} {count pos : BitVec 64} {ret : EventsReadRet}

/--
A read that is refused has not come to the events.
-/
theorem charEventsReadCheck_rv (h : charEventsReadCheck found count pos = some ret)
    : ret.rv < 0 ∧ ret.isEvent = false := by
  unfold charEventsReadCheck at h
  split at h
  . cases h
    exact ⟨by decide, rfl⟩
  . split at h
    . cases h
      exact ⟨by decide, rfl⟩
    . split at h
      . cases h
        exact ⟨by decide, rfl⟩
      . contradiction

end Check

/--
The latch is `events_irq`, whoever is between the wait and the section has seen it up, and the events
returned are the takes that it served.
-/
structure EventsInv (s : Events) : Prop where
  handler : s.userIrq.handler = none
  raised : Latch.raised s.ops = true ↔ s.userIrq.eventsIrq ≠ 0
  seen : ∀ r, s.readers r = .woken → Latch.Seen r s.ops
  served : s.returned.countP EventsReadRet.isEvent = Latch.served s.ops

theorem EventsInv.init
    : EventsInv Events.init := by
  constructor
  . rfl
  . decide
  . intro r hr
    contradiction
  . rfl

section Step

variable {s : Events} {i r : Nat} {reader : EventsReader}

theorem Events.woken_of_setReader (h : s.setReader r reader i = .woken) (hreader : reader ≠ .woken)
    : i ≠ r ∧ s.readers i = .woken := by
  unfold Events.setReader at h
  split at h
  . contradiction
  . next hne => exact ⟨hne, h⟩

theorem userIrqService_eventsIrq {userIrq : UserIrq} (h : userIrq.handler = none)
    : (userIrqService userIrq).1.eventsIrq ≠ 0 := by
  unfold userIrqService
  rw [h]
  dsimp only
  split
  . decide
  . next hne => apply hne

theorem userIrqService_handler (userIrq : UserIrq)
    : (userIrqService userIrq).1.handler = userIrq.handler := by
  unfold userIrqService
  split
  . rfl
  . split
    . rfl
    . rfl

/--
A read returns an event exactly if it takes the latch down.
-/
theorem EventsInv.isEvent_read (hinv : EventsInv s) (n : Nat)
    : (EventsReadRet.read s.userIrq.eventsIrq n).isEvent = Latch.raised s.ops := by
  rw [Bool.eq_iff_iff, hinv.raised]
  simp only [EventsReadRet.isEvent, decide_eq_true_eq]

theorem EventsInv.step {s' : Events} {a : EventsAct} (hinv : EventsInv s) (hstep : s.step a = some s')
    : EventsInv s' := by
  cases Events.step_cases hstep with
  | irq =>
    constructor
    . rw [userIrqService_handler]
      apply hinv.handler
    . exact ⟨fun _ => userIrqService_eventsIrq hinv.handler, fun _ => rfl⟩
    . intro i hi
      exact .set _ (hinv.seen i hi)
    . apply hinv.served
  | refused r found count pos ret check =>
    constructor
    . apply hinv.handler
    . apply hinv.raised
    . apply hinv.seen
    . rw [List.countP_cons, (charEventsReadCheck_rv check).2]
      apply hinv.served
  | called r found count pos =>
    constructor
    . apply hinv.handler
    . apply hinv.raised
    . intro i hi
      exact hinv.seen i (Events.woken_of_setReader hi (by decide)).2
    . apply hinv.served
  | woken r signal event =>
    constructor
    . apply hinv.handler
    . apply hinv.raised
    . intro i hi
      by_cases hir : i = r
      . rw [hir]
        exact .look _ (hinv.raised.mpr event)
      . simp only [Events.setReader, if_neg hir] at hi
        exact .lookOther _ r (Ne.symm hir) (hinv.seen i hi)
    . apply hinv.served
  | interrupted r =>
    constructor
    . apply hinv.handler
    . apply hinv.raised
    . intro i hi
      obtain ⟨hir, hi⟩ := Events.woken_of_setReader hi (by decide)
      exact .lookOther _ r (Ne.symm hir) (hinv.seen i hi)
    . apply hinv.served
  | sleep r signal reader =>
    constructor
    . apply hinv.handler
    . apply hinv.raised
    . intro i hi
      refine .lookOther _ r ?_ (hinv.seen i hi)
      intro hri
      rw [hri, hi] at reader
      contradiction
    . apply hinv.served
  | take r n reader =>
    constructor
    . apply hinv.handler
    . constructor
      . intro h
        contradiction
      . intro h
        exact absurd rfl h
    . intro i hi
      obtain ⟨hir, hi⟩ := Events.woken_of_setReader hi (by decide)
      exact .takeOther _ r (Ne.symm hir) (hinv.seen i hi)
    . have hserved : Latch.served (.take r :: s.ops)
          = (Latch.raised s.ops).toNat + Latch.served s.ops := rfl
      rw [List.countP_cons, hinv.isEvent_read, hinv.served, Nat.add_comm]
      refine Eq.trans ?_ hserved.symm
      cases Latch.raised s.ops
      . rfl
      . rfl

/--
After an interrupt the latch is up as long as nobody takes it down.
-/
theorem Events.raised_of_history {later earlier : List EventsAct}
    (hhistory : s.history = later ++ .irq :: earlier) (hlater : ∀ r n, .take r n ∉ later)
    : Latch.raised s.ops = true := by
  unfold Events.ops
  rw [hhistory, List.filterMap_append]
  apply Latch.raised_append
  . rfl
  . intro i hi
    rw [List.mem_filterMap] at hi
    obtain ⟨a, ha, hop⟩ := hi
    cases a with
    | irq => cases hop
    | call => cases hop
    | test => cases hop
    | take r n => exact hlater r n ha

theorem EventsAct.sets_filterMap_op (history : List EventsAct)
    : Latch.sets (history.filterMap EventsAct.op) = history.count .irq := by
  induction history with
  | nil => rfl
  | cons a history ih =>
    cases a with
    | irq =>
      rw [List.count_cons_self, ← ih]
      rfl
    | call => apply ih
    | test => apply ih
    | take => apply ih

theorem EventsInv.noEventLost (hinv : EventsInv s)
    : NoEventLost s := by
  intro later earlier hhistory hlater
  exact hinv.raised.mp (Events.raised_of_history hhistory hlater)

theorem EventsInv.eventServed (hinv : EventsInv s) {s' : Events} {a : EventsAct}
    (hstep : s.step a = some s')
    : EventServed s a s' := by
  intro r n later earlier ha hhistory hlater
  have hevent := hinv.noEventLost later earlier hhistory hlater
  subst ha
  cases Events.step_cases hstep with
  | take => exact ⟨s.userIrq.eventsIrq, rfl, hevent⟩

theorem EventsInv.noEventTwice (hinv : EventsInv s)
    : NoEventTwice s := by
  unfold NoEventTwice
  rw [hinv.served, ← EventsAct.sets_filterMap_op]
  apply Latch.served_le_sets

/--
What the section takes is an event exactly if the reader was not overtaken.
-/
theorem EventsInv.delivers_iff (hinv : EventsInv s) (hreader : s.readers r = .woken) (n : Nat)
    : (EventsReadRet.read s.userIrq.eventsIrq n).Delivers
      ↔ Latch.overtaken r s.ops = false ∧ n = 0 := by
  have hraised : Latch.overtaken r s.ops = false ↔ s.userIrq.eventsIrq ≠ 0 := by
    rw [(hinv.seen r hreader).overtaken_eq, Bool.not_eq_false', hinv.raised]
  rw [hraised]
  constructor
  . intro h
    obtain ⟨eventsUser, hread, hne⟩ := h rfl
    injection hread with hword hn
    exact ⟨hword ▸ hne, hn⟩
  . intro ⟨hne, hn⟩ _
    exact ⟨s.userIrq.eventsIrq, by rw [hn], hne⟩

theorem AllDeliver.cons {ret : EventsReadRet} (h : AllDeliver s) (hret : ret.Delivers)
    : ∀ ret' ∈ ret :: s.returned, ret'.Delivers := by
  intro ret' hmem
  cases hmem with
  | head => apply hret
  | tail _ hmem => apply h ret' hmem

theorem EventsReadRet.delivers_of_neg {ret : EventsReadRet} (h : ret.rv < 0)
    : ret.Delivers := by
  intro hrv
  omega

theorem AllDeliver.step {s' : Events} {a : EventsAct} (h : AllDeliver s) (hinv : EventsInv s)
    (hallowed : NotOvertaken s a) (hstep : s.step a = some s')
    : AllDeliver s' := by
  cases Events.step_cases hstep with
  | irq => apply h
  | refused r found count pos ret check =>
    exact h.cons (EventsReadRet.delivers_of_neg (charEventsReadCheck_rv check).1)
  | called => apply h
  | woken => apply h
  | interrupted => exact h.cons (EventsReadRet.delivers_of_neg (by decide))
  | sleep => apply h
  | take r n reader => exact h.cons ((hinv.delivers_iff reader n).mpr (hallowed r n rfl))

theorem AllDeliver.notOvertaken {s' : Events} {a : EventsAct} (h : AllDeliver s')
    (hinv : EventsInv s) (hstep : s.step a = some s')
    : NotOvertaken s a := by
  intro r n ha
  subst ha
  cases Events.step_cases hstep with
  | take _ _ reader => exact (hinv.delivers_iff reader n).mp (h _ (.head _))

end Step

/--
In every run of interrupts and readers no event is lost or returned twice; and all reads that return 4
deliver an event exactly if no reader is overtaken between its wait and its section, and every buffer
takes the word.
-/
theorem charEventsRead_delivers_iff (acts : List EventsAct)
    : Transition.StatesHold Events.step NoEventLost Events.init acts
      ∧ Transition.StepsHold Events.step EventServed Events.init acts
      ∧ Transition.StatesHold Events.step NoEventTwice Events.init acts
      ∧ (Transition.StatesHold Events.step AllDeliver Events.init acts
        ↔ Transition.StepsHold Events.step (fun s a _ => NotOvertaken s a) Events.init acts) := by
  have hinv := EventsInv.init
  refine ⟨?_, ?_, ?_, ?_⟩
  . exact Transition.statesHold_of_inductive (fun _ h => h.noEventLost)
      (fun _ _ _ h hstep => h.step hstep) hinv
  . exact Transition.stepsHold_of_inductive (fun _ _ _ h hstep => h.eventServed hstep)
      (fun _ _ _ h hstep => h.step hstep) hinv
  . exact Transition.statesHold_of_inductive (fun _ h => h.noEventTwice)
      (fun _ _ _ h hstep => h.step hstep) hinv
  . apply Transition.statesHold_iff_stepsHold (fun s => EventsInv s ∧ AllDeliver s)
    . exact fun _ h => h.2
    . intro s a s' h hallowed hstep
      exact ⟨h.1.step hstep, h.2.step h.1 hallowed hstep⟩
    . intro s a s' h hstep hgood
      exact hgood.notOvertaken h.1 hstep
    . refine ⟨hinv, ?_⟩
      intro ret hret
      contradiction

/--
Two readers wait, one interrupt wakes both, and the second gets the word that the first has cleared.
-/
theorem charEventsRead_overtaken
    : ∃ s, Transition.run Events.step Events.init
        [.call 0 true 4 0, .call 1 true 4 0, .irq, .test 0 false, .test 1 false, .take 0 0, .take 1 0]
        = some s
      ∧ ¬ AllDeliver s := by
  refine ⟨_, rfl, ?_⟩
  intro h
  obtain ⟨eventsUser, hread, hne⟩ := h (.read 0 0) (.head _) rfl
  injection hread with hword
  exact hne hword.symm

end Xdma
