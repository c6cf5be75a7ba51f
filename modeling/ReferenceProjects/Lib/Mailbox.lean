import Mathlib.Order.Lattice
import Mathlib.Tactic.TypeStar

/-!
This module contains mailboxes of one word: a sender overwrites the word with values that carry larger
and larger counts, and a receiver reads the word and clears it in a step of its own.
-/

namespace Mailbox

variable {ω : Type*}

/--
A mailbox, with the largest count stored so far and the largest count read so far.
-/
structure State (ω : Type*) where
  word : ω
  stored : Nat
  seen : Nat
  deriving DecidableEq, Repr

variable (empty : ω) (count : ω → Nat)

def init : State ω := ⟨empty, 0, 0⟩

/--
The sender never stores a smaller count than before.
-/
def store (m : State ω) (w : ω) : Option (State ω) :=
  if m.stored ≤ count w then some ⟨w, count w, m.seen⟩ else none

def read (m : State ω) : State ω := { m with seen := max m.seen (count m.word) }

def clear (m : State ω) : State ω := { m with word := empty }

/--
Nothing was erased unseen: the largest count is in the word or was read.
-/
structure Intact (m : State ω) : Prop where
  unread : m.stored ≤ max m.seen (count m.word)
  seen_le : m.seen ≤ m.stored
  word : m.word = empty ∨ count m.word = m.stored

variable {empty count} {m : State ω}

theorem intact_init
    : Intact empty count (init empty) := by
  constructor
  . apply Nat.zero_le
  . apply Nat.le_refl
  . exact .inl rfl

theorem store_spec {m' : State ω} {w : ω} (h : store count m w = some m')
    : m.stored ≤ count w ∧ m' = ⟨w, count w, m.seen⟩ := by
  unfold store at h
  split at h
  . next hle => exact ⟨hle, (Option.some.inj h).symm⟩
  . contradiction

theorem Intact.store (h : Intact empty count m) {m' : State ω} {w : ω}
    (hstore : store count m w = some m')
    : Intact empty count m' := by
  obtain ⟨hle, rfl⟩ := store_spec hstore
  constructor
  . apply Nat.le_max_right
  . apply Nat.le_trans h.seen_le hle
  . exact .inr rfl

theorem Intact.count_le (h : Intact empty count m) (hempty : count empty = 0)
    : count m.word ≤ m.stored := by
  cases h.word with
  | inl hword =>
    rw [hword, hempty]
    apply Nat.zero_le
  | inr hword => apply Nat.le_of_eq hword

theorem Intact.read (h : Intact empty count m) (hempty : count empty = 0)
    : Intact empty count (read count m) := by
  constructor
  . apply Nat.le_trans h.unread
    apply Nat.le_max_left
  . apply Nat.max_le.mpr ⟨h.seen_le, h.count_le hempty⟩
  . apply h.word

/--
What is read is the largest count so far, unless the mailbox is empty.
-/
theorem Intact.seen_read (h : Intact empty count m) (hword : m.word ≠ empty)
    : (Mailbox.read count m).seen = count m.word := by
  have heq : count m.word = m.stored := h.word.resolve_left hword
  simp only [Mailbox.read, heq]
  apply Nat.max_eq_right h.seen_le

/--
The word can be cleared if the count in it was seen.
-/
theorem Intact.clear (h : Intact empty count m) (hseen : count m.word ≤ m.seen)
    : Intact empty count (clear empty m) := by
  constructor
  . apply Nat.le_trans h.unread
    rw [Nat.max_eq_left hseen]
    apply Nat.le_max_left
  . apply h.seen_le
  . exact .inl rfl

/--
After the word was cleared, nothing is unseen exactly if the count in it was seen.
-/
theorem Intact.clear_iff (h : Intact empty count m) (hempty : count empty = 0)
    : (Mailbox.clear empty m).stored ≤ (Mailbox.clear empty m).seen ↔ count m.word ≤ m.seen := by
  constructor
  . intro hle
    exact Nat.le_trans (h.count_le hempty) hle
  . intro hseen
    have hunread := h.unread
    rw [Nat.max_eq_left hseen] at hunread
    apply hunread

end Mailbox
