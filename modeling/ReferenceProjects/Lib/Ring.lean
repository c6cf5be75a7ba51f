import Mathlib.Algebra.BigOperators.Group.List.Basic
import Mathlib.Algebra.GroupWithZero.Nat
import Mathlib.Data.Finset.Card
import Mathlib.Order.Interval.Finset.Nat

/-!
This module contains index ranges of a ring of `N` slots that a producer hands out one after the
other: how far a range lies behind the producer, and when the next one does not run into it.
-/

namespace Ring

variable {N : Nat}

/-- How far slot `a` lies behind the producer index `p`: a full round for the producer's own slot. -/
def behind (N a p : Nat) : Nat := if a < p then p - a else p + N - a

/-- The slots of a range that does not wrap. -/
def slots (start size : Nat) : Finset Nat := Finset.Ico start (start + size)

@[simp]
theorem card_slots (start size : Nat)
    : (slots start size).card = size := by
  simp [slots]

theorem slots_subset_range {start size : Nat} (h : start + size ≤ N)
    : slots start size ⊆ Finset.range N := by
  intro i hi
  simp only [slots, Finset.mem_Ico, Finset.mem_range] at hi ⊢
  omega

theorem disjoint_slots_of_le {a n b m : Nat} (h : a + n ≤ b)
    : Disjoint (slots a n) (slots b m) := by
  rw [Finset.disjoint_left]
  intro i hi
  simp only [slots, Finset.mem_Ico] at hi ⊢
  omega

/-- The producer index after it handed out `m` slots up to the end of the ring at most. -/
theorem advance_eq {p m : Nat} (hm : p + m ≤ N)
    : (p + m) % N = if p + m = N then 0 else p + m := by
  split
  . next h =>
    rw [h]
    exact Nat.mod_self N
  . exact Nat.mod_eq_of_lt (by omega)

/-- The range that was handed out last lies behind the producer as a whole. -/
theorem le_behind_advance {p m : Nat} (hp : p < N) (hm : p + m ≤ N)
    : m ≤ behind N p ((p + m) % N) := by
  rw [advance_eq hm]
  unfold behind
  split <;> split <;> omega

/-- A range that the producer does not run into falls back by what is handed out. -/
theorem behind_advance {a p m : Nat} (ha : a < N) (hm : p + m ≤ N) (hfree : behind N a p + m ≤ N)
    : behind N a ((p + m) % N) = behind N a p + m := by
  rw [advance_eq hm]
  unfold behind at hfree ⊢
  split at hfree <;> split <;> split <;> omega

/-- What is handed out does not touch a range that lies behind the producer as a whole. -/
theorem disjoint_slots_of_behind {a n p m : Nat} (hn : n ≤ behind N a p)
    (hfree : behind N a p + m ≤ N)
    : Disjoint (slots a n) (slots p m) := by
  unfold behind at hfree hn
  split at hfree
  . next hlt =>
    rw [if_pos hlt] at hn
    exact disjoint_slots_of_le (by omega)
  . exact (disjoint_slots_of_le (by omega)).symm

/-- Pairwise disjoint parts of a finite set have no more elements together than the set has. -/
theorem sum_card_le {ι α : Type*} [DecidableEq α] (f : ι → Finset α) (l : List ι) (u : Finset α)
    (hsub : ∀ i ∈ l, f i ⊆ u) (hdisj : l.Pairwise (fun i j => Disjoint (f i) (f j)))
    : (l.map (fun i => (f i).card)).sum ≤ u.card := by
  induction l generalizing u with
  | nil => simp
  | cons i l ih =>
    rw [List.pairwise_cons] at hdisj
    have hi := hsub i List.mem_cons_self
    have hrest := ih (u \ f i) (by
      intro j hj
      rw [Finset.subset_sdiff]
      exact ⟨hsub j (List.mem_cons_of_mem i hj), (hdisj.1 j hj).symm⟩) hdisj.2
    rw [Finset.card_sdiff_of_subset hi] at hrest
    have hle := Finset.card_le_card hi
    rw [List.map_cons, List.sum_cons]
    omega

end Ring
