import Mathlib.Data.List.Nodup
import Mathlib.Logic.Function.Basic
import ReferenceProjects.Lib.Copy

/-!
This module contains what copying does to two memories: cells of the one are read and cells of the other
are written, one after the other.
-/

namespace Copy

variable {α β γ : Type*}

section Store

variable [DecidableEq β]

/--
Write to the second cell of every pair what the first one holds.
-/
def store (src : α → γ) : List (α × β) → (β → γ) → β → γ
  | [], dst => dst
  | (a, b) :: pairs, dst => store src pairs (Function.update dst b (src a))

theorem store_append (src : α → γ) (pairs pairs' : List (α × β)) (dst : β → γ)
    : store src (pairs ++ pairs') dst = store src pairs' (store src pairs dst) := by
  induction pairs generalizing dst with
  | nil => rfl
  | cons pair pairs ih => apply ih

/-- The cells that are not written. -/
theorem store_of_not_mem (src : α → γ) {pairs : List (α × β)} (dst : β → γ) {b : β}
    (h : b ∉ pairs.map Prod.snd)
    : store src pairs dst b = dst b := by
  induction pairs generalizing dst with
  | nil => rfl
  | cons pair pairs ih =>
    rw [List.map_cons, List.mem_cons, not_or] at h
    show store src pairs (Function.update dst pair.2 (src pair.1)) b = _
    rw [ih _ h.2, Function.update_of_ne h.1]

/-- A cell that is written once. -/
theorem store_of_mem (src : α → γ) {pairs : List (α × β)} (dst : β → γ)
    (hnodup : (pairs.map Prod.snd).Nodup) {a : α} {b : β} (h : (a, b) ∈ pairs)
    : store src pairs dst b = src a := by
  induction pairs generalizing dst with
  | nil => contradiction
  | cons pair pairs ih =>
    rw [List.map_cons, List.nodup_cons] at hnodup
    show store src pairs (Function.update dst pair.2 (src pair.1)) b = _
    cases List.mem_cons.mp h with
    | inl heq =>
      rw [← heq] at hnodup ⊢
      rw [store_of_not_mem src _ hnodup.1, Function.update_self]
    | inr hmem => rw [ih _ hnodup.2 hmem]

end Store

end Copy
