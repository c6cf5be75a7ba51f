import Mathlib.Data.List.Nodup

/-!
This module contains tables: lists of entries with a key each, of which one is put in place of the one that has
its key, or all with a key are removed.
-/

namespace Table

variable {α κ : Type*} [DecidableEq κ] (key : α → κ)

/-- Put `x` in place of the entry that has its key. -/
def replace (x : α) (l : List α) : List α := l.map (fun y => if key y = key x then x else y)

/-- Remove the entry with key `k`. -/
def remove (k : κ) (l : List α) : List α := l.filter (fun y => decide (key y ≠ k))

variable {key} {x y : α} {l : List α}

theorem mem_replace
    : y ∈ replace key x l ↔ (y ∈ l ∧ key y ≠ key x) ∨ (y = x ∧ ∃ z ∈ l, key z = key x) := by
  unfold replace
  rw [List.mem_map]
  constructor
  . rintro ⟨z, hz, rfl⟩
    by_cases hkey : key z = key x
    . rw [if_pos hkey]
      exact .inr ⟨rfl, z, hz, hkey⟩
    . rw [if_neg hkey]
      exact .inl ⟨hz, hkey⟩
  . rintro (⟨hy, hkey⟩ | ⟨rfl, z, hz, hkey⟩)
    . exact ⟨y, hy, if_neg hkey⟩
    . exact ⟨z, hz, if_pos hkey⟩

/-- What the entry keeps the table keeps. -/
theorem map_replace {β : Type*} {f : α → β} (h : ∀ y ∈ l, key y = key x → f y = f x)
    : (replace key x l).map f = l.map f := by
  unfold replace
  rw [List.map_map]
  apply List.map_congr_left
  intro y hy
  dsimp only [Function.comp_apply]
  split
  . next hkey => exact (h y hy hkey).symm
  . rfl

theorem replace_eq_nil
    : replace key x l = [] ↔ l = [] :=
  List.map_eq_nil_iff

theorem mem_remove {k : κ}
    : y ∈ remove key k l ↔ y ∈ l ∧ key y ≠ k := by
  rw [remove, List.mem_filter, decide_eq_true_eq]

omit [DecidableEq κ] in
theorem nodup_add (h : (l.map key).Nodup) (hnew : ∀ y ∈ l, key y ≠ key x)
    : ((l ++ [x]).map key).Nodup := by
  rw [List.map_append, List.map_singleton, List.nodup_append']
  refine ⟨h, List.nodup_singleton _, ?_⟩
  rw [List.disjoint_singleton, List.mem_map]
  rintro ⟨y, hy, heq⟩
  exact hnew y hy heq

theorem remove_sublist (k : κ) (l : List α)
    : (remove key k l).Sublist l :=
  List.filter_sublist

end Table
