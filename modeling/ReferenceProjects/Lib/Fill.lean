import Mathlib.Data.List.Basic

/-!
This module contains buffers that are filled from the front: lists written over the cells of a memory,
and blocks appended to a buffer as long as it has room for one more.
-/

namespace Fill

variable {α : Type*}

/-- The memory after a list was written from `a` on. -/
def put (m : Nat → α) (a : Nat) (xs : List α) : Nat → α :=
  fun i => if a ≤ i then (xs[i - a]?).getD (m i) else m i

/-- The `n` cells from `a` on. -/
def slice (m : Nat → α) (a n : Nat) : List α := (List.range n).map (fun k => m (a + k))

@[simp]
theorem put_nil (m : Nat → α) (a : Nat)
    : put m a [] = m := by
  funext i
  simp [put]

/-- What is written behind a list is written as one list with it. -/
theorem put_put (m : Nat → α) (a : Nat) (xs ys : List α)
    : put (put m a xs) (a + xs.length) ys = put m a (xs ++ ys) := by
  funext i
  unfold put
  by_cases hfront : i < a + xs.length
  . rw [if_neg (by omega)]
    by_cases ha : a ≤ i
    . rw [if_pos ha, if_pos ha, List.getElem?_append_left (by omega)]
    . rw [if_neg ha, if_neg ha]
  . have hnone : xs[i - a]? = none := by
      apply List.getElem?_eq_none
      omega
    have hsub : i - (a + xs.length) = i - a - xs.length := by omega
    rw [if_pos (by omega), if_pos (by omega), if_pos (by omega),
      List.getElem?_append_right (by omega), hnone, hsub, Option.getD_none]

theorem put_behind (m : Nat → α) {a i : Nat} {xs : List α} (h : a + xs.length ≤ i)
    : put m a xs i = m i := by
  have hnone : xs[i - a]? = none := by
    apply List.getElem?_eq_none
    omega
  unfold put
  rw [if_pos (by omega), hnone, Option.getD_none]

theorem slice_put (m : Nat → α) (a : Nat) (xs : List α)
    : slice (put m a xs) a xs.length = xs := by
  apply List.ext_getElem
  . simp [slice]
  . intro k _ hk
    simp [slice, put, hk]

/-- A block is appended if there is room for it. -/
def push (cap : Nat) (xs : List α) (x : α) : List α := if xs.length < cap then xs ++ [x] else xs

/-- The first block that does not fit leaves no room for a later one. -/
theorem push_take (cap : Nat) (xs : List α) (x : α)
    : push cap (xs.take cap) x = (xs ++ [x]).take cap := by
  unfold push
  rw [List.length_take]
  by_cases hroom : xs.length < cap
  . rw [if_pos (by omega), List.take_of_length_le (Nat.le_of_lt hroom), List.take_of_length_le]
    simp only [List.length_append, List.length_singleton]
    omega
  . rw [if_neg (by omega), List.take_append_of_le_length (by omega)]

end Fill
