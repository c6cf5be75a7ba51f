import Mathlib.Logic.Function.Basic

/-!
This module contains counted loops that rewrite consecutive entries of an array, with arrays modelled
as total functions on the index.
-/

namespace Loop

variable {α : Type*}

/--
`for (i = 0; i < n; i++) a[base + i] = f(i, a[base + i]);`
-/
def rewrite (f : Nat → α → α) (base : Nat) (a : Nat → α) : Nat → Nat → α
  | 0 => a
  | n + 1 =>
    let a := rewrite f base a n
    Function.update a (base + n) (f n (a (base + n)))

@[simp]
theorem rewrite_zero (f : Nat → α → α) (base : Nat) (a : Nat → α)
    : rewrite f base a 0 = a := rfl

theorem rewrite_of_lt (f : Nat → α → α) (a : Nat → α) {base k : Nat} (n : Nat) (h : k < base)
    : rewrite f base a n k = a k := by
  induction n with
  | zero => rfl
  | succ n ih =>
    simp only [rewrite]
    rw [Function.update_of_ne (by omega)]
    exact ih

theorem rewrite_of_ge (f : Nat → α → α) (a : Nat → α) {base k : Nat} (n : Nat) (h : base + n ≤ k)
    : rewrite f base a n k = a k := by
  induction n with
  | zero => rfl
  | succ n ih =>
    simp only [rewrite]
    rw [Function.update_of_ne (by omega)]
    exact ih (by omega)

theorem rewrite_of_mem (f : Nat → α → α) (base : Nat) (a : Nat → α) {i n : Nat} (h : i < n)
    : rewrite f base a n (base + i) = f i (a (base + i)) := by
  induction n with
  | zero => omega
  | succ n ih =>
    simp only [rewrite]
    cases Nat.eq_or_lt_of_le (Nat.le_of_lt_succ h) with
    | inl heq =>
      subst heq
      rw [Function.update_self, rewrite_of_ge f a i (Nat.le_refl _)]
    | inr hlt =>
      rw [Function.update_of_ne (by omega)]
      exact ih hlt

end Loop
