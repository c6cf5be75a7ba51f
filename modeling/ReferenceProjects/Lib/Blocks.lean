import Mathlib.Algebra.BigOperators.Group.List.Basic
import Mathlib.Data.List.Range
import Mathlib.Data.Nat.ModEq

/-!
This module contains ranges of addresses that are cut at the multiples of a block size: how many pieces
there are, that each of them lies in one block, that together they are the range, and which divisors of
the block size divide the places and lengths of the parts that are cut so.
-/

namespace Blocks

/-- A part of one block. -/
structure Piece where
  block : Nat
  offset : Nat
  length : Nat
  deriving DecidableEq, Repr

variable (b : Nat)

/-- The addresses of a piece. -/
def Piece.range (p : Piece) : List Nat := List.range' (p.block * b + p.offset) p.length

/-- The piece is not empty and does not leave its block. -/
structure Piece.Inside (p : Piece) : Prop where
  nonempty : 0 < p.length
  inside : p.offset + p.length ≤ b

/-- The first `n` pieces of the range of `len` addresses from `start` on, and the length of the rest. -/
def pieces : (n start len : Nat) → List Piece × Nat
  | 0, _, len => ([], len)
  | n + 1, start, len =>
    let length := min (b - start % b) len
    let (rest, left) := pieces n (start + length) (len - length)
    (⟨start / b, start % b, length⟩ :: rest, left)

/-- The number of blocks that a range touches, an empty one at the start of a block none. -/
def count (start len : Nat) : Nat := (start % b + len + (b - 1)) / b

variable {b}

theorem length_pieces (n start len : Nat)
    : (pieces b n start len).1.length = n := by
  induction n generalizing start len with
  | zero => rfl
  | succ n ih =>
    simp only [pieces, List.length_cons, ih]

/--
What is left of a range after its first piece starts a block, unless nothing is left.
-/
theorem start_next (hb : 0 < b) {start len : Nat} (hlen : b - start % b < len)
    : (start + min (b - start % b) len) % b = 0
      ∧ (start + min (b - start % b) len) / b = start / b + 1 := by
  have hmod := Nat.mod_lt start hb
  have hdiv := Nat.div_add_mod start b
  have heq : start + min (b - start % b) len = b * (start / b + 1) := by
    rw [Nat.min_eq_left (Nat.le_of_lt hlen), Nat.mul_add]
    omega
  rw [heq]
  exact ⟨Nat.mul_mod_right b _, Nat.mul_div_cancel_left _ hb⟩

theorem count_first (hb : 0 < b) {start len : Nat} (hlen : 0 < len) (hfirst : len ≤ b - start % b)
    : count b start len = 1 := by
  have hmod := Nat.mod_lt start hb
  unfold count
  apply Nat.div_eq_of_lt_le
  . omega
  . omega

theorem count_next (hb : 0 < b) {start len : Nat} (hlen : b - start % b < len)
    : count b start len
      = count b (start + min (b - start % b) len) (len - min (b - start % b) len) + 1 := by
  have hmod := Nat.mod_lt start hb
  have hnext := start_next hb hlen
  unfold count
  rw [hnext.1, ← Nat.add_div_right _ hb, Nat.min_eq_left (Nat.le_of_lt hlen)]
  congr 1
  omega

/--
As many pieces as the range touches blocks are the range, each of them inside a block, the `i`-th one
in the `i`-th block from the first on.
-/
theorem pieces_count (hb : 0 < b) (n start len : Nat) (hlen : 0 < len)
    (hn : n = count b start len)
    : (pieces b n start len).2 = 0
      ∧ (∀ p ∈ (pieces b n start len).1, p.Inside b)
      ∧ (pieces b n start len).1.flatMap (Piece.range b) = List.range' start len
      ∧ (pieces b n start len).1.map Piece.block = List.range' (start / b) n := by
  induction n generalizing start len with
  | zero =>
    unfold count at hn
    have := Nat.div_pos (show b ≤ start % b + len + (b - 1) by omega) hb
    omega
  | succ n ih =>
    have hmod := Nat.mod_lt start hb
    have haddr : start / b * b + start % b = start := Nat.div_add_mod' start b
    by_cases hfirst : len ≤ b - start % b
    . -- the range ends in its first block
      rw [count_first hb hlen hfirst] at hn
      obtain rfl : n = 0 := by omega
      simp only [pieces, Nat.min_eq_right hfirst, Nat.sub_self, List.mem_singleton, forall_eq,
        List.flatMap_cons, List.flatMap_nil, List.append_nil, List.map_cons, List.map_nil, Piece.range,
        haddr]
      refine ⟨trivial, ⟨hlen, by dsimp only; omega⟩, trivial, rfl⟩
    . rw [Nat.not_le] at hfirst
      have hnext := start_next hb hfirst
      have hcount := count_next hb hfirst
      have hih := ih (start + min (b - start % b) len) (len - min (b - start % b) len)
        (by rw [Nat.min_eq_left (Nat.le_of_lt hfirst)]; omega) (by omega)
      rw [hnext.2] at hih
      simp only [pieces, List.mem_cons, forall_eq_or_imp, List.flatMap_cons, List.map_cons]
      refine ⟨hih.1, ⟨⟨?_, ?_⟩, hih.2.1⟩, ?_, ?_⟩
      . dsimp only
        omega
      . dsimp only
        omega
      . rw [hih.2.2.1]
        simp only [Piece.range, haddr]
        rw [List.range'_append_1]
        congr 1
        omega
      . rw [hih.2.2.2]
        rfl

theorem pieces_length (n start len : Nat)
    : ((pieces b n start len).1.map Piece.length).sum + (pieces b n start len).2 = len := by
  induction n generalizing start len with
  | zero =>
    simp only [pieces, List.map_nil, List.sum_nil, Nat.zero_add]
  | succ n ih =>
    have hrest := ih (start + min (b - start % b) len) (len - min (b - start % b) len)
    simp only [pieces, List.map_cons, List.sum_cons]
    omega

/-- A part of a range that was moved to `place`. -/
structure Extent where
  place : Nat
  length : Nat
  deriving DecidableEq, Repr

/--
The parts follow each other from `start` on, each of them was moved by a multiple of the block size, and
all but the last one end at the end of a block.
-/
def Tiled (b : Nat) : (start : Nat) → List Extent → Prop
  | _, [] => True
  | start, x :: xs =>
    x.place ≡ start [MOD b] ∧ (xs ≠ [] → b ∣ start + x.length) ∧ Tiled b (start + x.length) xs

/-- The extent of a piece: it is moved into the first block. -/
def Piece.extent (p : Piece) : Extent := ⟨p.offset, p.length⟩

theorem tiled_pieces (hb : 0 < b) (n start len : Nat) (hn : n ≤ count b start len)
    : Tiled b start ((pieces b n start len).1.map Piece.extent) := by
  induction n generalizing start len with
  | zero => trivial
  | succ n ih =>
    have hplace : start % b ≡ start [MOD b] := Nat.mod_modEq start b
    cases n with
    | zero =>
      refine ⟨hplace, ?_, trivial⟩
      intro hne
      contradiction
    | succ n =>
      have hmod := Nat.mod_lt start hb
      have htwo : 2 * b ≤ start % b + len + (b - 1) := by
        rw [← Nat.le_div_iff_mul_le hb]
        unfold count at hn
        omega
      have hlong : b - start % b < len := by omega
      have hcount := count_next hb hlong
      have hrest := ih (start + min (b - start % b) len) (len - min (b - start % b) len) (by omega)
      refine ⟨hplace, ?_, hrest⟩
      intro _
      apply Nat.dvd_of_mod_eq_zero
      apply (start_next hb hlong).1

theorem Tiled.merge {start : Nat} {x : Extent} {ys zs : List Extent}
    (h : Tiled b start (x :: ys ++ zs))
    : Tiled b start (⟨x.place, ((x :: ys).map Extent.length).sum⟩ :: zs) := by
  induction ys generalizing start x with
  | nil =>
    simp only [List.map_cons, List.map_nil, List.sum_cons, List.sum_nil, Nat.add_zero]
    exact h
  | cons y ys ih =>
    have hrest := ih h.2.2
    unfold Tiled at hrest ⊢
    dsimp only at hrest ⊢
    rw [Nat.add_assoc] at hrest
    exact ⟨h.1, hrest.2⟩

theorem Tiled.dvd_place {d start : Nat} (hd : d ∣ b) (hstart : d ∣ start) {xs : List Extent}
    (h : Tiled b start xs)
    : ∀ x ∈ xs, d ∣ x.place := by
  induction xs generalizing start with
  | nil =>
    intro x hx
    contradiction
  | cons x xs ih =>
    rw [List.forall_mem_cons]
    constructor
    . rw [(h.1.of_dvd hd).dvd_iff (Nat.dvd_refl d)]
      apply hstart
    . by_cases hne : xs = []
      . rw [hne]
        intro y hy
        contradiction
      . apply ih (Nat.dvd_trans hd (h.2.1 hne)) h.2.2

theorem Tiled.dvd_length {d start : Nat} (hd : d ∣ b) (hstart : d ∣ start) {xs : List Extent}
    (h : Tiled b start xs) (htotal : d ∣ (xs.map Extent.length).sum)
    : ∀ x ∈ xs, d ∣ x.length := by
  induction xs generalizing start with
  | nil =>
    intro x hx
    contradiction
  | cons x xs ih =>
    rw [List.map_cons, List.sum_cons] at htotal
    rw [List.forall_mem_cons]
    by_cases hne : xs = []
    . subst hne
      refine ⟨htotal, ?_⟩
      intro y hy
      contradiction
    . have hend := Nat.dvd_trans hd (h.2.1 hne)
      have hx := (Nat.dvd_add_right hstart).mp hend
      exact ⟨hx, ih hend h.2.2 ((Nat.dvd_add_right hx).mp htotal)⟩

/--
Where a divisor of the block size divides the whole length, it divides that of each part exactly when
there is one part only or the range starts at a multiple of it.
-/
theorem Tiled.dvd_length_iff {d start : Nat} (hd : d ∣ b) {xs : List Extent} (h : Tiled b start xs)
    (htotal : d ∣ (xs.map Extent.length).sum)
    : (∀ x ∈ xs, d ∣ x.length) ↔ xs.length ≤ 1 ∨ d ∣ start := by
  constructor
  . intro hall
    match xs, h with
    | [], _ => exact .inl (Nat.zero_le _)
    | [_], _ => exact .inl (Nat.le_refl _)
    | x :: y :: xs, h =>
      right
      have hend := Nat.dvd_trans hd (h.2.1 (List.cons_ne_nil y xs))
      apply (Nat.dvd_add_left (hall x List.mem_cons_self)).mp hend
  . intro hcase
    cases hcase with
    | inl hone =>
      match xs with
      | [] =>
        intro x hx
        contradiction
      | [x] =>
        intro y hy
        rw [List.mem_singleton] at hy
        rw [hy]
        simpa only [List.map_cons, List.map_nil, List.sum_cons, List.sum_nil, Nat.add_zero] using htotal
      | _ :: _ :: _ => simp only [List.length_cons] at hone; omega
    | inr hstart => apply h.dvd_length hd hstart htotal

end Blocks
