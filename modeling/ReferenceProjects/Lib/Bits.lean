import Mathlib.Data.BitVec
import Mathlib.Data.List.Range

/-!
This module contains memory as a sequence of bits, the least significant bit of each byte first: words
that are loaded from it and stored to it, and how it is cut into the bits of successive words.
-/

namespace Bits

variable {w : Nat}

/-- A bit of the memory. -/
def bit (m : Nat → BitVec 8) (i : Nat) : Bool := (m (i / 8)).getLsbD (i % 8)

/-- The little-endian word of the first `n` bytes, with zeros above them. -/
def load (w : Nat) (m : Nat → BitVec 8) : (n : Nat) → BitVec w
  | 0 => 0
  | n + 1 => load w m n ||| (m n).setWidth w <<< (8 * n)

/-- A byte of a word. -/
def byte (x : BitVec w) (k : Nat) : BitVec 8 := (x >>> (8 * k)).setWidth 8

/-- A byte of a table of words of `b` bytes. -/
def tableByte (table : Nat → BitVec w) (b k : Nat) : BitVec 8 := byte (table (k / b)) (k % b)

/-- The memory after the first `n` bytes of a word were stored at `a`. -/
def store (m : Nat → BitVec 8) (a : Nat) (x : BitVec w) (n : Nat) : Nat → BitVec 8 :=
  fun i => if a ≤ i ∧ i < a + n then byte x (i - a) else m i

/-- The first `n` bytes of a word. -/
def toBytes (n : Nat) (x : BitVec w) : List (BitVec 8) := (List.range n).map (byte x)

/-- The `n` bits from `start` on. -/
def ofMem (m : Nat → BitVec 8) (start n : Nat) : List Bool := (List.range' start n).map (bit m)

/-- The `n` least significant bits of a word. -/
def ofWord (x : BitVec w) (n : Nat) : List Bool := (List.range n).map x.getLsbD

theorem bit_add (m : Nat → BitVec 8) (a i : Nat)
    : bit (fun k => m (a + k)) i = bit m (8 * a + i) := by
  have hdiv : (8 * a + i) / 8 = a + i / 8 := by omega
  have hmod : (8 * a + i) % 8 = i % 8 := by omega
  unfold bit
  rw [hdiv, hmod]

theorem ofMem_congr {m m' : Nat → BitVec 8} {n k : Nat} (hn : n ≤ 8 * k) (h : ∀ a < k, m a = m' a)
    : ofMem m 0 n = ofMem m' 0 n := by
  apply List.map_congr_left
  intro i hi
  rw [List.mem_range'_1] at hi
  unfold bit
  rw [h (i / 8) (by omega)]

theorem getLsbD_load (w : Nat) (m : Nat → BitVec 8) (n i : Nat)
    : (load w m n).getLsbD i = (decide (i < w) && decide (i < 8 * n) && bit m i) := by
  induction n with
  | zero => simp [load]
  | succ n ih =>
    unfold load
    rw [BitVec.getLsbD_or, ih, BitVec.getLsbD_shiftLeft, BitVec.getLsbD_setWidth]
    by_cases hw : i < w
    . by_cases hlow : i < 8 * n
      . have hnext : i < 8 * (n + 1) := by omega
        simp [hw, hlow, hnext]
      . by_cases hnext : i < 8 * (n + 1)
        . -- the bit is one of the byte that is added
          have hdiv : i / 8 = n := by omega
          have hmod : i % 8 = i - 8 * n := by omega
          have hsub : i - 8 * n < w := by omega
          simp [hw, hlow, hnext, hsub, bit, hdiv, hmod]
        . have hhigh : (m n).getLsbD (i - 8 * n) = false := by
            apply BitVec.getLsbD_of_ge
            omega
          simp [hw, hlow, hnext, hhigh]
    . simp [hw]

theorem load_congr {m m' : Nat → BitVec 8} {n : Nat} (h : ∀ k < n, m k = m' k)
    : load w m n = load w m' n := by
  induction n with
  | zero => rfl
  | succ n ih =>
    unfold load
    rw [ih (fun k hk => h k (by omega)), h n (Nat.lt_succ_self n)]

theorem byte_load (m : Nat → BitVec 8) {n k : Nat} (hk : k < n) (hw : 8 * k + 8 ≤ w)
    : byte (load w m n) k = m k := by
  apply BitVec.eq_of_getLsbD_eq
  intro i hi
  have hwide : 8 * k + i < w := by omega
  have hbits : 8 * k + i < 8 * n := by omega
  have hdiv : (8 * k + i) / 8 = k := by omega
  have hmod : (8 * k + i) % 8 = i := by omega
  unfold byte
  rw [BitVec.getLsbD_setWidth, BitVec.getLsbD_ushiftRight, getLsbD_load]
  unfold bit
  simp [hi, hwide, hbits, hdiv, hmod]

/-- A table that is filled with bytes word after word has them in its bytes. -/
theorem tableByte_load {table : Nat → BitVec w} {m : Nat → BitVec 8} {b n k : Nat} (hb : 0 < b)
    (hw : 8 * b ≤ w) (hk : k < n)
    (h : ∀ j, b * j < n → table j = load w (fun i => m (b * j + i)) (min b (n - b * j)))
    : tableByte table b k = m k := by
  have hsplit := Nat.div_add_mod k b
  have hmod := Nat.mod_lt k hb
  unfold tableByte
  rw [h (k / b) (by omega), byte_load _ (by omega) (by omega), hsplit]

/-- The low bits of a word are those of the memory that it was loaded from. -/
theorem ofWord_load (m : Nat → BitVec 8) {a n k : Nat} (hw : k ≤ w) (hn : k ≤ 8 * n)
    : ofWord (load w (fun i => m (a + i)) n) k = ofMem m (8 * a) k := by
  unfold ofWord ofMem
  rw [List.range'_eq_map_range, List.map_map]
  apply List.map_congr_left
  intro i hi
  rw [List.mem_range] at hi
  have hiw : i < w := by omega
  have hin : i < 8 * n := by omega
  rw [getLsbD_load, bit_add, Function.comp_apply]
  simp [hiw, hin]

/-- The first `j` blocks of `b` numbers of a range. -/
theorem flatMap_blocks (b start n j : Nat)
    : (List.range j).flatMap (fun k => List.range' (start + b * k) (min b (n - b * k)))
        = List.range' start (min (b * j) n) := by
  induction j with
  | zero => simp
  | succ j ih =>
    rw [List.range_succ, List.flatMap_append, ih, List.flatMap_singleton, Nat.mul_succ]
    by_cases hle : b * j ≤ n
    . rw [Nat.min_eq_left hle, List.range'_append_1]
      congr 1
      omega
    . have hmin : min b (n - b * j) = 0 := by omega
      rw [hmin, List.range'_zero, List.append_nil]
      congr 1
      omega

/-- Memory is the bits of its words one after another. -/
theorem flatMap_ofMem (m : Nat → BitVec 8) {b n j : Nat} (hj : n ≤ b * j)
    : (List.range j).flatMap (fun k => ofMem m (b * k) (min b (n - b * k))) = ofMem m 0 n := by
  have hblocks := congrArg (List.map (bit m)) (flatMap_blocks b 0 n j)
  rw [List.map_flatMap, Nat.min_eq_right hj] at hblocks
  simp only [Nat.zero_add] at hblocks
  exact hblocks

/-- A table of `b` columns read line by line. -/
theorem flatMap_lines {α : Type*} (f : Nat → Nat → α) {b : Nat} (hb : 0 < b) (j : Nat)
    : (List.range j).flatMap (fun k => (List.range b).map (f k))
        = (List.range (b * j)).map (fun i => f (i / b) (i % b)) := by
  induction j with
  | zero => simp
  | succ j ih =>
    rw [List.range_succ, List.flatMap_append, ih, List.flatMap_singleton, Nat.mul_succ,
      List.range_add, List.map_append, List.map_map]
    congr 1
    apply List.map_congr_left
    intro i hi
    rw [List.mem_range] at hi
    rw [Function.comp_apply, Nat.mul_add_div hb, Nat.div_eq_of_lt hi, Nat.mul_add_mod,
      Nat.mod_eq_of_lt hi, Nat.add_zero]

theorem store_outside (m : Nat → BitVec 8) {a : Nat} (x : BitVec w) {n i : Nat}
    (h : i < a ∨ a + n ≤ i)
    : store m a x n i = m i := by
  unfold store
  rw [if_neg (by omega)]

theorem store_inside (m : Nat → BitVec 8) (a : Nat) (x : BitVec w) {n k : Nat} (h : k < n)
    : store m a x n (a + k) = byte x k := by
  unfold store
  rw [if_pos (by omega), Nat.add_sub_cancel_left]

end Bits
