import Mathlib.Data.BitVec
import Mathlib.Data.List.Pairwise

/-!
This module contains how the bits of a request are served: whoever in a row has a bit that is asked for is
served, and his bits are cleared, until no bit is left.
-/

namespace Dispatch

variable {ι : Type*} {w : Nat} (bit : ι → BitVec w) (present : ι → Bool)

/-- Those of a list that are served for a request, in order. -/
def dispatch : List ι → BitVec w → List ι
  | [], _ => []
  | x :: xs, mask =>
    if mask = 0 then
      []
    else if bit x &&& mask ≠ 0 ∧ present x then
      x :: dispatch xs (mask &&& ~~~bit x)
    else
      dispatch xs mask

/-- Clearing the bits of somebody leaves those of everybody else as they are. -/
theorem and_clear_of_disjoint {a b : BitVec w} (h : a &&& b = 0) (mask : BitVec w)
    : b &&& (mask &&& ~~~a) = b &&& mask := by
  apply BitVec.eq_of_getLsbD_eq
  intro i hi
  have hbit := congrArg (fun x => x.getLsbD i) h
  simp only [BitVec.getLsbD_and, BitVec.getLsbD_zero, BitVec.ofNat_eq_ofNat] at hbit
  simp only [BitVec.getLsbD_and, BitVec.getLsbD_not, hi, decide_true, Bool.true_and]
  cases ha : a.getLsbD i with
  | true =>
    rw [ha, Bool.true_and] at hbit
    rw [hbit]
    simp
  | false => simp

/--
When nobody shares a bit, those who are served are those with a bit that is asked for, each of them once.
-/
theorem dispatch_eq_filter {xs : List ι} (mask : BitVec w)
    (hdisj : xs.Pairwise (fun x y => present x = true → present y = true → bit x &&& bit y = 0))
    : dispatch bit present xs mask = xs.filter (fun x => present x && bit x &&& mask != 0) := by
  induction xs generalizing mask with
  | nil => rfl
  | cons x xs ih =>
    rw [List.pairwise_cons] at hdisj
    unfold dispatch
    split
    . next hzero =>
      rw [hzero]
      simp
    . split
      . next hserved =>
        rw [ih _ hdisj.2, List.filter_cons_of_pos (by simpa [and_comm] using hserved)]
        congr 1
        apply List.filter_congr
        intro y hy
        cases hpresent : present y with
        | false => rfl
        | true => rw [and_clear_of_disjoint (hdisj.1 y hy hserved.2 hpresent)]
      . next hskipped =>
        rw [ih _ hdisj.2, List.filter_cons_of_neg (by simpa [and_comm, imp_not_comm] using hskipped)]

theorem mem_dispatch {xs : List ι} {mask : BitVec w} {x : ι}
    (hdisj : xs.Pairwise (fun x y => present x = true → present y = true → bit x &&& bit y = 0))
    : x ∈ dispatch bit present xs mask ↔ x ∈ xs ∧ present x = true ∧ bit x &&& mask ≠ 0 := by
  rw [dispatch_eq_filter bit present mask hdisj, List.mem_filter]
  simp

end Dispatch
