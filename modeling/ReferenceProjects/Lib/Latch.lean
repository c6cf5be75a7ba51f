import Mathlib.Tactic.TypeStar

/-!
This module contains latches that many consumers share: a producer raises the latch, a consumer first
looks at it and takes it down in a later step of its own, and others may act between the two.
-/

namespace Latch

variable {ι : Type*}

inductive Op (ι : Type*) where
  /-- the producer raises the latch -/
  | set
  /-- a consumer looks at it -/
  | look (i : ι)
  /-- a consumer takes it down -/
  | take (i : ι)
  deriving DecidableEq, Repr

/--
The latch after a history, the latest operation first.
-/
def raised : List (Op ι) → Bool
  | [] => false
  | .set :: _ => true
  | .look _ :: h => raised h
  | .take _ :: _ => false

/--
How often the latch was raised.
-/
def sets : List (Op ι) → Nat
  | [] => 0
  | .set :: h => sets h + 1
  | .look _ :: h => sets h
  | .take _ :: h => sets h

/--
How often a consumer took down a latch that was up.
-/
def served : List (Op ι) → Nat
  | [] => 0
  | .set :: h => served h
  | .look _ :: h => served h
  | .take _ :: h => (raised h).toNat + served h

/--
Since `i` last looked, somebody took the latch down and nobody has raised it again.
-/
def overtaken [DecidableEq ι] (i : ι) : List (Op ι) → Bool
  | [] => false
  | .set :: _ => false
  | .look j :: h => if j = i then false else overtaken i h
  | .take _ :: _ => true

/--
The consumer `i` has seen the latch up, and has neither looked nor taken since.
-/
inductive Seen (i : ι) : List (Op ι) → Prop where
  | look (h : List (Op ι)) (up : raised h = true) : Seen i (.look i :: h)
  | set (h : List (Op ι)) (seen : Seen i h) : Seen i (.set :: h)
  | lookOther (h : List (Op ι)) (j : ι) (other : j ≠ i) (seen : Seen i h) : Seen i (.look j :: h)
  | takeOther (h : List (Op ι)) (j : ι) (other : j ≠ i) (seen : Seen i h) : Seen i (.take j :: h)

/--
Every take that finds the latch up has a raise of its own, and so has the latch while it is up.
-/
theorem served_add_raised_le (h : List (Op ι))
    : served h + (raised h).toNat ≤ sets h := by
  induction h with
  | nil => apply Nat.le_refl
  | cons op h ih =>
    cases op with
    | set =>
      simp only [served, raised, sets, Bool.toNat_true]
      omega
    | look i => apply ih
    | take i =>
      simp only [served, raised, sets, Bool.toNat_false]
      omega

theorem served_le_sets (h : List (Op ι))
    : served h ≤ sets h := by
  have := served_add_raised_le h
  omega

/--
A raise that no take follows leaves the latch up.
-/
theorem raised_append {h later : List (Op ι)} (hraised : raised h = true)
    (hlater : ∀ i, .take i ∉ later)
    : raised (later ++ h) = true := by
  induction later with
  | nil => apply hraised
  | cons op later ih =>
    have hrest := ih (fun i hi => hlater i (.tail op hi))
    cases op with
    | set => rfl
    | look i => apply hrest
    | take i => exact absurd (.head later) (hlater i)

variable [DecidableEq ι] {i : ι}

/--
A consumer that saw the latch up finds it down exactly if it was overtaken.
-/
theorem Seen.overtaken_eq {h : List (Op ι)} (hseen : Seen i h)
    : overtaken i h = !raised h := by
  induction hseen with
  | look h up => simp only [overtaken, raised, up, ↓reduceIte, Bool.not_true]
  | set h seen ih => rfl
  | lookOther h j other seen ih => simp only [overtaken, raised, if_neg other, ih]
  | takeOther h j other seen ih => rfl

end Latch
