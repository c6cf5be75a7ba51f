import Mathlib.Data.List.Nodup

/-!
This module contains ledgers: calls that acquire and release resources, what is held after them, and
the discipline that nothing is acquired while it is held, or released while it is not.
-/

namespace Ledger

/-- A call: an attempt to acquire with its success, or a release. -/
inductive Call (ρ : Type*) where
  | acquire (r : ρ) (ok : Bool)
  | release (r : ρ)
  deriving DecidableEq, Repr

variable {ρ : Type*}

/-- The same call for the resource that a name stands for. -/
def Call.map {τ : Type*} (f : ρ → τ) : Call ρ → Call τ
  | .acquire r ok => .acquire (f r) ok
  | .release r => .release (f r)

/--
Acquire the resources of a list one after another, up to the first that is refused.
-/
def acquireAll (ok : ρ → Bool) : List ρ → List (Call ρ) → List (Call ρ)
  | [], calls => calls
  | r :: rs, calls =>
    if ok r then
      acquireAll ok rs (.acquire r true :: calls)
    else
      .acquire r false :: calls

/--
Release the resources of a list one after another.
-/
def releaseAll : List ρ → List (Call ρ) → List (Call ρ)
  | [], calls => calls
  | r :: rs, calls => releaseAll rs (.release r :: calls)

theorem acquireAll_cons (ok : ρ → Bool) (r : ρ) (rs : List ρ) (calls : List (Call ρ))
    : acquireAll ok (r :: rs) calls
        =
      if ok r then acquireAll ok rs (.acquire r true :: calls) else .acquire r false :: calls := rfl

/-- After a refusal nothing more is asked for. -/
theorem acquireAll_append (ok : ρ → Bool) (rs rs' : List ρ) (calls : List (Call ρ))
    : acquireAll ok (rs ++ rs') calls
        =
      if rs.all ok then acquireAll ok rs' (acquireAll ok rs calls) else acquireAll ok rs calls := by
  induction rs generalizing calls with
  | nil => rfl
  | cons r rs ih =>
    rw [List.cons_append, acquireAll_cons, acquireAll_cons, List.all_cons]
    cases ok r with
    | true =>
      simp only [↓reduceIte, Bool.true_and]
      apply ih
    | false => simp

theorem releaseAll_append (rs rs' : List ρ) (calls : List (Call ρ))
    : releaseAll (rs ++ rs') calls = releaseAll rs' (releaseAll rs calls) := by
  induction rs generalizing calls with
  | nil => rfl
  | cons r rs ih => apply ih

variable [DecidableEq ρ]

/--
What is held after some calls, the latest first.
-/
def held : List (Call ρ) → List ρ
  | [] => []
  | .acquire r ok :: calls => if ok then r :: held calls else held calls
  | .release r :: calls => (held calls).erase r

/--
Every call keeps to the discipline.
-/
def Sound : List (Call ρ) → Prop
  | [] => True
  | .acquire r _ :: calls => r ∉ held calls ∧ Sound calls
  | .release r :: calls => r ∈ held calls ∧ Sound calls

def decidableSound : (calls : List (Call ρ)) → Decidable (Sound calls)
  | [] => .isTrue trivial
  | .acquire r _ :: calls =>
    have := decidableSound calls
    inferInstanceAs (Decidable (r ∉ held calls ∧ Sound calls))
  | .release r :: calls =>
    have := decidableSound calls
    inferInstanceAs (Decidable (r ∈ held calls ∧ Sound calls))

instance (calls : List (Call ρ)) : Decidable (Sound calls) := decidableSound calls

section Acquire

theorem held_acquireAll (ok : ρ → Bool) (rs : List ρ) (calls : List (Call ρ))
    : held (acquireAll ok rs calls) = (rs.takeWhile ok).reverse ++ held calls := by
  induction rs generalizing calls with
  | nil => rfl
  | cons r rs ih =>
    rw [acquireAll_cons]
    split
    . next hok =>
      rw [ih, List.takeWhile_cons_of_pos hok]
      simp [held]
    . next hok =>
      rw [List.takeWhile_cons_of_neg hok]
      simp [held]

/-- Nothing that is acquired may be held already, and none of it may come twice. -/
theorem sound_acquireAll (ok : ρ → Bool) {rs : List ρ} {calls : List (Call ρ)} (h : Sound calls)
    (hnodup : rs.Nodup) (hnew : ∀ r ∈ rs, r ∉ held calls)
    : Sound (acquireAll ok rs calls) := by
  induction rs generalizing calls with
  | nil => apply h
  | cons r rs ih =>
    rw [List.nodup_cons] at hnodup
    rw [List.forall_mem_cons] at hnew
    rw [acquireAll_cons]
    split
    . apply ih
      . exact ⟨hnew.1, h⟩
      . apply hnodup.2
      . intro q hq
        simp only [held, ↓reduceIte, List.mem_cons, not_or]
        refine ⟨?_, hnew.2 q hq⟩
        intro heq
        apply hnodup.1
        rw [← heq]
        apply hq
    . exact ⟨hnew.1, h⟩

theorem sound_of_acquireAll {ok : ρ → Bool} {rs : List ρ} {calls : List (Call ρ)}
    (h : Sound (acquireAll ok rs calls))
    : Sound calls := by
  induction rs generalizing calls with
  | nil => apply h
  | cons r rs ih =>
    rw [acquireAll_cons] at h
    split at h
    . exact (ih h).2
    . exact h.2

/-- The first resource is asked for in any case. -/
theorem not_mem_held_of_acquireAll {ok : ρ → Bool} {r : ρ} {rs : List ρ} {calls : List (Call ρ)}
    (h : Sound (acquireAll ok (r :: rs) calls))
    : r ∉ held calls := by
  rw [acquireAll_cons] at h
  split at h
  . exact (sound_of_acquireAll h).1
  . exact h.1

end Acquire

section Release

theorem sound_releaseAll {rs : List ρ} {calls : List (Call ρ)} (h : Sound calls)
    (hnodup : rs.Nodup) (hheld : ∀ r ∈ rs, r ∈ held calls)
    : Sound (releaseAll rs calls) := by
  induction rs generalizing calls with
  | nil => apply h
  | cons r rs ih =>
    rw [List.nodup_cons] at hnodup
    rw [List.forall_mem_cons] at hheld
    apply ih
    . exact ⟨hheld.1, h⟩
    . apply hnodup.2
    . intro q hq
      apply (List.mem_erase_of_ne ?_).mpr (hheld.2 q hq)
      intro heq
      apply hnodup.1
      rw [← heq]
      apply hq

/-- What is released was held before. -/
theorem sound_of_releaseAll {rs : List ρ} {calls : List (Call ρ)} (h : Sound (releaseAll rs calls))
    : Sound calls ∧ ∀ r ∈ rs, r ∈ held calls := by
  induction rs generalizing calls with
  | nil => exact ⟨h, by simp⟩
  | cons r rs ih =>
    have hrest := ih h
    refine ⟨hrest.1.2, ?_⟩
    rw [List.forall_mem_cons]
    refine ⟨hrest.1.1, ?_⟩
    intro q hq
    apply List.mem_of_mem_erase (hrest.2 q hq)

theorem mem_held_release_of_ne {calls : List (Call ρ)} {r q : ρ} (h : r ∈ held calls) (hne : r ≠ q)
    : r ∈ held (.release q :: calls) :=
  (List.mem_erase_of_ne hne).mpr h

/-- What is held stays held under calls that do not release it. -/
theorem mem_held_append {calls' calls : List (Call ρ)} {r : ρ} (h : r ∈ held calls)
    (hkept : Call.release r ∉ calls')
    : r ∈ held (calls' ++ calls) := by
  induction calls' with
  | nil => apply h
  | cons call calls' ih =>
    rw [List.mem_cons, not_or] at hkept
    have hrest := ih hkept.2
    rw [List.cons_append]
    cases call with
    | acquire q ok =>
      unfold held
      split
      . apply List.mem_cons_of_mem _ hrest
      . apply hrest
    | release q =>
      apply mem_held_release_of_ne hrest
      intro heq
      apply hkept.1
      rw [heq]

/-- Releasing all that is held leaves nothing. -/
theorem held_releaseAll {rs : List ρ} {calls : List (Call ρ)} (h : rs.Perm (held calls))
    : held (releaseAll rs calls) = [] := by
  induction rs generalizing calls with
  | nil => apply List.nil_perm.mp h
  | cons r rs ih =>
    apply ih
    apply (List.cons_perm_iff_perm_erase.mp h).2

/-- Releasing some of what is held leaves the rest. -/
theorem perm_held_releaseAll {rs rest : List ρ} {calls : List (Call ρ)}
    (h : (held calls).Perm (rs ++ rest))
    : (held (releaseAll rs calls)).Perm rest := by
  induction rs generalizing calls with
  | nil => apply h
  | cons r rs ih =>
    apply ih
    have herase := h.erase r
    rw [List.cons_append, List.erase_cons_head] at herase
    apply herase

/-- What was acquired last is given back first. -/
theorem sound_releaseAll_of_append {rs rest : List ρ} {calls : List (Call ρ)} (h : Sound calls)
    (hheld : held calls = rs ++ rest)
    : Sound (releaseAll rs calls) ∧ held (releaseAll rs calls) = rest := by
  induction rs generalizing calls with
  | nil => exact ⟨h, hheld⟩
  | cons r rs ih =>
    apply ih
    . refine ⟨?_, h⟩
      rw [hheld]
      apply List.mem_cons_self
    . unfold held
      rw [hheld, List.cons_append, List.erase_cons_head]

end Release

section Tracks

/-- Nothing is held twice. -/
theorem Sound.nodup {calls : List (Call ρ)} (h : Sound calls)
    : (held calls).Nodup := by
  induction calls with
  | nil => exact List.nodup_nil
  | cons call calls ih =>
    cases call with
    | acquire r ok =>
      unfold held
      split
      . exact List.nodup_cons.mpr ⟨h.1, ih h.2⟩
      . exact ih h.2
    | release r => exact (ih h.2).erase r

/--
The calls keep to the discipline, and what is held after them is what somebody's books say, who notes every
resource for himself.
-/
structure Tracks (owns : ρ → Prop) (calls : List (Call ρ)) : Prop where
  sound : Sound calls
  mem : ∀ r, r ∈ held calls ↔ owns r

variable {owns owns' : ρ → Prop} {calls : List (Call ρ)}

theorem Tracks.congr (h : Tracks owns calls) (heq : ∀ r, owns' r ↔ owns r)
    : Tracks owns' calls :=
  ⟨h.sound, fun r => (h.mem r).trans (heq r).symm⟩

theorem Tracks.acquire (h : Tracks owns calls) {r : ρ} (hr : ¬ owns r) {ok : Bool}
    (heq : ∀ q, owns' q ↔ owns q ∨ q = r ∧ ok = true)
    : Tracks owns' (.acquire r ok :: calls) := by
  refine ⟨⟨fun hheld => hr ((h.mem r).mp hheld), h.sound⟩, ?_⟩
  intro q
  rw [heq, ← h.mem]
  show q ∈ (if ok then r :: held calls else held calls) ↔ _
  cases ok with
  | true => simp [or_comm]
  | false => simp

theorem Tracks.release (h : Tracks owns calls) {r : ρ} (hr : owns r)
    (heq : ∀ q, owns' q ↔ owns q ∧ q ≠ r)
    : Tracks owns' (.release r :: calls) := by
  refine ⟨⟨(h.mem r).mpr hr, h.sound⟩, ?_⟩
  intro q
  rw [heq, ← h.mem]
  show q ∈ (held calls).erase r ↔ _
  rw [h.sound.nodup.mem_erase_iff, and_comm]

theorem Tracks.held_eq_nil (h : Tracks owns calls)
    : held calls = [] ↔ ∀ r, ¬ owns r := by
  rw [List.eq_nil_iff_forall_not_mem]
  exact forall_congr' (fun r => not_congr (h.mem r))

end Tracks

end Ledger
