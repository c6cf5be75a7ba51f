import Mathlib.Data.List.Basic

/-!
This module contains a text that is printed into memory piece by piece, each piece behind the one before
and with a terminator behind it, and how much memory that takes.
-/

namespace Sprint

variable {α : Type*}

/-- The length of the text, and the cells written so far with what was written to them. -/
structure Buf (α : Type*) where
  len : Nat
  writes : List (Int × α)
  deriving DecidableEq, Repr

def Buf.empty : Buf α := ⟨0, []⟩

/-- `len += sprintf(buf + len, text)` -/
def Buf.print (nul : α) (b : Buf α) (text : List α) : Buf α where
  len := b.len + text.length
  writes := b.writes ++ (text ++ [nul]).mapIdx (fun i c => (((b.len + i : Nat) : Int), c))

/-- `buf[len - 1] = c` -/
def Buf.patch (b : Buf α) (c : α) : Buf α := { b with writes := b.writes ++ [((b.len : Int) - 1, c)] }

/-- The terminator is the last cell that is written. -/
structure Buf.Covers (b : Buf α) : Prop where
  pos : 0 < b.len
  last : ∃ w ∈ b.writes, w.1 = b.len
  inside : ∀ w ∈ b.writes, 0 ≤ w.1 ∧ w.1 ≤ b.len

@[simp]
theorem len_empty
    : (Buf.empty : Buf α).len = 0 := rfl

@[simp]
theorem len_print (nul : α) (b : Buf α) (text : List α)
    : (b.print nul text).len = b.len + text.length := rfl

@[simp]
theorem len_patch (b : Buf α) (c : α)
    : (b.patch c).len = b.len := rfl

theorem mem_print {nul : α} {b : Buf α} {text : List α} {w : Int × α}
    (h : w ∈ (b.print nul text).writes)
    : w ∈ b.writes ∨ ((b.len : Int) ≤ w.1 ∧ w.1 ≤ (b.len + text.length : Nat)) := by
  unfold Buf.print at h
  rw [List.mem_append, List.mem_mapIdx] at h
  cases h with
  | inl hold => exact Or.inl hold
  | inr hnew =>
    obtain ⟨i, hi, hw⟩ := hnew
    rw [List.length_append, List.length_singleton] at hi
    rw [← hw]
    right
    dsimp only
    omega

theorem last_print (nul : α) (b : Buf α) (text : List α)
    : ∃ w ∈ (b.print nul text).writes, w.1 = (b.print nul text).len := by
  refine ⟨(((b.len + text.length : Nat) : Int), nul), ?_, rfl⟩
  apply List.mem_append_right
  rw [List.mem_mapIdx]
  exact ⟨text.length, by simp, by simp⟩

theorem Buf.Covers.start (nul : α) {text : List α} (h : text ≠ [])
    : (Buf.empty.print nul text).Covers where
  pos := by
    rw [len_print, len_empty, Nat.zero_add]
    exact List.length_pos_of_ne_nil h
  last := last_print nul _ text
  inside := by
    intro w hw
    cases mem_print hw with
    | inl hold => cases hold
    | inr hnew => exact hnew

theorem Buf.Covers.print {b : Buf α} (h : b.Covers) (nul : α) (text : List α)
    : (b.print nul text).Covers where
  pos := Nat.lt_of_lt_of_le h.pos (Nat.le_add_right _ _)
  last := last_print nul b text
  inside := by
    intro w hw
    rw [len_print]
    cases mem_print hw with
    | inl hold =>
      have hinside := h.inside w hold
      omega
    | inr hnew => omega

theorem Buf.Covers.patch {b : Buf α} (h : b.Covers) (c : α)
    : (b.patch c).Covers where
  pos := h.pos
  last := by
    obtain ⟨w, hw, hlast⟩ := h.last
    exact ⟨w, List.mem_append_left _ hw, hlast⟩
  inside := by
    intro w hw
    have hpos := h.pos
    cases List.mem_append.mp hw with
    | inl hold => exact h.inside w hold
    | inr hnew =>
      rw [List.mem_singleton] at hnew
      rw [hnew, len_patch]
      dsimp only
      omega

/-- The text and its terminator are inside of `cap` cells exactly if the text is shorter. -/
theorem Buf.Covers.inside_iff {b : Buf α} (h : b.Covers) (cap : Nat)
    : (∀ w ∈ b.writes, 0 ≤ w.1 ∧ w.1 < cap) ↔ b.len < cap := by
  constructor
  . intro hcap
    obtain ⟨w, hw, hlast⟩ := h.last
    have hlt := (hcap w hw).2
    omega
  . intro hlt w hw
    have hinside := h.inside w hw
    omega

end Sprint
