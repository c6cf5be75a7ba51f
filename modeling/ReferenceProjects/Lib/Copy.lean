import Mathlib.Algebra.Ring.Nat
import Mathlib.Data.Nat.Cast.Defs
import Mathlib.Data.List.Basic

/-!
This module contains contiguous runs of cells in an address space, the copying of such runs to
another address space, and how both behave when a run is cut in pieces. Addresses are any type with
an addition of natural numbers, so they may wrap.
-/

namespace Copy

variable {α β : Type*}

section Cells

variable [AddMonoidWithOne α]

/--
The `n` consecutive addresses from `addr` on.
-/
def cells (addr : α) (n : Nat) : List α := (List.range n).map (fun (k : Nat) => addr + (k : α))

@[simp]
theorem cells_zero (addr : α) : cells addr 0 = [] := rfl

@[simp]
theorem length_cells (addr : α) (n : Nat) : (cells addr n).length = n := by simp [cells]

theorem cells_add (addr : α) (m n : Nat)
    : cells addr (m + n) = cells addr m ++ cells (addr + (m : α)) n := by
  simp only [cells, List.range_add, List.map_append, List.map_map]
  congr 1
  apply List.map_congr_left
  intro k _
  simp only [Function.comp_apply, Nat.cast_add, add_assoc]

theorem zip_cells [AddMonoidWithOne β] (addr : α) (addr' : β) (n : Nat)
    : (cells addr n).zip (cells addr' n)
        = (List.range n).map (fun (k : Nat) => (addr + (k : α), addr' + (k : β))) := by
  unfold cells
  rw [List.zip_map', List.map_congr_left]
  intro k _
  rfl

end Cells

/--
A contiguous run of cells.
-/
structure Segment (α : Type*) where
  addr : α
  len : Nat

def Segment.cells [AddMonoidWithOne α] (s : Segment α) : List α := Copy.cells s.addr s.len

/--
The number of cells of a list of segments.
-/
def total (segs : List (Segment α)) : Nat := (segs.map Segment.len).sum

@[simp]
theorem total_nil : total ([] : List (Segment α)) = 0 := rfl

@[simp]
theorem total_cons (s : Segment α) (segs : List (Segment α))
    : total (s :: segs) = s.len + total segs := rfl

theorem length_flatMap_cells [AddMonoidWithOne α] (segs : List (Segment α))
    : (segs.flatMap Segment.cells).length = total segs := by
  induction segs with
  | nil => rfl
  | cons s segs ih => simp [Segment.cells, ih]

/--
Copying `len` cells from `host` on to or from the cells from `dev` on.
-/
structure Move (α β : Type*) where
  host : α
  dev : β
  len : Nat
  deriving DecidableEq, Repr

/--
The pairs of cells that a move connects.
-/
def Move.pairs [AddMonoidWithOne α] [AddMonoidWithOne β] (m : Move α β) : List (α × β) :=
  (Copy.cells m.host m.len).zip (Copy.cells m.dev m.len)

def Move.hostSegment (m : Move α β) : Segment α := ⟨m.host, m.len⟩

/--
The moves that place a list of segments one behind the other from `dev` on.
-/
def place [AddMonoidWithOne β] (dev : β) : List (Segment α) → List (Move α β)
  | [] => []
  | s :: segs => ⟨s.addr, dev, s.len⟩ :: place (dev + (s.len : β)) segs

/--
The moves that place every segment at `dev` itself.
-/
def placeFixed (dev : β) (segs : List (Segment α)) : List (Move α β) :=
  segs.map (fun s => ⟨s.addr, dev, s.len⟩)

@[simp]
theorem hostSegment_place [AddMonoidWithOne β] (dev : β) (segs : List (Segment α))
    : (place dev segs).map Move.hostSegment = segs := by
  induction segs generalizing dev with
  | nil => rfl
  | cons s segs ih =>
    simp only [place, List.map_cons, ih]
    rfl

@[simp]
theorem hostSegment_placeFixed (dev : β) (segs : List (Segment α))
    : (placeFixed dev segs).map Move.hostSegment = segs := by
  induction segs with
  | nil => rfl
  | cons s segs ih =>
    simp only [placeFixed, List.map_cons, List.cons.injEq]
    exact ⟨rfl, ih⟩

/--
Placing segments one behind the other pairs their cells, in order, with consecutive addresses.
-/
theorem pairs_place [AddMonoidWithOne α] [AddMonoidWithOne β] (dev : β) (segs : List (Segment α))
    : (place dev segs).flatMap Move.pairs
        =
      (segs.flatMap Segment.cells).zip (cells dev (total segs)) := by
  induction segs generalizing dev with
  | nil => rfl
  | cons s segs ih =>
    simp only [place, List.flatMap_cons, total_cons, cells_add]
    rw [ih, List.zip_append (by simp [Segment.cells])]
    rfl

theorem place_append [AddMonoidWithOne β] (dev : β) (segs segs' : List (Segment α))
    : place dev (segs ++ segs')
        =
      place dev segs ++ place (dev + (total segs : β)) segs' := by
  induction segs generalizing dev with
  | nil => simp [place]
  | cons s segs ih =>
    simp only [List.cons_append, place, ih, total_cons, Nat.cast_add, add_assoc]

end Copy
