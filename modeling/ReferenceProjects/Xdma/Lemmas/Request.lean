import ReferenceProjects.Xdma.Impl.Request
import ReferenceProjects.Xdma.Lemmas.Transfer

/-!
This module contains the specification of `xdma_init_request()`: how the segments of a scatter list
are cut into software descriptors, and when the count of them overflows.
-/

namespace Xdma

open Copy

def Scatterlist.segment (sg : Scatterlist) : Segment (BitVec 64) := ⟨sg.dmaAddress, sg.dmaLen⟩

/-- The number of bytes of a scatter list. -/
def sgTotal (sgl : List Scatterlist) : Nat := total (sgl.map Scatterlist.segment)

@[simp]
theorem sgTotal_nil : sgTotal [] = 0 := rfl

@[simp]
theorem sgTotal_cons (sg : Scatterlist) (sgl : List Scatterlist)
    : sgTotal (sg :: sgl) = sg.dmaLen + sgTotal sgl := rfl

/-- The entries that a segment longer than a descriptor asks for on top of its own. -/
def sgExtra (descBlenMax : Nat) (sg : Scatterlist) : Nat :=
  if sg.dmaLen > descBlenMax then (sg.dmaLen + descBlenMax - 1) / descBlenMax else 0

/-- The entries that a scatter list asks for, had an `int` no bound. -/
def sgEntries (descBlenMax : Nat) (sgl : List Scatterlist) : Nat :=
  sgl.length + (sgl.map (sgExtra descBlenMax)).sum

theorem toInt32_of_lt {n : Nat} (h : n < 2 ^ 31)
    : toInt32 n = n := by
  unfold toInt32
  rw [BitVec.toInt_ofInt, Int.bmod_def]
  split <;> omega

theorem toInt32_of_ge {n : Nat} (h : 2 ^ 31 ≤ n) (h' : n < 2 ^ 32)
    : toInt32 n < 0 := by
  unfold toInt32
  rw [BitVec.toInt_ofInt, Int.bmod_def]
  split <;> omega

theorem toInt32_toInt32 (x : Int)
    : toInt32 (toInt32 x) = toInt32 x := by
  unfold toInt32
  rw [BitVec.ofInt_toInt]

section Split

variable {b : Nat}

theorem splitSg_isSome (hb : 0 < b) (fuel : Nat) (addr : BitVec 64) (tlen : Nat) (h : tlen ≤ fuel)
    : ∃ sds, splitSg b fuel addr tlen = some sds := by
  induction fuel generalizing addr tlen with
  | zero =>
    obtain rfl : tlen = 0 := by omega
    exact ⟨[], by simp only [splitSg]⟩
  | succ fuel ih =>
    cases tlen with
    | zero => exact ⟨[], by simp only [splitSg]⟩
    | succ tlen =>
      simp only [splitSg]
      split
      . rcases ih (addr + BitVec.ofNat 64 b) (tlen + 1 - b) (by omega) with ⟨sds, hsds⟩
        exact ⟨_, by rw [hsds]; rfl⟩
      . exact ⟨_, rfl⟩

theorem splitSg_spec (hb : 0 < b) (fuel : Nat) (addr : BitVec 64) (tlen : Nat) {sds : List SwDesc}
    (h : splitSg b fuel addr tlen = some sds)
    : (∀ sd ∈ sds, 0 < sd.len ∧ sd.len ≤ b)
        ∧ (sds.map SwDesc.segment).flatMap Segment.cells = cells addr tlen := by
  induction fuel generalizing addr tlen sds with
  | zero =>
    cases tlen with
    | zero =>
      simp only [splitSg, Option.some.injEq] at h
      subst h
      simp
    | succ tlen => simp only [splitSg, reduceCtorEq] at h
  | succ fuel ih =>
    cases tlen with
    | zero =>
      simp only [splitSg, Option.some.injEq] at h
      subst h
      simp
    | succ tlen =>
      simp only [splitSg] at h
      split at h
      . next hlong =>
        simp only [Option.map_eq_some_iff] at h
        rcases h with ⟨rest, hrest, rfl⟩
        have hih := ih _ _ hrest
        constructor
        . intro sd hmem
          cases hmem with
          | head => exact ⟨hb, Nat.le_refl b⟩
          | tail _ hmem => exact hih.1 sd hmem
        . have hlen : tlen + 1 = b + (tlen + 1 - b) := by omega
          rw [List.map_cons, List.flatMap_cons, hih.2]
          conv => rhs; rw [hlen, cells_add]
          rfl
      . next hshort =>
        simp only [Option.some.injEq] at h
        subst h
        constructor
        . intro sd hmem
          rw [List.mem_singleton] at hmem
          subst hmem
          exact ⟨Nat.succ_pos tlen, by dsimp only; omega⟩
        . simp [SwDesc.segment, Segment.cells]

theorem splitSg_length (hb : 0 < b) (fuel : Nat) (addr : BitVec 64) (tlen : Nat)
    {sds : List SwDesc} (h : splitSg b fuel addr tlen = some sds)
    : sds.length ≤ (tlen + b - 1) / b := by
  induction fuel generalizing addr tlen sds with
  | zero =>
    cases tlen with
    | zero =>
      simp only [splitSg, Option.some.injEq] at h
      subst h
      exact Nat.zero_le _
    | succ tlen => simp only [splitSg, reduceCtorEq] at h
  | succ fuel ih =>
    cases tlen with
    | zero =>
      simp only [splitSg, Option.some.injEq] at h
      subst h
      exact Nat.zero_le _
    | succ tlen =>
      simp only [splitSg] at h
      split at h
      . next hlong =>
        simp only [Option.map_eq_some_iff] at h
        rcases h with ⟨rest, hrest, rfl⟩
        have hih := ih _ (tlen + 1 - b) hrest
        have hstep : (tlen + 1 + b - 1) / b = (tlen + 1 - b + b - 1) / b + 1 := by
          rw [← Nat.add_div_right _ hb]
          refine congrArg (· / b) ?_
          omega
        simp only [List.length_cons]
        omega
      . simp only [Option.some.injEq] at h
        subst h
        have : 1 ≤ (tlen + 1 + b - 1) / b := (Nat.one_le_div_iff hb).mpr (by omega)
        simpa using this

theorem splitSg_length_le_sgExtra (hb : 0 < b) (sg : Scatterlist) {sds : List SwDesc}
    (h : splitSg b sg.dmaLen sg.dmaAddress sg.dmaLen = some sds)
    : sds.length ≤ 1 + sgExtra b sg := by
  have hlen := splitSg_length hb _ _ _ h
  unfold sgExtra
  split
  . omega
  . have : (sg.dmaLen + b - 1) / b ≤ 1 := by
      rw [← Nat.lt_succ_iff, Nat.div_lt_iff_lt_mul hb]
      omega
    omega

/--
The second loop of `xdma_init_request()` ends, and the software descriptors that it fills in are not
empty, fit a descriptor, cover the scatter list in order, and fit the entries asked for.
-/
theorem splitSgl_spec (hb : 0 < b) (sgl : List Scatterlist)
    : ∃ sds, splitSgl b sgl = some sds
        ∧ (∀ sd ∈ sds, 0 < sd.len ∧ sd.len ≤ b)
        ∧ (sds.map SwDesc.segment).flatMap Segment.cells
            = (sgl.map Scatterlist.segment).flatMap Segment.cells
        ∧ sds.length ≤ sgEntries b sgl := by
  induction sgl with
  | nil => exact ⟨[], rfl, by simp, rfl, Nat.zero_le _⟩
  | cons sg sgl ih =>
    rcases splitSg_isSome hb sg.dmaLen sg.dmaAddress sg.dmaLen (Nat.le_refl _) with ⟨head, hhead⟩
    rcases ih with ⟨tail, htail, hmem, hcells, hlen⟩
    have hspec := splitSg_spec hb _ _ _ hhead
    have hhlen := splitSg_length_le_sgExtra hb sg hhead
    refine ⟨head ++ tail, ?_, ?_, ?_, ?_⟩
    . simp only [splitSgl, hhead, htail]
      rfl
    . intro sd hsd
      rw [List.mem_append] at hsd
      cases hsd with
      | inl hsd => exact hspec.1 sd hsd
      | inr hsd => exact hmem sd hsd
    . rw [List.map_append, List.flatMap_append, hspec.2, hcells]
      rfl
    . simp only [sgEntries, List.length_append, List.length_cons, List.map_cons, List.sum_cons]
        at hlen ⊢
      omega

end Split

theorem swTotal_eq_sgTotal {sds : List SwDesc} {sgl : List Scatterlist}
    (h : (sds.map SwDesc.segment).flatMap Segment.cells
        = (sgl.map Scatterlist.segment).flatMap Segment.cells)
    : swTotal sds = sgTotal sgl := by
  have := congrArg List.length h
  rwa [length_flatMap_cells, length_flatMap_cells] at this

theorem length_le_swTotal (sds : List SwDesc) (h : ∀ sd ∈ sds, 0 < sd.len)
    : sds.length ≤ swTotal sds := by
  induction sds with
  | nil => exact Nat.zero_le _
  | cons sd sds ih =>
    have hhead := h sd (by simp)
    have hrest := ih (fun sd' hmem => h sd' (by simp [hmem]))
    simp only [List.length_cons, swTotal_cons]
    omega

theorem sgExtra_sum_le_sgTotal {b : Nat} (hb : 0 < b) (sgl : List Scatterlist)
    : (sgl.map (sgExtra b)).sum ≤ sgTotal sgl := by
  induction sgl with
  | nil => exact Nat.zero_le _
  | cons sg sgl ih =>
    have hhead : sgExtra b sg ≤ sg.dmaLen := by
      unfold sgExtra
      split
      . rw [← Nat.lt_succ_iff, Nat.div_lt_iff_lt_mul hb, Nat.succ_mul]
        have : sg.dmaLen ≤ sg.dmaLen * b := Nat.le_mul_of_pos_right _ hb
        omega
      . exact Nat.zero_le _
    simp only [List.map_cons, List.sum_cons, sgTotal_cons]
    omega

theorem dmaLen_le_sgTotal {sgl : List Scatterlist}
    : ∀ sg ∈ sgl, sg.dmaLen ≤ sgTotal sgl := by
  induction sgl with
  | nil =>
    intro sg hsg
    contradiction
  | cons sg sgl ih =>
    rw [List.forall_mem_cons, sgTotal_cons]
    refine ⟨Nat.le_add_right _ _, ?_⟩
    intro sg' hsg'
    have := ih sg' hsg'
    omega

/--
Where no sum wraps, the first loop counts the entries that the segments ask for.
-/
theorem extraDesc_eq {b : Nat} (hb : 0 < b) (sgl : List Scatterlist)
    (hround : ∀ sg ∈ sgl, b < sg.dmaLen → sg.dmaLen + b - 1 < 2 ^ 32) (extra : Nat)
    (h : extra + (sgl.map (sgExtra b)).sum < 2 ^ 31)
    : extraDesc b extra sgl = .ok ((extra + (sgl.map (sgExtra b)).sum : Nat) : Int) := by
  induction sgl generalizing extra with
  | nil => simp [extraDesc]
  | cons sg sgl ih =>
    rw [List.forall_mem_cons] at hround
    simp only [List.map_cons, List.sum_cons] at h ⊢
    unfold extraDesc
    split
    . next hlong =>
      have hdiv : (sg.dmaLen + b - 1) % 2 ^ 32 / b = sgExtra b sg := by
        simp only [sgExtra, hlong, ↓reduceIte]
        rw [Nat.mod_eq_of_lt (hround.1 hlong)]
      have hne : b ≠ 0 := by omega
      simp only [hne, ↓reduceIte, hdiv]
      rw [← Nat.cast_add, toInt32_of_lt (by omega), ih hround.2 _ (by omega), Nat.add_assoc]
    . next hshort =>
      have hzero : sgExtra b sg = 0 := by simp [sgExtra, hshort]
      rw [hzero, Nat.zero_add] at h ⊢
      exact ih hround.2 extra h

section InitRequest

section Limit

variable {b : Nat} {sgl : List Scatterlist} {extra : Int} {sds : List SwDesc}
variable (hextra : extraDesc b 0 (sgl.take (toInt32 sgl.length).toNat) = .ok extra)
variable (hsds : splitSgl b sgl = some sds) (epAddr : BitVec 64)

include hextra hsds

theorem xdmaInitRequest_of_le (h : toInt32 sds.length ≤ toInt32 (toInt32 sgl.length + extra))
    : xdmaInitRequest b (fun _ => true) sgl epAddr = .ok ⟨epAddr, 0, sds⟩ := by
  unfold xdmaInitRequest
  dsimp only
  rw [hextra]
  dsimp only
  rw [if_pos rfl, hsds]
  dsimp only
  rw [if_neg (not_lt.mpr h)]

theorem xdmaInitRequest_of_gt (h : toInt32 (toInt32 sgl.length + extra) < toInt32 sds.length)
    : xdmaInitRequest b (fun _ => true) sgl epAddr = .error .overlong := by
  unfold xdmaInitRequest
  dsimp only
  rw [hextra]
  dsimp only
  rw [if_pos rfl, hsds]
  dsimp only
  rw [if_pos h]

end Limit

variable {b : Nat} (hb : 0 < b) (hb' : b ≤ xdmaDescBlenMax) {sgl : List Scatterlist}
variable (htotal : sgTotal sgl < 2 ^ 31) (epAddr : BitVec 64)

include hb' htotal

theorem rounded_of_sgTotal
    : ∀ sg ∈ sgl, b < sg.dmaLen → sg.dmaLen + b - 1 < 2 ^ 32 := by
  intro sg hsg hlong
  have := dmaLen_le_sgTotal sg hsg
  simp only [xdmaDescBlenMax] at hb'
  omega

include hb

theorem xdmaInitRequest_ok (hcount : sgEntries b sgl < 2 ^ 31)
    : ∃ sds, xdmaInitRequest b (fun _ => true) sgl epAddr = .ok ⟨epAddr, 0, sds⟩
        ∧ (∀ sd ∈ sds, 0 < sd.len ∧ sd.len ≤ b)
        ∧ (sds.map SwDesc.segment).flatMap Segment.cells
            = (sgl.map Scatterlist.segment).flatMap Segment.cells := by
  rcases splitSgl_spec hb sgl with ⟨sds, hsds, hmem, hcells, hlen⟩
  have hsum : sgl.length + (sgl.map (sgExtra b)).sum < 2 ^ 31 := hcount
  have hextra := extraDesc_eq hb sgl (rounded_of_sgTotal hb' htotal) 0 (by omega)
  have hlength := toInt32_of_lt (by omega : sgl.length < 2 ^ 31)
  rw [Nat.zero_add] at hextra
  refine ⟨sds, ?_, hmem, hcells⟩
  refine xdmaInitRequest_of_le (?_ : _ = Except.ok ((sgl.map (sgExtra b)).sum : Int)) hsds epAddr ?_
  . rw [hlength, Int.toNat_natCast, List.take_length]
    exact hextra
  . rw [hlength, ← Nat.cast_add, toInt32_of_lt hsum, toInt32_of_lt (by omega)]
    exact Int.ofNat_le.mpr hlen

theorem xdmaInitRequest_overlong (hn : sgl.length < 2 ^ 32) (hcount : 2 ^ 31 ≤ sgEntries b sgl)
    : xdmaInitRequest b (fun _ => true) sgl epAddr = .error .overlong := by
  rcases splitSgl_spec hb sgl with ⟨sds, hsds, hmem, hcells, _⟩
  have hlen := length_le_swTotal sds (fun sd hsd => (hmem sd hsd).1)
  rw [swTotal_eq_sgTotal hcells] at hlen
  have hle := sgExtra_sum_le_sgTotal hb sgl
  have hsum : 2 ^ 31 ≤ sgl.length + (sgl.map (sgExtra b)).sum := hcount
  have hpos := toInt32_of_lt (by omega : sds.length < 2 ^ 31)
  by_cases hbig : 2 ^ 31 ≤ sgl.length
  . -- no segment is counted, `max` is negative already
    have hneg := toInt32_of_ge hbig hn
    have hnone : (toInt32 sgl.length).toNat = 0 := by omega
    have hextra : extraDesc b 0 (sgl.take (toInt32 sgl.length).toNat) = .ok 0 := by
      rw [hnone, List.take_zero]
      rfl
    refine xdmaInitRequest_of_gt hextra hsds epAddr ?_
    rw [Int.add_zero, toInt32_toInt32, hpos]
    exact lt_of_lt_of_le hneg (Int.natCast_nonneg _)
  . have hextra := extraDesc_eq hb sgl (rounded_of_sgTotal hb' htotal) 0 (by omega)
    have hlength := toInt32_of_lt (by omega : sgl.length < 2 ^ 31)
    have hneg := toInt32_of_ge hsum (by omega)
    rw [Nat.zero_add] at hextra
    refine xdmaInitRequest_of_gt (?_ : _ = Except.ok ((sgl.map (sgExtra b)).sum : Int)) hsds epAddr ?_
    . rw [hlength, Int.toNat_natCast, List.take_length]
      exact hextra
    . rw [hlength, ← Nat.cast_add, hpos]
      exact lt_of_lt_of_le hneg (Int.natCast_nonneg _)

end InitRequest

end Xdma
