import Mathlib.Algebra.Order.BigOperators.Group.List
import Mathlib.Algebra.Order.Group.Nat
import ReferenceProjects.Xdma.Lemmas.Request

/-!
This module contains when the estimate that `xdma_init_request()` makes of its descriptors is one: its
first loop counts and its second loop writes, with arithmetic on words of 32 bits.
-/

namespace Xdma

/--
`xdma_init_request()` ends without a division error, estimates the entries that the scatter list asks
for, allocates that much and writes no more.
-/
def EstimateHolds (sizeofReq descBlenMax : Nat) (sgl : List Scatterlist) : Prop :=
  ∃ extra sdesc,
    extraDesc descBlenMax 0 (sgl.take (toInt32 sgl.length).toNat) = .ok extra
    ∧ splitSgl descBlenMax sgl = some sdesc
    ∧ let max := toInt32 (toInt32 sgl.length + extra)
      max = sgEntries descBlenMax sgl
      ∧ xdmaRequestSize sizeofReq (toUInt32 max) = sizeofReq + sgEntries descBlenMax sgl * 16
      ∧ (sdesc.length : Int) ≤ max

/--
There is a descriptor length to divide by, unless there is nothing to divide, no segment is so long that
rounding it up takes it past a word, and the memory that is asked for has a size of one word.
-/
structure EstimateFits (sizeofReq descBlenMax : Nat) (sgl : List Scatterlist) : Prop where
  divisor : descBlenMax ≠ 0 ∨ ∀ sg ∈ sgl, sg.dmaLen = 0
  rounded : ∀ sg ∈ sgl, descBlenMax < sg.dmaLen → sg.dmaLen + descBlenMax - 1 < 2 ^ 32
  size : sizeofReq + sgEntries descBlenMax sgl * 16 < 2 ^ 32

theorem xdmaModInit_le (descBlenMax : BitVec 32)
    : xdmaModInit descBlenMax ≤ xdmaDescBlenMax := by
  unfold xdmaModInit
  split
  . apply Nat.le_refl
  . next h =>
    have hle := BitVec.le_def.mp (BitVec.not_lt.mp h)
    rw [BitVec.toNat_ofNat] at hle
    unfold xdmaDescBlenMax at hle ⊢
    omega

section Words

variable {b : Nat}

def sgExtraWord (descBlenMax : Nat) (sg : Scatterlist) : Nat :=
  if sg.dmaLen > descBlenMax then (sg.dmaLen + descBlenMax - 1) % 2 ^ 32 / descBlenMax else 0

theorem sgExtraWord_le (sg : Scatterlist)
    : sgExtraWord b sg ≤ sgExtra b sg := by
  unfold sgExtraWord sgExtra
  split
  . apply Nat.div_le_div_right
    apply Nat.mod_le
  . apply Nat.le_refl

/--
A sum that wraps makes the estimate of its segment smaller.
-/
theorem rounded_of_sgExtraWord (hb : 0 < b) (hb' : b < 2 ^ 32) {sg : Scatterlist}
    (h : sgExtraWord b sg = sgExtra b sg) (hlong : b < sg.dmaLen)
    : sg.dmaLen + b - 1 < 2 ^ 32 := by
  unfold sgExtraWord sgExtra at h
  rw [if_pos hlong, if_pos hlong] at h
  by_contra hwrap
  rw [Nat.not_lt] at hwrap
  have hmod : (sg.dmaLen + b - 1) % 2 ^ 32 + 2 ^ 32 ≤ sg.dmaLen + b - 1 := by
    have := Nat.mod_add_div (sg.dmaLen + b - 1) (2 ^ 32)
    have := (Nat.one_le_div_iff (show 0 < 2 ^ 32 by decide)).mpr hwrap
    omega
  have hstep : (sg.dmaLen + b - 1) % 2 ^ 32 / b + 1 ≤ (sg.dmaLen + b - 1) / b := by
    rw [← Nat.add_div_right _ hb]
    apply Nat.div_le_div_right
    omega
  omega

theorem eq_of_sum_eq {f g : Scatterlist → Nat} {l : List Scatterlist} (hle : ∀ x, f x ≤ g x)
    (hsum : (l.map f).sum = (l.map g).sum)
    : ∀ x ∈ l, f x = g x := by
  induction l with
  | nil =>
    intro x hx
    contradiction
  | cons y l ih =>
    have hhead := hle y
    have htail : (l.map f).sum ≤ (l.map g).sum := List.sum_le_sum (fun x _ => hle x)
    rw [List.map_cons, List.map_cons, List.sum_cons, List.sum_cons] at hsum
    rw [List.forall_mem_cons]
    refine ⟨by omega, ih ?_⟩
    omega

end Words

section Extra

theorem toInt32_add (x y : Int)
    : toInt32 (toInt32 x + y) = toInt32 (x + y) := by
  unfold toInt32
  rw [BitVec.ofInt_add, BitVec.ofInt_toInt, ← BitVec.ofInt_add]

variable {b : Nat} {sgl : List Scatterlist}

theorem extraDesc_ok {extra x : Int} (hextra : toInt32 extra = extra)
    (h : extraDesc b extra sgl = .ok x)
    : x = toInt32 (extra + ((sgl.map (sgExtraWord b)).sum : Nat)) := by
  induction sgl generalizing extra with
  | nil =>
    cases h
    rw [List.map_nil, List.sum_nil, Nat.cast_zero, Int.add_zero, hextra]
  | cons sg sgl ih =>
    unfold extraDesc at h
    rw [List.map_cons, List.sum_cons]
    split at h
    . next hlong =>
      split at h
      . contradiction
      . have hword : sgExtraWord b sg = (sg.dmaLen + b - 1) % 2 ^ 32 / b := if_pos hlong
        rw [ih (toInt32_toInt32 _) h, hword, toInt32_add, Int.add_assoc, ← Nat.cast_add]
    . next hshort =>
      have hword : sgExtraWord b sg = 0 := if_neg hshort
      rw [ih hextra h, hword, Nat.zero_add]

/--
Without a length for the descriptors the second loop only ends if there is nothing to write.
-/
theorem dmaLen_of_splitSgl_zero {sdesc : List SwDesc} (h : splitSgl 0 sgl = some sdesc)
    : ∀ sg ∈ sgl, sg.dmaLen = 0 := by
  have hendless : ∀ fuel addr tlen sds, splitSg 0 fuel addr tlen = some sds → tlen = 0 := by
    intro fuel
    induction fuel with
    | zero =>
      intro addr tlen sds hsds
      cases tlen with
      | zero => rfl
      | succ tlen => simp only [splitSg, reduceCtorEq] at hsds
    | succ fuel ih =>
      intro addr tlen sds hsds
      cases tlen with
      | zero => rfl
      | succ tlen =>
        simp only [splitSg, Nat.succ_pos, ↓reduceIte, Option.map_eq_some_iff] at hsds
        obtain ⟨rest, hrest, _⟩ := hsds
        exact absurd (ih _ _ _ hrest) (by omega)
  induction sgl generalizing sdesc with
  | nil =>
    intro sg hsg
    contradiction
  | cons sg sgl ih =>
    simp only [splitSgl, Option.bind_eq_bind, Option.bind_eq_some_iff] at h
    obtain ⟨head, hhead, tail, htail, _⟩ := h
    rw [List.forall_mem_cons]
    exact ⟨hendless _ _ _ _ hhead, ih htail⟩

theorem splitSgl_of_dmaLen_zero (h : ∀ sg ∈ sgl, sg.dmaLen = 0)
    : splitSgl b sgl = some [] := by
  induction sgl with
  | nil => rfl
  | cons sg sgl ih =>
    rw [List.forall_mem_cons] at h
    have hhead : splitSg b sg.dmaLen sg.dmaAddress sg.dmaLen = some [] := by
      rw [h.1]
      simp only [splitSg]
    simp only [splitSgl, hhead, ih h.2]
    rfl

theorem extraDesc_of_dmaLen_zero (h : ∀ sg ∈ sgl, sg.dmaLen = 0) (extra : Int)
    : extraDesc b extra sgl = .ok extra ∧ (sgl.map (sgExtra b)).sum = 0 := by
  induction sgl with
  | nil => exact ⟨rfl, rfl⟩
  | cons sg sgl ih =>
    rw [List.forall_mem_cons] at h
    have hshort : ¬ sg.dmaLen > b := by omega
    have hextra : sgExtra b sg = 0 := if_neg hshort
    unfold extraDesc
    rw [if_neg hshort, List.map_cons, List.sum_cons, hextra, Nat.zero_add]
    apply ih h.2

end Extra

section Iff

variable {sizeofReq b : Nat} {sgl : List Scatterlist}

theorem toUInt32_of_lt {n : Nat} (h : n < 2 ^ 32)
    : toUInt32 n = n := by
  unfold toUInt32
  rw [BitVec.ofInt_natCast, BitVec.toNat_ofNat]
  omega

theorem toInt32_lt (x : Int)
    : toInt32 x < 2 ^ 31 := by
  unfold toInt32
  have := BitVec.toInt_lt (x := BitVec.ofInt 32 x)
  omega

theorem EstimateFits.holds (h : EstimateFits sizeofReq b sgl)
    : EstimateHolds sizeofReq b sgl := by
  have hsize := h.size
  have hcount : sgl.length + (sgl.map (sgExtra b)).sum = sgEntries b sgl := rfl
  have hlength : toInt32 sgl.length = sgl.length := toInt32_of_lt (by omega)
  have hmax : toInt32 ((sgl.length : Int) + ((sgl.map (sgExtra b)).sum : Nat)) = sgEntries b sgl := by
    rw [← Nat.cast_add, hcount]
    exact toInt32_of_lt (by omega)
  have hallocated : xdmaRequestSize sizeofReq (toUInt32 (sgEntries b sgl : Int))
      = sizeofReq + sgEntries b sgl * 16 := by
    rw [toUInt32_of_lt (by omega)]
    exact Nat.mod_eq_of_lt hsize
  unfold EstimateHolds
  rw [hlength, Int.toNat_natCast, List.take_length]
  cases h.divisor with
  | inl hne =>
    have hextra := extraDesc_eq (Nat.pos_of_ne_zero hne) sgl h.rounded 0 (by omega)
    obtain ⟨sdesc, hsdesc, _, _, hle⟩ := splitSgl_spec (Nat.pos_of_ne_zero hne) sgl
    rw [Nat.zero_add] at hextra
    refine ⟨_, sdesc, hextra, hsdesc, ?_⟩
    rw [hmax]
    exact ⟨rfl, hallocated, Int.ofNat_le.mpr hle⟩
  | inr hzero =>
    have hextra := extraDesc_of_dmaLen_zero (b := b) hzero 0
    rw [hextra.2, Nat.cast_zero] at hmax
    refine ⟨0, [], hextra.1, splitSgl_of_dmaLen_zero hzero, ?_⟩
    rw [hmax]
    exact ⟨rfl, hallocated, Int.natCast_nonneg _⟩

theorem EstimateHolds.fits (hb : b < 2 ^ 32) (h : EstimateHolds sizeofReq b sgl)
    : EstimateFits sizeofReq b sgl := by
  obtain ⟨extra, sdesc, hextra, hsdesc, hmax, hsize, _⟩ := h
  have hcount : sgl.length + (sgl.map (sgExtra b)).sum = sgEntries b sgl := rfl
  have hlt := toInt32_lt (toInt32 sgl.length + extra)
  rw [hmax] at hlt hsize
  have hlength : toInt32 sgl.length = sgl.length := toInt32_of_lt (by omega)
  rw [hlength, Int.toNat_natCast, List.take_length] at hextra
  have hdivisor : b ≠ 0 ∨ ∀ sg ∈ sgl, sg.dmaLen = 0 := by
    by_cases hb : b = 0
    . rw [hb] at hsdesc
      exact .inr (dmaLen_of_splitSgl_zero hsdesc)
    . exact .inl hb
  constructor
  . apply hdivisor
  . cases hdivisor with
    | inr hzero =>
      intro sg hsg hlong
      have := hzero sg hsg
      omega
    | inl hne =>
      have hle : (sgl.map (sgExtraWord b)).sum ≤ (sgl.map (sgExtra b)).sum :=
        List.sum_le_sum (fun sg _ => sgExtraWord_le sg)
      have hword := extraDesc_ok rfl hextra
      rw [Int.zero_add, toInt32_of_lt (by omega)] at hword
      rw [hlength, hword, ← Nat.cast_add, toInt32_of_lt (by omega), Nat.cast_inj] at hmax
      have hsum : (sgl.map (sgExtraWord b)).sum = (sgl.map (sgExtra b)).sum := by omega
      have hterm := eq_of_sum_eq (fun sg => sgExtraWord_le sg) hsum
      intro sg hsg hlong
      exact rounded_of_sgExtraWord (Nat.pos_of_ne_zero hne) hb (hterm sg hsg) hlong
  . rw [toUInt32_of_lt (by omega)] at hsize
    rw [← hsize]
    apply Nat.mod_lt
    decide

/--
Where the estimate holds and the memory is found, the request is made.
-/
theorem EstimateHolds.initRequest (h : EstimateHolds sizeofReq b sgl) (epAddr : BitVec 64)
    : ∃ req, xdmaInitRequest b (fun _ => true) sgl epAddr = .ok req := by
  obtain ⟨extra, sdesc, hextra, hsdesc, _, _, hle⟩ := h
  have hlt := toInt32_lt (toInt32 sgl.length + extra)
  refine ⟨_, xdmaInitRequest_of_le hextra hsdesc epAddr ?_⟩
  rw [toInt32_of_lt (by omega)]
  apply hle

end Iff

/--
For every module parameter the estimate holds exactly if it fits.
-/
theorem xdmaInitRequest_estimate_iff (sizeofReq : Nat) (descBlenMax : BitVec 32)
    (sgl : List Scatterlist)
    : EstimateHolds sizeofReq (xdmaModInit descBlenMax) sgl
      ↔ EstimateFits sizeofReq (xdmaModInit descBlenMax) sgl := by
  have hle := xdmaModInit_le descBlenMax
  constructor
  . intro h
    apply h.fits
    unfold xdmaDescBlenMax at hle
    omega
  . apply EstimateFits.holds

/--
A segment of 4 GiB less a byte is estimated at one descriptor and written as seventeen, with the length
that the module has by default; with a length of 0 the estimate is a division error.
-/
theorem xdmaInitRequest_estimate_overrun
    : ¬ EstimateHolds 512 (xdmaModInit 0xfffffff) [⟨0, 0xffffffff⟩]
      ∧ extraDesc (xdmaModInit 0xfffffff) 0 [⟨0, 0xffffffff⟩] = .ok 0
      ∧ (splitSgl (xdmaModInit 0xfffffff) [⟨0, 0xffffffff⟩]).map List.length = some 17
      ∧ ¬ EstimateHolds 512 (xdmaModInit 0) [⟨0, 4096⟩]
      ∧ extraDesc (xdmaModInit 0) 0 [⟨0, 4096⟩] = .error .divideError := by
  refine ⟨?_, rfl, by decide +kernel, ?_, rfl⟩
  . intro h
    have hfits := h.fits (by decide)
    exact absurd (hfits.rounded ⟨0, 0xffffffff⟩ (.head _) (by decide)) (by decide)
  . intro h
    have hfits := h.fits (by decide)
    exact absurd hfits.divisor (by decide)

end Xdma
