import ReferenceProjects.Xdma.Impl.StatusDump

/-!
This module contains for which status words the text of `engine_status_dump()` fits in its buffer.
-/

namespace Xdma

/-- Everything that is written to the buffer is inside of its 256 bytes. -/
def StatusBuf.Inside (s : StatusBuf) : Prop := ∀ w ∈ s.writes, 0 ≤ w.1 ∧ w.1 < (256 : Nat)

/-- The length of all words of a group. -/
def wordsLen (ws : List StatusWord) : Nat := (ws.map (fun w => (asciiBytes w.2).length)).sum

/-- The length of the words of which the bit is not set. -/
def missingLen (v : BitVec 32) (ws : List StatusWord) : Nat :=
  (ws.map (fun w => if v &&& w.1 = 0 then (asciiBytes w.2).length else 0)).sum

/-- All words that an H2C engine can print. -/
def h2cWords : List StatusWord :=
  stateWords ++ commonErrWords ++ h2cRWords ++ h2cWWords ++ descErrWords

/-- For an H2C engine, the name and the words that are not printed are 12 bytes short of all there are. -/
def StatusFits (name : EngineName) (dir : DmaDataDirection) (v : BitVec 32) : Prop :=
  dir = .fromDevice ∨ 12 ≤ (15 - name.chars.length) + missingLen v h2cWords

section Words

variable (v : BitVec 32)

theorem missingLen_append (ws ws' : List StatusWord)
    : missingLen v (ws ++ ws') = missingLen v ws + missingLen v ws' := by
  unfold missingLen
  rw [List.map_append, List.sum_append]

theorem len_statusWord (s : StatusBuf) (w : StatusWord)
    : (statusWord v s w).len + (if v &&& w.1 = 0 then (asciiBytes w.2).length else 0)
        = s.len + (asciiBytes w.2).length := by
  unfold statusWord StatusBuf.sprintf
  by_cases hclear : v &&& w.1 = 0
  . rw [if_neg (not_not_intro hclear), if_pos hclear]
  . rw [if_pos hclear, if_neg hclear, Sprint.len_print, Nat.add_zero]

theorem len_statusWords (ws : List StatusWord) (s : StatusBuf)
    : (statusWords v ws s).len + missingLen v ws = s.len + wordsLen ws := by
  unfold statusWords missingLen wordsLen
  induction ws generalizing s with
  | nil => rfl
  | cons w ws ih =>
    have hword := len_statusWord v s w
    have hwords := ih (statusWord v s w)
    simp only [List.foldl_cons, List.map_cons, List.sum_cons]
    omega

theorem missingLen_of_clear {mask : BitVec 32} (h : v &&& mask = 0) {ws : List StatusWord}
    (hmask : ∀ w ∈ ws, mask &&& w.1 = w.1)
    : missingLen v ws = wordsLen ws := by
  unfold missingLen wordsLen
  congr 1
  apply List.map_congr_left
  intro w hw
  have hclear : v &&& w.1 = 0 := by
    rw [← hmask w hw, ← BitVec.and_assoc, h]
    exact BitVec.zero_and
  rw [if_pos hclear]

/-- A heading is printed unless all words of its errors are missing. -/
theorem len_errWords {mask : BitVec 32} {heading : String} {ws : List StatusWord} {n k : Nat}
    (hmask : ∀ w ∈ ws, mask &&& w.1 = w.1) (hn : wordsLen ws = n)
    (hk : (asciiBytes heading).length = k) (s : StatusBuf)
    : (missingLen v ws = n ∧ (errWords v mask heading ws s).len = s.len)
      ∨ (errWords v mask heading ws s).len + missingLen v ws = s.len + k + n := by
  unfold errWords StatusBuf.comma StatusBuf.sprintf
  by_cases hclear : v &&& mask = 0
  . left
    rw [if_neg (not_not_intro hclear), missingLen_of_clear v hclear hmask]
    exact ⟨hn, rfl⟩
  . right
    rw [if_pos hclear, Sprint.len_patch, len_statusWords, Sprint.len_print, hn, hk]

end Words

/-- What both directions print first. -/
def commonStatus (name : EngineName) (v : BitVec 32) : StatusBuf :=
  let s := statusWords v stateWords (StatusBuf.sprintf .empty (statusHeader name v))
  if v &&& xdmaStatCommonErrMask ≠ 0 then StatusBuf.comma (statusWords v commonErrWords s) else s

section Covers

variable {v : BitVec 32} {s : StatusBuf}

theorem statusWords_covers (h : s.Covers) (ws : List StatusWord)
    : (statusWords v ws s).Covers := by
  unfold statusWords
  induction ws generalizing s with
  | nil => exact h
  | cons w ws ih =>
    apply ih
    unfold statusWord
    split
    . exact h.print 0 _
    . exact h

theorem errWords_covers (h : s.Covers) (mask : BitVec 32) (heading : String) (ws : List StatusWord)
    : (errWords v mask heading ws s).Covers := by
  unfold errWords
  split
  . exact (statusWords_covers (h.print 0 _) ws).patch 44
  . exact h

theorem commonStatus_covers (name : EngineName) (v : BitVec 32)
    : (commonStatus name v).Covers := by
  have hheader : statusHeader name v ≠ [] := by
    unfold statusHeader
    apply List.append_ne_nil_of_right_ne_nil
    decide
  have hstate := statusWords_covers (v := v) (Sprint.Buf.Covers.start 0 hheader) stateWords
  unfold commonStatus
  dsimp only
  split
  . exact (statusWords_covers hstate commonErrWords).patch 44
  . exact hstate

theorem engineStatusDump_covers (name : EngineName) (dir : DmaDataDirection) (v : BitVec 32)
    : (engineStatusDump name dir v).Covers := by
  have hcommon := commonStatus_covers name v
  cases dir with
  | toDevice =>
    exact (errWords_covers (errWords_covers (errWords_covers hcommon _ _ _) _ _ _) _ _ _).patch 0
  | fromDevice => exact (errWords_covers (errWords_covers hcommon _ _ _) _ _ _).patch 0

end Covers

section Length

variable (name : EngineName) (v : BitVec 32)

theorem length_statusHeader
    : (statusHeader name v).length = 31 + name.chars.length := by
  have htext : (asciiBytes "SG engine ").length = 10 := by decide
  have hstatus : (asciiBytes " status: 0x").length = 11 := by decide
  have hcolon : (asciiBytes ": ").length = 2 := by decide
  unfold statusHeader hex08
  rw [List.length_append, List.length_append, List.length_append, List.length_append, List.length_map,
    List.length_range, htext, hstatus, hcolon]
  omega

/-- The bit of the last of the common words is not in the mask. -/
theorem missingLen_commonErrWords (h : v &&& xdmaStatCommonErrMask = 0)
    : 41 ≤ missingLen v commonErrWords := by
  have hmask : ∀ w ∈ commonErrWords.take 3, xdmaStatCommonErrMask &&& w.1 = w.1 := by decide
  have hmissing := missingLen_of_clear v h hmask
  have hlen : wordsLen (commonErrWords.take 3) = 41 := by decide
  rw [← List.take_append_drop 3 commonErrWords, missingLen_append, hmissing, hlen]
  exact Nat.le_add_right _ _

theorem len_commonStatus
    : (41 ≤ missingLen v commonErrWords
        ∧ (commonStatus name v).len + missingLen v stateWords = 60 + name.chars.length)
      ∨ (commonStatus name v).len + missingLen v stateWords + missingLen v commonErrWords
          = 114 + name.chars.length := by
  have hstate := len_statusWords v stateWords (StatusBuf.sprintf .empty (statusHeader name v))
  have hstateLen : wordsLen stateWords = 29 := by decide
  have hcommonLen : wordsLen commonErrWords = 54 := by decide
  have hheader : (StatusBuf.sprintf .empty (statusHeader name v)).len = 31 + name.chars.length := by
    unfold StatusBuf.sprintf
    rw [Sprint.len_print, length_statusHeader, Sprint.len_empty, Nat.zero_add]
  unfold commonStatus
  dsimp only
  by_cases hclear : v &&& xdmaStatCommonErrMask = 0
  . have hmissing := missingLen_commonErrWords v hclear
    rw [if_neg (not_not_intro hclear)]
    omega
  . have hcommon := len_statusWords v commonErrWords
      (statusWords v stateWords (StatusBuf.sprintf .empty (statusHeader name v)))
    unfold StatusBuf.comma
    rw [if_pos hclear, Sprint.len_patch]
    omega

theorem missingLen_h2cWords
    : missingLen v h2cWords = missingLen v stateWords + missingLen v commonErrWords
        + missingLen v h2cRWords + missingLen v h2cWWords + missingLen v descErrWords := by
  unfold h2cWords
  rw [missingLen_append, missingLen_append, missingLen_append, missingLen_append]

theorem descErrWords_mask
    : ∀ w ∈ descErrWords, xdmaStatDescErrMask &&& w.1 = w.1 := by decide

theorem len_descErr
    : wordsLen descErrWords = 52 ∧ (asciiBytes "DESC_ERR:").length = 9 := by decide

/-- A heading is left out only where so many bytes of words are missing that the text fits anyway. -/
theorem len_engineStatusDump_toDevice
    : (engineStatusDump name .toDevice v).len < 256
        ↔ 12 ≤ (15 - name.chars.length) + missingLen v h2cWords := by
  have hname := name.length_le
  have hcommon := len_commonStatus name v
  have hmaskR : ∀ w ∈ h2cRWords, xdmaStatH2cRErrMask &&& w.1 = w.1 := by decide
  have hlenR : wordsLen h2cRWords = 52 ∧ (asciiBytes "R:").length = 2 := by decide
  have hmaskW : ∀ w ∈ h2cWWords, xdmaStatH2cWErrMask &&& w.1 = w.1 := by decide
  have hlenW : wordsLen h2cWWords = 21 ∧ (asciiBytes "W:").length = 2 := by decide
  have hdump : (engineStatusDump name .toDevice v).len
      = (errWords v xdmaStatDescErrMask "DESC_ERR:" descErrWords
          (errWords v xdmaStatH2cWErrMask "W:" h2cWWords
            (errWords v xdmaStatH2cRErrMask "R:" h2cRWords (commonStatus name v)))).len := rfl
  rw [hdump, missingLen_h2cWords]
  have hr := len_errWords v hmaskR hlenR.1 hlenR.2 (commonStatus name v)
  generalize errWords v xdmaStatH2cRErrMask "R:" h2cRWords (commonStatus name v) = r at *
  have hw := len_errWords v hmaskW hlenW.1 hlenW.2 r
  generalize errWords v xdmaStatH2cWErrMask "W:" h2cWWords r = w at *
  have hdesc := len_errWords v descErrWords_mask len_descErr.1 len_descErr.2 w
  omega

/-- All words of a C2H engine are 213 bytes with the longest name. -/
theorem len_engineStatusDump_fromDevice
    : (engineStatusDump name .fromDevice v).len < 256 := by
  have hname := name.length_le
  have hcommon := len_commonStatus name v
  have hmaskR : ∀ w ∈ c2hRWords, xdmaStatC2hRErrMask &&& w.1 = w.1 := by decide
  have hlenR : wordsLen c2hRWords = 21 ∧ (asciiBytes "R:").length = 2 := by decide
  have hdump : (engineStatusDump name .fromDevice v).len
      = (errWords v xdmaStatDescErrMask "DESC_ERR:" descErrWords
          (errWords v xdmaStatC2hRErrMask "R:" c2hRWords (commonStatus name v))).len := rfl
  rw [hdump]
  have hr := len_errWords v hmaskR hlenR.1 hlenR.2 (commonStatus name v)
  generalize errWords v xdmaStatC2hRErrMask "R:" c2hRWords (commonStatus name v) = r at *
  have hdesc := len_errWords v descErrWords_mask len_descErr.1 len_descErr.2 r
  omega

end Length

theorem engineStatusDump_inside_iff (name : EngineName) (dir : DmaDataDirection) (v : BitVec 32)
    : (engineStatusDump name dir v).Inside ↔ StatusFits name dir v := by
  have hcovers := engineStatusDump_covers name dir v
  unfold StatusBuf.Inside StatusFits
  rw [hcovers.inside_iff 256]
  cases dir with
  | toDevice =>
    rw [len_engineStatusDump_toDevice]
    simp only [reduceCtorEq, false_or]
  | fromDevice =>
    simp only [true_or, iff_true]
    exact len_engineStatusDump_fromDevice name v

/-- The name of the first H2C engine. -/
def h2cEngineName : EngineName := ⟨asciiBytes "0-H2C0-MM", by decide, by decide⟩

/-- A read from a device that is gone returns all ones. -/
theorem engineStatusDump_not_inside
    : ¬ ∀ (name : EngineName) (dir : DmaDataDirection) (v : BitVec 32),
        (engineStatusDump name dir v).Inside := by
  intro h
  have hinside := h h2cEngineName .toDevice 0xffffffff
  have hlen := (len_engineStatusDump_toDevice h2cEngineName 0xffffffff).mp
    (((engineStatusDump_covers _ _ _).inside_iff 256).mp hinside)
  exact absurd hlen (by decide)

end Xdma
