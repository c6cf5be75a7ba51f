import ReferenceProjects.Tools.File
import ReferenceProjects.Tools.Transfer

/-!
This module contains from and to which bytes of a file `read_to_buffer()` and `write_from_buffer()` move the
bytes of their buffer.
-/

namespace Tools

section Round

variable {calls : Calls} {fd : Fd} {call : Nat → Nat → Call} {size n count : Nat} {offset : BitVec 64}

theorem seek_iff
    : (offset ≠ 0 ∧ calls.result n (.lseek fd offset) ≠ offset.toInt) ↔ ¬ Sought calls fd n offset := by
  unfold Sought
  exact Classical.not_imp.symm

theorem transferLoop_round (hcount : count < size)
    : let bytes := min (size - count) rwMaxSize
      let rc := calls.result (dataCall n offset) (call count bytes)
      transferLoop calls fd call size n count offset
        = if ¬ Sought calls fd n offset then
            (.failed count, n + 1)
          else if rc < 0 then
            (.failed count, dataCall n offset + 1)
          else if rc ≠ bytes then
            (.moved (count + rc.toNat), dataCall n offset + 1)
          else
            transferLoop calls fd call size (dataCall n offset + 1) (count + bytes)
              (offset + BitVec.ofNat 64 bytes) := by
  dsimp only
  rw [transferLoop]
  simp only [if_pos hcount, seek_iff]
  rfl

theorem seekTrace_sought (h : Sought calls fd n offset)
    : ∀ c ∈ seekTrace calls fd n offset, ∃ offset, c = (.lseek fd offset, offset.toInt) := by
  intro c hc
  unfold seekTrace at hc
  split at hc
  . rename_i hne
    rw [List.mem_singleton] at hc
    rw [hc, h hne]
    exact ⟨offset, rfl⟩
  . cases hc

theorem length_seekTrace
    : n + (seekTrace calls fd n offset).length = dataCall n offset := by
  unfold seekTrace dataCall
  split <;> rfl

theorem ne_zero_of_not_sought (h : ¬ Sought calls fd n offset)
    : offset ≠ 0 := by
  intro hzero
  exact h (fun hne => absurd hzero hne)

/-- The calls of the loop are those of its trace. -/
theorem transferLoop_calls
    : (transferLoop calls fd call size n count offset).2
        = n + (transferTrace calls fd call size n count offset).length := by
  fun_induction transferTrace calls fd call size n count offset with
  | case1 n count offset hcount hunsought =>
    rw [transferLoop_round hcount, if_pos hunsought]
    unfold seekTrace
    rw [if_pos (ne_zero_of_not_sought hunsought)]
    rfl
  | case2 n count offset hcount bytes rc hsought hshort =>
    rw [transferLoop_round hcount, if_neg hsought, if_pos hshort, List.length_append,
      List.length_singleton, ← Nat.add_assoc, length_seekTrace]
    split <;> rfl
  | case3 n count offset hcount bytes rc hsought hfull ih =>
    have hrc : ¬ rc < 0 := by omega
    have hlen : n + (seekTrace calls fd n offset).length = dataCall n offset := length_seekTrace
    rw [transferLoop_round hcount, if_neg hsought, if_neg hrc, if_neg hfull, ih, List.length_append,
      List.length_cons]
    omega
  | case4 n count offset hcount =>
    rw [transferLoop, if_neg hcount]
    rfl

/-- A call that is followed by another has done all that was asked of it. -/
def Returned.Complete : Returned → Prop
  | (.lseek _ offset, rc) => rc = offset.toInt
  | (.read _ _ _ bytes, rc) | (.write _ _ _ bytes, rc) => rc = bytes

/-- `call` moves data. -/
structure MovesData (call : Nat → Nat → Call) : Prop where
  transfer : ∀ (f : File) k bytes rc, f.call (call k bytes, rc) = f.transfer k rc.toNat
  complete : ∀ k (bytes : Nat), Returned.Complete (call k bytes, bytes)

/-- A short or failed call is the last one. -/
theorem transferTrace_complete (hcall : MovesData call)
    : ∀ c ∈ (transferTrace calls fd call size n count offset).dropLast, c.Complete := by
  fun_induction transferTrace calls fd call size n count offset with
  | case1 n count offset hcount hunsought =>
    unfold seekTrace
    rw [if_pos (ne_zero_of_not_sought hunsought)]
    intro c hc
    cases hc
  | case2 n count offset hcount bytes rc hsought hshort =>
    rw [List.dropLast_concat]
    intro c hc
    obtain ⟨offset, heq⟩ := seekTrace_sought (Classical.not_not.mp hsought) c hc
    rw [heq]
    rfl
  | case3 n count offset hcount bytes rc hsought hfull ih =>
    intro c hc
    rw [List.dropLast_append_of_ne_nil (List.cons_ne_nil _ _), List.mem_append] at hc
    cases hc with
    | inl hseek =>
      obtain ⟨offset, heq⟩ := seekTrace_sought (Classical.not_not.mp hsought) c hseek
      rw [heq]
      rfl
    | inr hdata =>
      cases hlater : transferTrace calls fd call size (dataCall n offset + 1) (count + bytes)
          (offset + BitVec.ofNat 64 bytes) with
      | nil =>
        rw [hlater] at hdata
        cases hdata
      | cons c' later =>
        rw [hlater, List.dropLast_cons_of_ne_nil (List.cons_ne_nil _ _), List.mem_cons] at hdata
        rw [hlater] at ih
        cases hdata with
        | inl heq =>
          rw [heq, Classical.not_not.mp hfull]
          exact hcall.complete count bytes
        | inr hmem => exact ih c hmem
  | case4 n count offset hcount =>
    intro c hc
    cases hc

end Round

/--
The first call that moves data does so at `offset`: a failure of `lseek()` is not taken for the offset, or
the position is right already.
-/
def Settled (offset pos : BitVec 64) : Prop := (offset ≠ 0 ∧ offset ≠ -1) ∨ pos = offset

theorem base_of_not_settled {base pos : BitVec 64} (h : ¬ Settled base pos)
    : (base = 0 ∨ base = -1) ∧ pos ≠ base := by
  unfold Settled at h
  rw [not_or, Classical.not_and_iff_not_or_not, Classical.not_not, Classical.not_not] at h
  exact h

section File

variable {f : File}

theorem File.calls_append (t u : List Returned)
    : f.calls (t ++ u)
        = (((f.calls t).1.calls u).1, (f.calls t).2 ++ ((f.calls t).1.calls u).2) := by
  induction t generalizing f with
  | nil => rfl
  | cons c t ih => simp only [List.cons_append, File.calls, ih, List.append_assoc]

variable {calls : FileCalls} {fd : Fd} {call : Nat → Nat → Call} {size n count : Nat}
  {offset : BitVec 64}

theorem calls_seekTrace (h : Settled offset f.pos) (hsought : Sought calls.toCalls fd n offset)
    : f.calls (seekTrace calls.toCalls fd n offset) = ({ f with pos := offset }, []) := by
  unfold seekTrace
  by_cases hzero : offset = 0
  . have hpos : f.pos = offset := by
      cases h with
      | inl hne => exact absurd hzero hne.1
      | inr hpos => exact hpos
    rw [if_neg (not_not_intro hzero), ← hpos]
    rfl
  . rw [if_pos hzero]
    simp only [File.calls, File.call, List.append_nil, Prod.mk.injEq, and_true]
    have hrc := hsought hzero
    rw [hrc]
    cases calls.lseek_eq n fd offset with
    | inl hfail =>
      -- -1 is the offset, and no position
      have hone : offset = -1 := by
        apply BitVec.eq_of_toInt_eq
        rw [← hrc, hfail]
        rfl
      have hpos : f.pos = offset := by
        cases h with
        | inl hne => exact absurd hone hne.2
        | inr hpos => exact hpos
      rw [if_neg (by rw [hone]; decide), ← hpos]
    | inr hok => rw [if_pos hok.1, BitVec.ofInt_toInt]

/-- At the offsets 0 and -1 the position is left where it is. -/
theorem calls_seekTrace_of_eq (h : offset = 0 ∨ offset = -1)
    : f.calls (seekTrace calls.toCalls fd n offset) = (f, []) := by
  unfold seekTrace
  cases h with
  | inl hzero =>
    rw [if_neg (not_not_intro hzero)]
    rfl
  | inr hone =>
    have hne : offset ≠ 0 := by
      rw [hone]
      decide
    have hrc : calls.result n (.lseek fd offset) = -1 := by
      cases calls.lseek_eq n fd offset with
      | inl hfail => exact hfail
      | inr hok =>
        rw [hone] at hok
        exact absurd hok.1 (by decide)
    rw [if_pos hne]
    simp only [File.calls, File.call, List.append_nil, hrc]
    rw [if_neg (by decide)]

theorem sought_of_eq (h : offset = 0 ∨ offset = -1)
    : Sought calls.toCalls fd n offset := by
  intro hne
  have hone : offset = -1 := h.resolve_left hne
  rw [hone]
  cases calls.lseek_eq n fd (-1) with
  | inl hfail => exact hfail
  | inr hok => exact hok.2

theorem pairs_round (hcall : MovesData call) {g : File} {t : List Returned} (h : f.calls t = (g, []))
    (bytes : Nat) (rc : Int) (later : List Returned)
    : f.pairs (t ++ (call count bytes, rc) :: later)
        = (Copy.cells count rc.toNat).zip (Copy.cells g.pos rc.toNat)
          ++ (g.transfer count rc.toNat).1.pairs later := by
  have hmove : (g.transfer count rc.toNat).2.flatMap Copy.Move.pairs
      = (Copy.cells count rc.toNat).zip (Copy.cells g.pos rc.toNat) := List.flatMap_singleton _ _
  unfold File.pairs
  rw [File.calls_append, h]
  simp only [File.calls, hcall.transfer, List.nil_append, List.flatMap_append, hmove]

/-- After a chunk that is not the last one, the position is right again or `lseek()` will be called. -/
theorem settled_next (hsought : Sought calls.toCalls fd n offset)
    : Settled (offset + BitVec.ofNat 64 rwMaxSize)
        (({ f with pos := offset } : File).transfer count rwMaxSize).1.pos := by
  unfold File.transfer
  cases f.kind with
  | ordinary =>
    right
    rfl
  | device =>
    left
    have hnonneg : offset.toNat < 2 ^ 63 ∨ offset = -1 := by
      by_cases hzero : offset = 0
      . left
        rw [hzero]
        decide
      . have hrc := hsought hzero
        cases calls.lseek_eq n fd offset with
        | inl hfail =>
          right
          apply BitVec.eq_of_toInt_eq
          rw [← hrc, hfail]
          rfl
        | inr hok =>
          left
          have hlt := offset.isLt
          have htoInt := BitVec.toInt_eq_toNat_cond offset
          have hok := hok.1
          omega
    have hR : (BitVec.ofNat 64 rwMaxSize).toNat = 0x7ffff000 := by decide
    have hone : (-1 : BitVec 64).toNat = 2 ^ 64 - 1 := by decide
    have hzero : (0 : BitVec 64).toNat = 0 := rfl
    constructor
    . intro heq
      have hnat := congrArg BitVec.toNat heq
      rw [BitVec.toNat_add, hR, hzero] at hnat
      cases hnonneg with
      | inl hlt => omega
      | inr hminus =>
        rw [hminus, hone] at hnat
        omega
    . intro heq
      have hnat := congrArg BitVec.toNat heq
      rw [BitVec.toNat_add, hR, hone] at hnat
      cases hnonneg with
      | inl hlt => omega
      | inr hminus =>
        rw [hminus, hone] at hnat
        omega

/-- From where the loop is settled on, the bytes lie one behind the other in the buffer and in the file. -/
theorem transferTrace_pairs (hcall : MovesData call)
    : ∀ f : File, (count < size → Settled offset f.pos) →
        let o := (transferLoop calls.toCalls fd call size n count offset).1
        count ≤ o.count
          ∧ f.pairs (transferTrace calls.toCalls fd call size n count offset)
            = (Copy.cells count (o.count - count)).zip (Copy.cells offset (o.count - count)) := by
  fun_induction transferTrace calls.toCalls fd call size n count offset with
  | case1 n count offset hcount hunsought =>
    intro f h
    unfold File.pairs seekTrace
    rw [transferLoop_round hcount, if_pos hunsought, if_pos (ne_zero_of_not_sought hunsought)]
    simp only [Outcome.count, Nat.sub_self, Nat.le_refl, true_and]
    rfl
  | case2 n count offset hcount bytes rc hsought hshort =>
    intro f h
    have hseek := calls_seekTrace (h hcount) (Classical.not_not.mp hsought)
    rw [transferLoop_round hcount, if_neg hsought, if_pos hshort, pairs_round hcall hseek]
    have hnil (g : File) : g.pairs [] = [] := rfl
    by_cases hneg : rc < 0
    . have hzero : rc.toNat = 0 := Int.toNat_of_nonpos (Int.le_of_lt hneg)
      rw [if_pos hneg, hzero, hnil]
      simp only [Outcome.count, Nat.sub_self, Nat.le_refl, true_and, List.append_nil]
    . rw [if_neg hneg, hnil]
      simp only [Outcome.count, Nat.le_add_right, Nat.add_sub_cancel_left, true_and, List.append_nil]
      rfl
  | case3 n count offset hcount bytes rc hsought hfull ih =>
    intro f h
    have hseek := calls_seekTrace (h hcount) (Classical.not_not.mp hsought)
    have hrc : ¬ rc < 0 := by omega
    have hnat : rc.toNat = bytes := by omega
    have hnext : count + bytes < size → Settled (offset + BitVec.ofNat 64 bytes)
        (({ f with pos := offset } : File).transfer count bytes).1.pos := by
      intro hlt
      have hbytes : bytes = rwMaxSize := by
        unfold bytes rwMaxSize at hlt ⊢
        omega
      rw [hbytes]
      exact settled_next (Classical.not_not.mp hsought)
    obtain ⟨hle, hpairs⟩ := ih _ hnext
    have hloop : transferLoop calls.toCalls fd call size n count offset
        = transferLoop calls.toCalls fd call size (dataCall n offset + 1) (count + bytes)
            (offset + BitVec.ofNat 64 bytes) := by
      rw [transferLoop_round hcount, if_neg hsought, if_neg hrc, if_neg hfull]
    rw [hloop, pairs_round hcall hseek, hnat, hpairs]
    generalize (transferLoop calls.toCalls fd call size _ _ _).1 = o at hle ⊢
    have hsplit : o.count - count = bytes + (o.count - (count + bytes)) := by omega
    refine ⟨Nat.le_trans (Nat.le_add_right count bytes) hle, ?_⟩
    rw [hsplit, Copy.cells_add, Copy.cells_add, List.zip_append (by simp only [Copy.length_cells])]
    rfl
  | case4 n count offset hcount =>
    intro f h
    rw [transferLoop, if_neg hcount]
    simp only [Outcome.count, Nat.sub_self, Nat.le_refl, true_and]
    rfl

theorem le_count_transferLoop (hcall : MovesData call)
    : count ≤ (transferLoop calls.toCalls fd call size n count offset).1.count :=
  (transferTrace_pairs hcall ⟨.ordinary, offset⟩ (fun _ => Or.inr rfl)).1

end File

section Chunks

variable (calls : Calls) (fd : Fd) (call : Nat → Nat → Call) (n size : Nat) (base : BitVec 64)

def chunkOffset (j : Nat) : BitVec 64 := base + BitVec.ofNat 64 (j * rwMaxSize)

/-- The system call that moves the chunk `j`, where those before it were complete. -/
def chunkCall (j : Nat) : Nat := dataCall n base + 2 * j

def chunkBytes (j : Nat) : Nat := min (size - j * rwMaxSize) rwMaxSize

/-- What `read()` or `write()` returns for a chunk. -/
def chunkRc (j : Nat) : Int :=
  calls.result (chunkCall n base j) (call (j * rwMaxSize) (chunkBytes size j))

/-- `lseek()` succeeds for a chunk. -/
def ChunkSought (j : Nat) : Prop := Sought calls fd (chunkCall n base j - 1) (chunkOffset base j)

instance (j : Nat) : Decidable (ChunkSought calls fd n base j) :=
  inferInstanceAs (Decidable (Sought _ _ _ _))

structure ChunkFull (j : Nat) : Prop where
  sought : ChunkSought calls fd n base j
  full : chunkRc calls call n size base j = chunkBytes size j

/-- There is such a chunk, and one of its calls fails. -/
structure ChunkFails (j : Nat) : Prop where
  lt : j * rwMaxSize < size
  fails : ChunkSought calls fd n base j → chunkRc calls call n size base j < 0

/-- From the chunk `j` on, a chunk fails after all before it were complete. -/
def Interrupted (j : Nat) : Prop :=
  ∃ i, j ≤ i ∧ ChunkFails calls fd call n size base i
    ∧ ∀ k, j ≤ k → k < i → ChunkFull calls fd call n size base k

/--
The first chunk is moved to its place, or nothing is moved by it, or the transfer ends with an error.
-/
def Lands (pos : BitVec 64) : Prop :=
  Settled base pos ∨ size = 0 ∨ chunkRc calls call n size base 0 = 0
    ∨ Interrupted calls fd call n size base 0

end Chunks

section Interrupted

variable {calls : Calls} {fd : Fd} {call : Nat → Nat → Call} {n size : Nat} {base : BitVec 64}

section Chunk

variable {j : Nat}

theorem ChunkFull.not_fails (h : ChunkFull calls fd call n size base j)
    : ¬ ChunkFails calls fd call n size base j := by
  intro hfails
  have hneg := hfails.fails h.sought
  rw [h.full] at hneg
  omega

theorem Interrupted.of_fails (h : ChunkFails calls fd call n size base j)
    : Interrupted calls fd call n size base j :=
  ⟨j, Nat.le_refl j, h, fun _ hle hlt => absurd hlt (Nat.not_lt.mpr hle)⟩

theorem not_interrupted_of_short (hfails : ¬ ChunkFails calls fd call n size base j)
    (hfull : ¬ ChunkFull calls fd call n size base j)
    : ¬ Interrupted calls fd call n size base j := by
  intro ⟨i, hle, hi, hbefore⟩
  cases Nat.eq_or_lt_of_le hle with
  | inl heq =>
    rw [heq] at hfails
    exact hfails hi
  | inr hlt => exact hfull (hbefore j (Nat.le_refl j) hlt)

theorem not_interrupted_of_le (h : size ≤ j * rwMaxSize)
    : ¬ Interrupted calls fd call n size base j := by
  intro ⟨i, hle, hi, _⟩
  have hmul := Nat.mul_le_mul_right rwMaxSize hle
  have hlt := hi.lt
  omega

theorem interrupted_succ_iff (h : ChunkFull calls fd call n size base j)
    : Interrupted calls fd call n size base (j + 1) ↔ Interrupted calls fd call n size base j := by
  constructor
  . intro ⟨i, hle, hi, hbefore⟩
    refine ⟨i, by omega, hi, ?_⟩
    intro k hk hlt
    cases Nat.eq_or_lt_of_le hk with
    | inl heq =>
      rw [← heq]
      exact h
    | inr hnext => exact hbefore k hnext hlt
  . intro ⟨i, hle, hi, hbefore⟩
    have hne : j ≠ i := by
      intro heq
      rw [← heq] at hi
      exact h.not_fails hi
    exact ⟨i, by omega, hi, fun k hk hlt => hbefore k (by omega) hlt⟩

end Chunk

theorem chunkOffset_succ (j : Nat)
    : chunkOffset base (j + 1) = chunkOffset base j + BitVec.ofNat 64 rwMaxSize := by
  unfold chunkOffset
  rw [Nat.succ_mul, BitVec.ofNat_add, BitVec.add_assoc]

/-- Every chunk but the first begins with `lseek()`. -/
theorem chunkOffset_ne_zero (hbase : base = 0 ∨ base = -1) {j : Nat} (hpos : 0 < j)
    (hlt : j * rwMaxSize < 2 ^ 64)
    : chunkOffset base j ≠ 0 := by
  have hle : rwMaxSize ≤ j * rwMaxSize := Nat.le_mul_of_pos_left _ hpos
  have hR : 1 < rwMaxSize := by decide
  have hzero : (0 : BitVec 64).toNat = 0 := rfl
  have hone : (-1 : BitVec 64).toNat = 2 ^ 64 - 1 := by decide
  unfold chunkOffset
  generalize j * rwMaxSize = r at hle hlt
  intro heq
  have hnat := congrArg BitVec.toNat heq
  rw [BitVec.toNat_add, BitVec.toNat_ofNat, Nat.mod_eq_of_lt hlt, hzero] at hnat
  cases hbase with
  | inl h =>
    rw [h, hzero] at hnat
    omega
  | inr h =>
    rw [h, hone] at hnat
    omega

@[simp]
theorem chunkOffset_zero
    : chunkOffset base 0 = base := by
  unfold chunkOffset
  rw [Nat.zero_mul]
  exact BitVec.add_zero base

theorem sought_iff_chunkSought {j m : Nat}
    (hm : dataCall m (chunkOffset base j) = chunkCall n base j)
    : Sought calls fd m (chunkOffset base j) ↔ ChunkSought calls fd n base j := by
  unfold ChunkSought
  rw [← hm]
  unfold dataCall
  by_cases hzero : chunkOffset base j = 0
  . unfold Sought
    simp only [hzero, ne_eq, not_true_eq_false, false_implies]
  . rw [if_pos hzero, Nat.add_sub_cancel]

theorem transferLoop_chunk {j m : Nat} (hlt : j * rwMaxSize < size)
    (hm : dataCall m (chunkOffset base j) = chunkCall n base j)
    : transferLoop calls fd call size m (j * rwMaxSize) (chunkOffset base j)
        = if ¬ ChunkSought calls fd n base j then
            (.failed (j * rwMaxSize), m + 1)
          else if chunkRc calls call n size base j < 0 then
            (.failed (j * rwMaxSize), chunkCall n base j + 1)
          else if chunkRc calls call n size base j ≠ chunkBytes size j then
            (.moved (j * rwMaxSize + (chunkRc calls call n size base j).toNat), chunkCall n base j + 1)
          else
            transferLoop calls fd call size (chunkCall n base j + 1)
              (j * rwMaxSize + chunkBytes size j)
              (chunkOffset base j + BitVec.ofNat 64 (chunkBytes size j)) := by
  rw [transferLoop_round hlt, hm]
  simp only [sought_iff_chunkSought hm]
  rfl

/-- The loop fails from a chunk on exactly if a chunk fails after complete ones. -/
theorem transferLoop_failed_iff (hbase : base = 0 ∨ base = -1) (hsize : size < 2 ^ 64) (j m : Nat)
    (hm : dataCall m (chunkOffset base j) = chunkCall n base j)
    : (∃ c, (transferLoop calls fd call size m (j * rwMaxSize) (chunkOffset base j)).1 = .failed c)
      ↔ Interrupted calls fd call n size base j := by
  by_cases hlt : j * rwMaxSize < size
  . rw [transferLoop_chunk hlt hm]
    by_cases hfails : ChunkFails calls fd call n size base j
    . simp only [Interrupted.of_fails hfails, iff_true]
      by_cases hsought : ChunkSought calls fd n base j
      . rw [if_neg (not_not_intro hsought), if_pos (hfails.fails hsought)]
        exact ⟨_, rfl⟩
      . rw [if_pos hsought]
        exact ⟨_, rfl⟩
    . have hsought : ChunkSought calls fd n base j := by
        by_contra hnot
        exact hfails ⟨hlt, fun h => absurd h hnot⟩
      have hneg : ¬ chunkRc calls call n size base j < 0 := fun h => hfails ⟨hlt, fun _ => h⟩
      rw [if_neg (not_not_intro hsought), if_neg hneg]
      by_cases hfull : chunkRc calls call n size base j = chunkBytes size j
      . rw [if_neg (not_not_intro hfull), ← interrupted_succ_iff ⟨hsought, hfull⟩]
        by_cases hnext : (j + 1) * rwMaxSize < size
        . have hbytes : chunkBytes size j = rwMaxSize := by
            unfold chunkBytes
            rw [Nat.succ_mul] at hnext
            omega
          have hne : chunkOffset base (j + 1) ≠ 0 :=
            chunkOffset_ne_zero hbase (Nat.succ_pos j) (Nat.lt_trans hnext hsize)
          rw [hbytes, ← Nat.succ_mul, ← chunkOffset_succ]
          apply transferLoop_failed_iff hbase hsize (j + 1)
          unfold dataCall
          rw [if_pos hne]
          rfl
        . have hdone : ¬ j * rwMaxSize + chunkBytes size j < size := by
            unfold chunkBytes
            rw [Nat.succ_mul] at hnext
            omega
          have hnot : ¬ Interrupted calls fd call n size base (j + 1) :=
            not_interrupted_of_le (Nat.le_of_not_lt hnext)
          rw [transferLoop, if_neg hdone]
          simp only [reduceCtorEq, exists_false, hnot]
      . have hnot := not_interrupted_of_short hfails (fun h => hfull h.full)
        rw [if_pos hfull]
        simp only [reduceCtorEq, exists_false, hnot]
  . have hnot : ¬ Interrupted calls fd call n size base j :=
      not_interrupted_of_le (Nat.le_of_not_lt hlt)
    rw [transferLoop, if_neg hlt]
    simp only [reduceCtorEq, exists_false, hnot]
termination_by size - j * rwMaxSize
decreasing_by
  rw [Nat.succ_mul] at hnext ⊢
  have hR : 0 < rwMaxSize := by decide
  omega

end Interrupted

/--
Every byte of the buffer below the count that is returned is moved between it and its own place in the
file, and a short or failed call is the last one.
-/
structure Placed (f : File) (size base : BitVec 64) (rc : Int) (trace : List Returned) : Prop where
  place : ∀ k : Nat, (k : Int) < rc → ∀ p, (k, p) ∈ f.pairs trace ↔ p = base + BitVec.ofNat 64 k
  le : rc ≤ size.toNat
  complete : ∀ c ∈ trace.dropLast, c.Complete

section Placed

variable {calls : FileCalls} {fd : Fd} {call : Nat → Nat → Call} {n : Nat} {size base : BitVec 64}

theorem Outcome.Within.rc_le {o : Outcome} {s : Nat} (h : o.Within s)
    : o.rc ≤ s := by
  cases o with
  | failed c =>
    have hrc : (Outcome.failed c).rc = -5 := rfl
    omega
  | moved c =>
    have hle := h.le
    rw [h.rc_moved]
    exact Int.ofNat_le.mpr hle

theorem mem_cells_zip (k m : Nat) (p : BitVec 64)
    : (k, p) ∈ (Copy.cells 0 m).zip (Copy.cells base m) ↔ k < m ∧ p = base + BitVec.ofNat 64 k := by
  rw [Copy.zip_cells, List.mem_map]
  constructor
  . intro ⟨i, hi, heq⟩
    simp only [Nat.cast_id, Nat.zero_add, Prod.mk.injEq] at heq
    rw [List.mem_range] at hi
    rw [← heq.1, ← heq.2]
    exact ⟨hi, rfl⟩
  . intro ⟨hk, hp⟩
    refine ⟨k, List.mem_range.mpr hk, ?_⟩
    simp only [Nat.cast_id, Nat.zero_add, hp]
    rfl

theorem mem_pairs_iff (hcall : MovesData call) {f : File} (h : Settled base f.pos) {c : Nat}
    (ho : (transferLoop calls.toCalls fd call size.toNat n 0 base).1 = .moved c) (k : Nat) (p : BitVec 64)
    : (k, p) ∈ f.pairs (transferTrace calls.toCalls fd call size.toNat n 0 base)
      ↔ k < c ∧ p = base + BitVec.ofNat 64 k := by
  rw [(transferTrace_pairs hcall f (fun _ => h)).2, ho]
  exact mem_cells_zip k c p

section First

variable (hbase : base = 0 ∨ base = -1)

include hbase

theorem failed_iff
    : (∃ c, (transferLoop calls.toCalls fd call size.toNat n 0 base).1 = .failed c)
      ↔ Interrupted calls.toCalls fd call n size.toNat base 0 := by
  have hm : dataCall n (chunkOffset base 0) = chunkCall n base 0 := by
    rw [chunkOffset_zero]
    rfl
  have h := @transferLoop_failed_iff calls.toCalls fd call n _ base hbase size.isLt 0 n hm
  rw [Nat.zero_mul, chunkOffset_zero] at h
  exact h

theorem transferLoop_first (hsize : 0 < size.toNat)
    : transferLoop calls.toCalls fd call size.toNat n 0 base
        = if chunkRc calls.toCalls call n size.toNat base 0 < 0 then
            (.failed 0, dataCall n base + 1)
          else if chunkRc calls.toCalls call n size.toNat base 0 ≠ chunkBytes size.toNat 0 then
            (.moved (chunkRc calls.toCalls call n size.toNat base 0).toNat, dataCall n base + 1)
          else
            transferLoop calls.toCalls fd call size.toNat (dataCall n base + 1)
              (chunkBytes size.toNat 0) (base + BitVec.ofNat 64 (chunkBytes size.toNat 0)) := by
  have hlt : 0 * rwMaxSize < size.toNat := by
    rw [Nat.zero_mul]
    exact hsize
  have hsought : ChunkSought calls.toCalls fd n base 0 := by
    unfold ChunkSought
    rw [chunkOffset_zero]
    exact sought_of_eq hbase
  have hm : dataCall n (chunkOffset base 0) = chunkCall n base 0 := by
    rw [chunkOffset_zero]
    rfl
  have h := @transferLoop_chunk calls.toCalls fd call n _ base 0 n hlt hm
  rw [if_neg (not_not_intro hsought), Nat.zero_mul, chunkOffset_zero, Nat.zero_add, Nat.zero_add] at h
  exact h

theorem transferLoop_empty (hsize : 0 < size.toNat)
    (hrc : chunkRc calls.toCalls call n size.toNat base 0 = 0)
    : (transferLoop calls.toCalls fd call size.toNat n 0 base).1 = .moved 0 := by
  have hbytes : 0 < chunkBytes size.toNat 0 := by
    unfold chunkBytes rwMaxSize
    omega
  rw [transferLoop_first hbase hsize, hrc, if_neg (by omega), if_pos (by omega)]
  rfl

theorem count_pos (hcall : MovesData call) (hsize : 0 < size.toNat)
    (hrc : 0 < chunkRc calls.toCalls call n size.toNat base 0)
    : 0 < (transferLoop calls.toCalls fd call size.toNat n 0 base).1.count := by
  rw [transferLoop_first hbase hsize, if_neg (by omega)]
  by_cases hfull : chunkRc calls.toCalls call n size.toNat base 0 = chunkBytes size.toNat 0
  . rw [if_neg (not_not_intro hfull)]
    have hbytes : 0 < chunkBytes size.toNat 0 := by omega
    exact Nat.lt_of_lt_of_le hbytes (le_count_transferLoop hcall)
  . rw [if_pos hfull]
    unfold Outcome.count
    dsimp only
    omega

/-- A first chunk that is not empty is moved from or to the position at which the file is. -/
theorem mem_pairs_first (hcall : MovesData call) {f : File} (hsize : 0 < size.toNat)
    (hrc : 0 < chunkRc calls.toCalls call n size.toNat base 0)
    : (0, f.pos) ∈ f.pairs (transferTrace calls.toCalls fd call size.toNat n 0 base) := by
  have hmem (later : List Returned)
      : (0, f.pos) ∈ f.pairs (seekTrace calls.toCalls fd n base
          ++ (call 0 (min (size.toNat - 0) rwMaxSize),
            calls.result (dataCall n base) (call 0 (min (size.toNat - 0) rwMaxSize))) :: later) := by
    have hdata : calls.result (dataCall n base) (call 0 (min (size.toNat - 0) rwMaxSize))
        = chunkRc calls.toCalls call n size.toNat base 0 := by
      unfold chunkRc chunkCall chunkBytes
      rw [Nat.zero_mul]
      rfl
    rw [pairs_round hcall (calls_seekTrace_of_eq hbase), List.mem_append, hdata]
    left
    rw [mem_cells_zip]
    exact ⟨by omega, (BitVec.add_zero f.pos).symm⟩
  have hsought : Sought calls.toCalls fd n base := sought_of_eq hbase
  rw [transferTrace, if_pos hsize]
  dsimp only
  rw [if_neg (not_not_intro hsought)]
  split
  . exact hmem _
  . exact hmem _

end First

theorem placed_iff (hcall : MovesData call)
    (hwithin : (transferLoop calls.toCalls fd call size.toNat n 0 base).1.Within size.toNat) (f : File)
    : Placed f size base (transferLoop calls.toCalls fd call size.toNat n 0 base).1.rc
        (transferTrace calls.toCalls fd call size.toNat n 0 base)
      ↔ Lands calls.toCalls fd call n size.toNat base f.pos := by
  constructor
  . intro h
    by_contra hlands
    unfold Lands at hlands
    simp only [not_or] at hlands
    obtain ⟨hsettled, hsize, hrc, hinterrupted⟩ := hlands
    obtain ⟨hbase, hpos⟩ := base_of_not_settled hsettled
    have hsize : 0 < size.toNat := Nat.pos_of_ne_zero hsize
    rw [← failed_iff hbase] at hinterrupted
    have hneg : ¬ chunkRc calls.toCalls call n size.toNat base 0 < 0 := by
      intro hneg
      apply hinterrupted
      rw [transferLoop_first hbase hsize, if_pos hneg]
      exact ⟨0, rfl⟩
    have hpos_rc : 0 < chunkRc calls.toCalls call n size.toNat base 0 := by omega
    have hfirst : (0, f.pos) ∈ f.pairs (transferTrace calls.toCalls fd call size.toNat n 0 base) :=
      mem_pairs_first hbase hcall hsize hpos_rc
    have hcount : 0 < (transferLoop calls.toCalls fd call size.toNat n 0 base).1.count :=
      count_pos hbase hcall hsize hpos_rc
    have hplace := h.place 0
    cases ho : (transferLoop calls.toCalls fd call size.toNat n 0 base).1 with
    | failed c => exact hinterrupted ⟨c, ho⟩
    | moved c =>
      rw [ho] at hcount hplace hwithin
      rw [hwithin.rc_moved] at hplace
      have heq := (hplace (Int.ofNat_lt.mpr hcount) f.pos).mp hfirst
      exact hpos (heq.trans (BitVec.add_zero base))
  . intro h
    refine ⟨?_, hwithin.rc_le, transferTrace_complete hcall⟩
    intro k hk p
    cases ho : (transferLoop calls.toCalls fd call size.toNat n 0 base).1 with
    | failed c =>
      rw [ho] at hk
      have hrc : (Outcome.failed c).rc = -5 := rfl
      omega
    | moved c =>
      rw [ho] at hk hwithin
      rw [hwithin.rc_moved] at hk
      by_cases hsettled : Settled base f.pos
      . rw [mem_pairs_iff hcall hsettled ho]
        simp only [Int.ofNat_lt.mp hk, true_and]
      . -- nothing is moved, or the loop would have failed
        obtain ⟨hbase, _⟩ := base_of_not_settled hsettled
        have hmoved : c = 0 := by
          cases Nat.eq_zero_or_pos size.toNat with
          | inl hsize =>
            rw [transferLoop, if_neg (by omega)] at ho
            cases ho
            rfl
          | inr hsize =>
            cases h.resolve_left hsettled with
            | inl hzero => exact absurd hzero (Nat.ne_of_gt hsize)
            | inr h =>
              cases h with
              | inl hrc =>
                rw [transferLoop_empty hbase hsize hrc] at ho
                cases ho
                rfl
              | inr hinterrupted =>
                obtain ⟨c', hfailed⟩ := (failed_iff hbase).mpr hinterrupted
                rw [ho] at hfailed
                cases hfailed
        omega

end Placed

theorem movesData_read (fd : Fd) (buffer : BitVec 64)
    : MovesData (.read fd buffer) := ⟨fun _ _ _ _ => rfl, fun _ _ => rfl⟩

theorem movesData_write (fd : Fd) (buffer : BitVec 64)
    : MovesData (.write fd buffer) := ⟨fun _ _ _ _ => rfl, fun _ _ => rfl⟩

theorem transfer_placed_iff (calls : FileCalls) (fd : Fd) (n : Nat) (buffer size base : BitVec 64)
    (f : File)
    : (Placed f size base (readToBuffer calls.toCalls fd n buffer size base).1.rc
          (readTrace calls.toCalls fd n buffer size base)
        ↔ Lands calls.toCalls fd (.read fd buffer) n size.toNat base f.pos)
      ∧ (Placed f size base (writeFromBuffer calls.toCalls fd n buffer size base).1.rc
          (writeTrace calls.toCalls fd n buffer size base)
        ↔ Lands calls.toCalls fd (.write fd buffer) n size.toNat base f.pos) :=
  ⟨placed_iff (movesData_read fd buffer) (readToBuffer_within calls.toCalls fd n buffer size base) f,
    placed_iff (movesData_write fd buffer) (writeFromBuffer_within calls.toCalls fd n buffer size base) f⟩

/-- All calls do what they are asked for, as long as the buffer is not too large. -/
def completeResult (_ : Nat) (c : Call) : Int :=
  match c with
  | .lseek _ offset => if 0 ≤ offset.toInt then offset.toInt else -1
  | .read _ _ pos bytes | .write _ _ pos bytes =>
    if pos + bytes < 0x8000000000000000 then bytes else -1 - pos

theorem completeResult_read (n : Nat) (fd : Fd) (buf : BitVec 64) (pos bytes : Nat)
    : completeResult n (.read fd buf pos bytes) ≤ bytes
      ∧ pos + completeResult n (.read fd buf pos bytes) < 2 ^ 63 := by
  unfold completeResult
  dsimp only
  split <;> omega

theorem completeResult_write (n : Nat) (fd : Fd) (buf : BitVec 64) (pos bytes : Nat)
    : completeResult n (.write fd buf pos bytes) ≤ bytes
      ∧ pos + completeResult n (.write fd buf pos bytes) < 2 ^ 63 :=
  completeResult_read n fd buf pos bytes

theorem completeResult_lseek (n : Nat) (fd : Fd) (offset : BitVec 64)
    : completeResult n (.lseek fd offset) = -1
      ∨ (0 ≤ offset.toInt ∧ completeResult n (.lseek fd offset) = offset.toInt) := by
  unfold completeResult
  dsimp only
  split
  . rename_i hnonneg
    exact Or.inr ⟨hnonneg, rfl⟩
  . exact Or.inl rfl

def completeCalls : FileCalls where
  result := completeResult
  read_le := completeResult_read
  write_le := completeResult_write
  lseek_eq := completeResult_lseek

/-- A device node is at the second chunk after a transfer of two from address 0. -/
theorem transfer_not_placed
    : ¬ ∀ (calls : FileCalls) (fd : Fd) (n : Nat) (buffer size base : BitVec 64) (f : File),
        Placed f size base (readToBuffer calls.toCalls fd n buffer size base).1.rc
            (readTrace calls.toCalls fd n buffer size base)
          ∧ Placed f size base (writeFromBuffer calls.toCalls fd n buffer size base).1.rc
            (writeTrace calls.toCalls fd n buffer size base) := by
  intro h
  have hplaced := (h completeCalls .device 0 0 4 0 ⟨.device, BitVec.ofNat 64 rwMaxSize⟩).2
  have hlands := (placed_iff (movesData_write .device 0)
    (writeFromBuffer_within completeCalls.toCalls .device 0 0 4 0) _).mp hplaced
  have hrc : chunkRc completeCalls.toCalls (.write .device 0) 0 (BitVec.toNat (4 : BitVec 64)) 0 0 = 4 := by
    decide
  have hsettled : ¬ Settled 0 (BitVec.ofNat 64 rwMaxSize) := by
    unfold Settled
    decide
  rcases hlands with hpos | hsize | hzero | ⟨i, _, hi, _⟩
  . exact hsettled hpos
  . exact absurd hsize (by decide)
  . rw [hrc] at hzero
    exact absurd hzero (by decide)
  . have hi0 : i = 0 := by
      have hlt : i * rwMaxSize < 4 := hi.lt
      unfold rwMaxSize at hlt
      omega
    rw [hi0] at hi
    have hneg := hi.fails (fun hne => absurd rfl hne)
    rw [hrc] at hneg
    exact absurd hneg (by decide)

end Tools
