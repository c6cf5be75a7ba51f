import ReferenceProjects.Xdma.Impl.Bypass
import ReferenceProjects.Xdma.Probe

/-!
This module contains where the descriptors that a user writes to a bypass device node end up: in which of the
windows that probing gave to the engines.
-/

namespace Xdma

section Loop

/-- The number of words of a call. -/
def BypassWrite.words (call : BypassWrite) : Nat := call.count.toNat / 4

/-- Word `k` of the buffer can be read. -/
def BypassWrite.readable (call : BypassWrite) (k : Nat) : Bool := call.copyFromUser (4 * k) == 0

/-- The write of word `k` of the buffer to an address. -/
def BypassWrite.write (call : BypassWrite) (addr k : Nat) : BarWrite :=
  ⟨addr, Bits.load 32 (fun i => call.user (4 * k + i)) 4⟩

variable {call : BypassWrite}

theorem BypassWrite.toNat_count (call : BypassWrite) (h : call.count &&& 3 = 0)
    : call.count.toNat = 4 * call.words := by
  have hmod : call.count.toNat % 2 ^ 2 = 0 := by
    have hand := congrArg BitVec.toNat h
    rw [BitVec.toNat_and] at hand
    rw [← Nat.and_two_pow_sub_one_eq_mod]
    exact hand
  unfold BypassWrite.words
  omega

theorem bypassOffset_toNat (call : BypassWrite) {k : Nat} (hk : k ≤ call.words)
    : (BitVec.ofNat 64 (4 * k)).toNat = 4 * k := by
  have hle := call.count_le
  unfold BypassWrite.words at hk
  rw [BitVec.toNat_ofNat]
  omega

/-- From word `k` on the words are written up to the first that cannot be read. -/
theorem bypassWriteLoop_eq (hcount : call.count.toNat = 4 * call.words) (addr : Nat) {n k : Nat}
    (hn : k + n = call.words) (rc : Int) (writes : List BarWrite)
    : bypassWriteLoop call addr n (BitVec.ofNat 64 (4 * k)) rc writes
        =
      (if (List.range' k n).all call.readable then (if n = 0 then rc else call.count.toNat) else -einval,
        writes ++ ((List.range' k n).takeWhile call.readable).map (call.write addr)) := by
  induction n generalizing k rc writes with
  | zero => simp [bypassWriteLoop]
  | succ n ih =>
    have hle := call.count_le
    have hoffset := bypassOffset_toNat call (k := k) (by omega)
    have hlt : BitVec.ofNat 64 (4 * k) < call.count := by
      rw [BitVec.lt_def, hoffset, hcount]
      omega
    unfold bypassWriteLoop
    rw [if_pos hlt, hoffset, List.range'_succ]
    dsimp only
    by_cases hread : call.copyFromUser (4 * k) = 0
    . have hok : call.readable k = true := by
        unfold BypassWrite.readable
        rw [hread]
        rfl
      have hnext : BitVec.ofNat 64 (4 * k) + 4 = BitVec.ofNat 64 (4 * (k + 1)) := by
        rw [Nat.mul_succ, BitVec.ofNat_add]
        rfl
      have hrc : ((BitVec.ofNat 64 (4 * (k + 1))).setWidth 32).toInt = (4 * (k + 1) : Nat) := by
        have htoNat : ((BitVec.ofNat 64 (4 * (k + 1))).setWidth 32).toNat = 4 * (k + 1) := by
          rw [BitVec.toNat_setWidth, bypassOffset_toNat call (by omega)]
          omega
        rw [BitVec.toInt_eq_toNat_of_lt (by omega), htoNat]
      have hlast : (if n = 0 then ((4 * (k + 1) : Nat) : Int) else call.count.toNat) = call.count.toNat := by
        split
        . have hwords : k + 1 = call.words := by omega
          rw [hwords, ← hcount]
        . rfl
      rw [if_pos hread, hnext, hrc, ih (by omega), hlast, List.all_cons, hok, Bool.true_and,
        List.takeWhile_cons_of_pos hok, List.map_cons, List.append_assoc, if_neg (Nat.succ_ne_zero n)]
      rfl
    . have hno : call.readable k = false := by simp [BypassWrite.readable, hread]
      rw [if_neg hread, List.all_cons, hno, List.takeWhile_cons_of_neg (by simp [hno])]
      simp

end Loop

section Window

variable (env : ProbeEnv) (h2cMax c2hMax : Nat)

/-- An address of the bypass BAR is in the window that probing gave to an engine. -/
def EngineSlot.InWindow (e : EngineSlot) (addr : Nat) : Prop :=
  e.bypassOffset ≤ addr ∧ addr < e.bypassOffset + 0x100

/-- What is written to the bypass device node of an engine. -/
structure BypassWritten (d : ProbedDev) (id : EngineId) (call : BypassWrite) (r : Int × List BarWrite)
    : Prop where
  /-- the words in front of the first that cannot be read, in order, all at one address -/
  writes : r.2 = ((List.range call.words).takeWhile call.readable).map
    (call.write (4 * (d.engine id).bypassOffset))
  rv : 0 < call.words →
    r.1 = if (List.range call.words).all call.readable then (call.count.toNat : Int) else -einval
  window : ∀ w ∈ r.2, ∀ id', d.Present id' →
    ((d.engine id').InWindow w.addr ↔ (d.engine id').bypassOffset = 4 * (d.engine id).bypassOffset)

theorem window_iff {id id' : EngineId} (h : (probedDev env h2cMax c2hMax).Present id)
    (h' : (probedDev env h2cMax c2hMax).Present id')
    : ((probedDev env h2cMax c2hMax).engine id').InWindow
          (4 * ((probedDev env h2cMax c2hMax).engine id).bypassOffset)
        ↔ ((probedDev env h2cMax c2hMax).engine id').bypassOffset
            = 4 * ((probedDev env h2cMax c2hMax).engine id).bypassOffset := by
  unfold EngineSlot.InWindow
  rw [(probedDev_bit env h2cMax c2hMax h).2, (probedDev_bit env h2cMax c2hMax h').2]
  omega

/--
A call that is refused writes nothing. Of one that is not, all words go to one address, which is in the window
of the engine only if that is the first one, and in the window of another engine if it has four times the
number.
-/
theorem charBypassWrite_window (xcdevCheck bypassBarIdx : Int) (call : BypassWrite) (id : EngineId)
    (h : (probedDev env h2cMax c2hMax).Present id)
    : let d := probedDev env h2cMax c2hMax
      let r := charBypassWrite xcdevCheck bypassBarIdx (d.engine id).bypassOffset call
      (xcdevCheck < 0 ∨ call.count &&& 3 ≠ 0 ∨ call.buf = false ∨ bypassBarIdx < 0 → r.1 < 0 ∧ r.2 = [])
        ∧
      (0 ≤ xcdevCheck → call.count &&& 3 = 0 → call.buf = true → 0 ≤ bypassBarIdx →
        BypassWritten d id call r) := by
  dsimp only
  unfold charBypassWrite
  constructor
  . intro hrefused
    split
    . next hcheck => exact ⟨hcheck, rfl⟩
    . next hcheck =>
      split
      . exact ⟨by decide, rfl⟩
      . next hcount =>
        split
        . exact ⟨by decide, rfl⟩
        . next hbuf =>
          split
          . exact ⟨by decide, rfl⟩
          . next hbar =>
            rcases hrefused with h | h | h | h
            . contradiction
            . contradiction
            . simp [h] at hbuf
            . contradiction
  . intro hcheck hcount hbuf hbar
    rw [if_neg (by omega), if_neg (not_not_intro hcount), if_neg (by simp [hbuf]), if_neg (by omega)]
    have hloop := bypassWriteLoop_eq (call.toNat_count hcount)
      (4 * ((probedDev env h2cMax c2hMax).engine id).bypassOffset) (Nat.zero_add _) xcdevCheck []
    rw [← List.range_eq_range', List.nil_append] at hloop
    unfold BypassWrite.words at hloop
    replace hloop : bypassWriteLoop call (4 * ((probedDev env h2cMax c2hMax).engine id).bypassOffset)
        (call.count.toNat / 4) 0 xcdevCheck [] = _ := hloop
    rw [hloop]
    refine ⟨rfl, ?_, ?_⟩
    . intro hpos
      unfold BypassWrite.words at hpos
      rw [if_neg (Nat.ne_of_gt hpos)]
      rfl
    . intro w hw id' h'
      obtain ⟨k, _, rfl⟩ := List.mem_map.mp hw
      exact window_iff env h2cMax c2hMax h h'

theorem oneWord_count
    : (4 : BitVec 64).toNat ≤ 0x7ffff000 := by decide

def oneWord : BypassWrite := ⟨true, 4, oneWord_count, fun k => BitVec.ofNat 8 k, fun _ => 0⟩

/-- The C2H engine is the third one that was set up; its window is not written. -/
theorem charBypassWrite_window_c2h
    : BypassWritten (probedDev twoEngines 4 4) ⟨.fromDevice, 0⟩ oneWord
        (charBypassWrite 0 2 ((probedDev twoEngines 4 4).engine ⟨.fromDevice, 0⟩).bypassOffset oneWord) := by
  have hpresent : (probedDev twoEngines 4 4).Present ⟨.fromDevice, 0⟩ := by
    show 0 < (probedDev twoEngines 4 4).c2hChannelMax
    decide
  exact (charBypassWrite_window twoEngines 4 4 0 2 oneWord ⟨.fromDevice, 0⟩ hpresent).2
    (by decide) (by decide) rfl (by decide)

end Window

end Xdma
