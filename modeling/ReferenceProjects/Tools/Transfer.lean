import ReferenceProjects.Tools.Impl
import Mathlib.Algebra.Order.BigOperators.Group.List
import Mathlib.Algebra.Order.Group.Nat

/-!
This module contains what the transfers of `dma_to_device` and `dma_from_device` move: one transfer, the
windows of an aperture, and one round of the loop.
-/

namespace Tools

/-- No more is moved than the size, and less when the transfer failed. -/
structure Outcome.Within (o : Outcome) (size : Nat) : Prop where
  le : o.count ≤ size
  lt : o.count < 2 ^ 63
  failed : ∀ c, o = .failed c → c < size

section Outcome

variable {o : Outcome} {size : Nat}

theorem transferLoop_within {calls : Calls} {call : Nat → Nat → Call}
    (hcall : ∀ n pos bytes, calls.result n (call pos bytes) ≤ bytes
      ∧ pos + calls.result n (call pos bytes) < 2 ^ 63)
    (fd : Fd) (size n count : Nat) (offset : BitVec 64) (hle : count ≤ size) (hlt : count < 2 ^ 63)
    : (transferLoop calls fd call size n count offset).1.Within size := by
  fun_induction transferLoop calls fd call size n count offset with
  | case1 n count offset hcount seek hseek =>
    refine ⟨hle, hlt, ?_⟩
    intro c hc
    cases hc
    apply hcount
  | case2 n count offset hcount bytes seek hseek n' rc hrc =>
    refine ⟨hle, hlt, ?_⟩
    intro c hc
    cases hc
    apply hcount
  | case3 n count offset hcount bytes seek hseek n' rc hrc hne =>
    have hbound := hcall n' count bytes
    constructor
    . simp only [Outcome.count]
      omega
    . simp only [Outcome.count]
      omega
    . intro c hc
      contradiction
  | case4 n count offset hcount bytes seek hseek n' rc hrc hne ih =>
    have hbound := hcall n' count bytes
    apply ih
    . omega
    . omega
  | case5 n count offset hcount =>
    refine ⟨hle, hlt, ?_⟩
    intro c hc
    contradiction

theorem readToBuffer_within (calls : Calls) (fd : Fd) (n : Nat) (buffer size base : BitVec 64)
    : (readToBuffer calls fd n buffer size base).1.Within size.toNat := by
  apply transferLoop_within
  . intro n pos bytes
    apply calls.read_le
  . omega
  . omega

theorem writeFromBuffer_within (calls : Calls) (fd : Fd) (n : Nat) (buffer size base : BitVec 64)
    : (writeFromBuffer calls fd n buffer size base).1.Within size.toNat := by
  apply transferLoop_within
  . intro n pos bytes
    apply calls.write_le
  . omega
  . omega

theorem Tool.transfer_within (env : Env) (a : Args) (tool : Tool) (n : Nat) (buffer size : BitVec 64)
    : (tool.transfer env a n buffer size).1.Within size.toNat := by
  cases tool with
  | toDevice => apply writeFromBuffer_within
  | fromDevice => apply readToBuffer_within

theorem Outcome.Within.rc_moved {c : Nat} (h : (Outcome.moved c).Within size)
    : (Outcome.moved c).rc = c := by
  have hlt : c < 2 ^ 63 := h.lt
  rw [Outcome.rc, BitVec.toInt_eq_toNat_of_lt]
  . rw [BitVec.toNat_ofNat, Nat.mod_eq_of_lt (by omega)]
  . rw [BitVec.toNat_ofNat, Nat.mod_eq_of_lt (by omega)]
    omega

theorem Outcome.Within.rc_neg_iff (h : o.Within size)
    : o.rc < 0 ↔ ∃ c, o = .failed c := by
  cases o with
  | failed c => simp [Outcome.rc, eio]
  | moved c =>
    rw [h.rc_moved]
    simp

/-- What `rc` is where it is taken for an unsigned number. -/
def Outcome.unsigned : Outcome → Nat
  | .failed _ => 2 ^ 64 - 5
  | .moved count => count

theorem Outcome.Within.toNat_rc (h : o.Within size)
    : (BitVec.ofInt 64 o.rc).toNat = o.unsigned := by
  cases o with
  | failed c => rfl
  | moved c =>
    have hlt : c < 2 ^ 63 := h.lt
    rw [h.rc_moved]
    simp only [BitVec.toNat_ofInt, Outcome.unsigned]
    omega

end Outcome

/-- All of a transfer took place. -/
def Transfer.Full (t : Transfer) : Prop := t.outcome = .moved t.size

def Transfer.Failed (t : Transfer) : Prop := ∃ c, t.outcome = .failed c

/-- What sets `underflow` after a transfer between buffer and device. -/
def Transfer.underflow (t : Transfer) : Bool := t.outcome.unsigned < t.size

structure Transfer.Ok (t : Transfer) : Prop where
  within : t.outcome.Within t.size
  size : t.size < 2 ^ 64

/-- The bytes that were moved between buffer and device. -/
def Iteration.moved (it : Iteration) : Nat := (it.device.map (fun t => t.outcome.count)).sum

section Windows

variable (env : Env) (a : Args) (tool : Tool)

theorem Transfer.Ok.underflow_eq {t : Transfer} (h : t.Ok) {size : BitVec 64}
    (hsize : t.size = size.toNat)
    : t.underflow = decide (BitVec.ofInt 64 t.outcome.rc < size) := by
  simp only [Transfer.underflow, BitVec.lt_def, h.within.toNat_rc, hsize]

theorem sum_count_eq_iff {ts : List Transfer} (h : ∀ t ∈ ts, t.Ok)
    : (ts.map (fun t => t.outcome.count)).sum = (ts.map Transfer.size).sum
        ↔ ∀ t ∈ ts, t.outcome.count = t.size := by
  induction ts with
  | nil => simp
  | cons t ts ih =>
    have hle := (h t (by simp)).within.le
    have hsum : (ts.map (fun t => t.outcome.count)).sum ≤ (ts.map Transfer.size).sum := by
      apply List.sum_le_sum
      intro t ht
      exact (h t (by simp [ht])).within.le
    have ih := ih (fun t ht => h t (by simp [ht]))
    simp only [List.map_cons, List.sum_cons, List.mem_cons, forall_eq_or_imp, ← ih]
    omega

theorem window_bytes (len : BitVec 64)
    : (if a.aperture < len then a.aperture else len).toNat = min a.aperture.toNat len.toNat := by
  split
  . next h =>
    rw [BitVec.lt_def] at h
    omega
  . next h =>
    rw [BitVec.lt_def] at h
    omega

theorem windows_size (k : Nat) (len buf : BitVec 64) (v : Vars)
    (hlo : k * a.aperture.toNat < len.toNat + a.aperture.toNat) (hhi : len.toNat ≤ k * a.aperture.toNat)
    : ((windows env a tool k len buf v).2.map Transfer.size).sum = len.toNat := by
  induction k generalizing len buf v with
  | zero =>
    simp only [windows, List.map_nil, List.sum_nil]
    omega
  | succ k ih =>
    simp only [windows, List.map_cons, List.sum_cons, window_bytes]
    rw [Nat.succ_mul] at hlo hhi
    cases k with
    | zero =>
      simp only [windows, List.map_nil, List.sum_nil]
      omega
    | succ k =>
      have hsub : (len - a.aperture).toNat = len.toNat - a.aperture.toNat := by
        rw [Nat.succ_mul] at hlo
        apply BitVec.toNat_sub_of_le
        rw [BitVec.le_def]
        omega
      rw [ih]
      . rw [Nat.succ_mul] at hlo
        omega
      . omega
      . omega

/-- The windows, as the loop over them leaves them. -/
structure WindowsOk (v v' : Vars) (ts : List Transfer) : Prop where
  ok : ∀ t ∈ ts, t.place = .window ∧ t.Ok
  underflow : v'.underflow = (v.underflow || ts.any Transfer.underflow)
  bytesDone : (∀ t ∈ ts, ¬ t.Failed) →
    v'.bytesDone = v.bytesDone + BitVec.ofNat 64 (ts.map (fun t => t.outcome.count)).sum
  rc : v'.rc = v.rc
  outOffset : v'.outOffset = v.outOffset

theorem windows_ok (k : Nat) (len buf : BitVec 64) (v : Vars)
    : WindowsOk v (windows env a tool k len buf v).1 (windows env a tool k len buf v).2 := by
  induction k generalizing len buf v with
  | zero =>
    constructor
    . simp [windows]
    . simp [windows]
    . simp [windows]
    . rfl
    . rfl
  | succ k ih =>
    simp only [windows]
    generalize (if a.aperture < len then a.aperture else len) = bytes
    have hwithin := Tool.transfer_within env a tool v.calls buf bytes
    generalize tool.transfer env a v.calls buf bytes = r at hwithin ⊢
    have hok : Transfer.Ok ⟨.window, bytes.toNat, r.1⟩ := ⟨hwithin, bytes.isLt⟩
    have ih := ih (len - a.aperture) (buf + a.aperture)
      { v with
        calls := r.2, bytesDone := v.bytesDone + BitVec.ofInt 64 r.1.rc
        underflow := v.underflow || decide (BitVec.ofInt 64 r.1.rc < bytes) }
    constructor
    . intro t ht
      rcases List.mem_cons.mp ht with rfl | ht
      . exact ⟨rfl, hok⟩
      . apply ih.ok t ht
    . rw [ih.underflow, List.any_cons, hok.underflow_eq rfl, Bool.or_assoc]
    . intro hfailed
      rw [ih.bytesDone (fun t ht => hfailed t (by simp [ht]))]
      have hmoved : BitVec.ofInt 64 r.1.rc = BitVec.ofNat 64 r.1.count := by
        cases ho : r.1 with
        | failed c => exact absurd ⟨c, ho⟩ (hfailed _ List.mem_cons_self)
        | moved c =>
          rw [ho] at hwithin
          rw [hwithin.rc_moved]
          simp [Outcome.count]
      simp only [hmoved, List.map_cons, List.sum_cons, BitVec.ofNat_add, BitVec.add_assoc]
    . rw [ih.rc]
    . rw [ih.outOffset]

theorem aptLoop_bounds {a : Args} (h : 0 < a.aptLoop)
    : a.aptLoop * a.aperture.toNat < a.size.toNat + a.aperture.toNat
        ∧ a.size.toNat ≤ a.aptLoop * a.aperture.toNat := by
  unfold Args.aptLoop at h ⊢
  split at h
  . contradiction
  . next hne =>
    have hpos : 0 < a.aperture.toNat := by
      rw [Nat.pos_iff_ne_zero]
      intro hzero
      apply hne
      apply BitVec.eq_of_toNat_eq
      simp [hzero]
    have hsize := a.size.isLt
    have haperture := a.aperture.isLt
    rw [if_neg hne]
    rw [BitVec.toNat_udiv] at h ⊢
    have hle : a.aperture.toNat ≤ (a.size + a.aperture - 1).toNat := (Nat.div_pos_iff.mp h).2
    -- a sum that wraps around is less than the aperture
    have hsum : (a.size + a.aperture - 1).toNat = a.size.toNat + a.aperture.toNat - 1 := by
      simp only [BitVec.toNat_sub, BitVec.toNat_add, BitVec.reduceToNat] at hle ⊢
      omega
    rw [hsum]
    have hlo := Nat.div_mul_le_self (a.size.toNat + a.aperture.toNat - 1) a.aperture.toNat
    have hhi := Nat.lt_div_mul_add (a := a.size.toNat + a.aperture.toNat - 1) hpos
    omega

end Windows

end Tools
