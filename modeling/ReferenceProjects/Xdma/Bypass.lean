import ReferenceProjects.Xdma.Impl.Bypass

/-!
This module contains that a user who reads a bypass device node gets the descriptors of all queued
transfers, or an error.
-/

namespace Xdma

/-- The descriptors of all queued transfers, in the order of the queue. -/
def BypassCdev.queued (c : BypassCdev) : List XdmaDesc :=
  c.drv.engine.transferList.flatMap c.drv.xferDescs

/-- How many descriptors the user buffer has room for. -/
def BypassCall.room (call : BypassCall) : Nat := call.count.toNat / sizeofXdmaDesc

/-- The user buffer holds so many descriptors, and nothing else of it has changed. -/
structure BypassFilled (user : Nat → BitVec 8) (descs : List XdmaDesc) (b : BypassBuf) : Prop where
  offset : b.bufOffset.toNat = sizeofXdmaDesc * descs.length
  user : b.user = Fill.put user 0 (descs.flatMap XdmaDesc.memory)

@[simp]
theorem XdmaDesc.length_memory (d : XdmaDesc)
    : d.memory.length = sizeofXdmaDesc := rfl

theorem length_flatMap_memory (descs : List XdmaDesc)
    : (descs.flatMap XdmaDesc.memory).length = sizeofXdmaDesc * descs.length := by
  induction descs with
  | nil => rfl
  | cons d descs ih =>
    rw [List.flatMap_cons, List.length_append, ih, XdmaDesc.length_memory, List.length_cons,
      Nat.mul_succ, Nat.add_comm]

section Copies

variable {call : BypassCall} {user : Nat → BitVec 8} {b : BypassBuf}

theorem copyDesc_filled (hcopy : ∀ n, call.copyToUser n = 0) {xs : List XdmaDesc}
    (h : BypassFilled user xs b) (hroom : xs.length ≤ call.room) (rc : Int) (d : XdmaDesc)
    : BypassFilled user (Fill.push call.room xs d) (copyDesc call (b, rc) d).1
      ∧ (copyDesc call (b, rc) d).2 = if xs.length < call.room then rc else -enomem := by
  have hlt := call.count_lt
  have hoffset := h.offset
  unfold BypassCall.room sizeofXdmaDesc at hroom
  unfold sizeofXdmaDesc at hoffset
  have hnext : (b.bufOffset + BitVec.ofNat 64 sizeofXdmaDesc).toNat = 32 * xs.length + 32 := by
    rw [BitVec.toNat_add, hoffset]
    unfold sizeofXdmaDesc
    rw [BitVec.toNat_ofNat]
    omega
  have hfits : b.bufOffset + BitVec.ofNat 64 sizeofXdmaDesc ≤ call.count ↔ xs.length < call.room := by
    rw [BitVec.le_def, hnext]
    unfold BypassCall.room sizeofXdmaDesc
    omega
  unfold copyDesc Fill.push
  by_cases hroom' : xs.length < call.room
  . have hput : d.memory.take (sizeofXdmaDesc - 0) = d.memory := by
      apply List.take_of_length_le
      rw [XdmaDesc.length_memory, Nat.sub_zero]
    simp only [hcopy, if_pos (hfits.mpr hroom'), if_pos hroom', ne_eq, not_true_eq_false, if_false,
      and_true]
    constructor
    . rw [hnext, List.length_append, List.length_singleton]
      rfl
    . rw [hput, h.user, h.offset, ← length_flatMap_memory, ← Nat.zero_add (List.length _),
        Fill.put_put, List.flatMap_append, List.flatMap_singleton]
  . simp only [if_neg (mt hfits.mp hroom'), if_neg hroom', and_true]
    exact h

/-- Once a descriptor does not fit, none of the same transfer fits. -/
theorem copyDescs_filled (hcopy : ∀ n, call.copyToUser n = 0) (descs : List XdmaDesc)
    {xs : List XdmaDesc} (h : BypassFilled user (xs.take call.room) b) (rc : Int)
    : BypassFilled user ((xs ++ descs).take call.room) (descs.foldl (copyDesc call) (b, rc)).1
      ∧ (descs.foldl (copyDesc call) (b, rc)).2
        = if descs = [] ∨ xs.length + descs.length ≤ call.room then rc else -enomem := by
  induction descs generalizing xs b rc with
  | nil =>
    rw [List.append_nil, if_pos (Or.inl rfl)]
    exact ⟨h, rfl⟩
  | cons d descs ih =>
    have hlen : (xs.take call.room).length = min call.room xs.length := List.length_take
    obtain ⟨hfilled, hrc⟩ := copyDesc_filled hcopy h (by omega) rc d
    rw [Fill.push_take] at hfilled
    obtain ⟨hfilled', hrc'⟩ := ih hfilled (copyDesc call (b, rc) d).2
    rw [List.append_assoc, List.singleton_append] at hfilled'
    rw [List.foldl_cons]
    refine ⟨hfilled', ?_⟩
    rw [hrc', hrc, hlen]
    simp only [List.length_append, List.length_cons, List.length_nil, reduceCtorEq, false_or]
    cases descs with
    | nil =>
      simp only [true_or, if_true, List.length_nil]
      congr 1
      apply propext
      omega
    | cons d' descs =>
      simp only [reduceCtorEq, false_or, List.length_cons]
      split
      . rw [if_pos (by omega), if_pos (by omega)]
      . rw [if_neg (by omega)]

theorem copyDescData_filled (hbuf : call.buf = true) (hcopy : ∀ n, call.copyToUser n = 0)
    {descs xs : List XdmaDesc} (hpos : 0 < descs.length) (h : BypassFilled user (xs.take call.room) b)
    : BypassFilled user ((xs ++ descs).take call.room) (copyDescData call descs b).1
      ∧ (copyDescData call descs b).2
        = if xs.length + descs.length ≤ call.room then 0 else -enomem := by
  have hne : descs ≠ [] := List.ne_nil_of_length_pos hpos
  have hspec := copyDescs_filled hcopy descs h 0
  simp only [hne, false_or] at hspec
  unfold copyDescData
  rw [hbuf, Bool.not_true, if_neg (by decide)]
  exact hspec

end Copies

/-- What the loop over the queue has copied, and the code that it has at that point. -/
structure Copied (call : BypassCall) (user : Nat → BitVec 8) (seen : List XdmaDesc)
    (s : BypassBuf × Int) : Prop where
  filled : BypassFilled user (seen.take call.room) s.1
  rc_nonneg : seen.length ≤ call.room → 0 ≤ s.2
  rc_neg : call.room < seen.length → s.2 < 0

theorem Copied.start (call : BypassCall) (user : Nat → BitVec 8) {rc : Int} (h : 0 ≤ rc)
    : Copied call user [] (⟨user, 0, 0⟩, rc) where
  filled := by
    rw [List.take_nil]
    constructor
    . rfl
    . rw [List.flatMap_nil, Fill.put_nil]
  rc_nonneg := fun _ => h
  rc_neg := fun hlt => absurd hlt (Nat.not_lt_zero _)

/-- A later transfer of a descriptor or more has an error of its own to report. -/
theorem Copied.step {call : BypassCall} {user : Nat → BitVec 8} {seen : List XdmaDesc}
    {s : BypassBuf × Int} (hbuf : call.buf = true) (hcopy : ∀ n, call.copyToUser n = 0)
    (h : Copied call user seen s) {descs : List XdmaDesc} (hpos : 0 < descs.length)
    : Copied call user (seen ++ descs) (copyDescData call descs s.1) := by
  obtain ⟨hfilled, hrc⟩ := copyDescData_filled hbuf hcopy hpos h.filled
  constructor
  . exact hfilled
  . intro hle
    rw [List.length_append] at hle
    rw [hrc, if_pos hle]
  . intro hlt
    rw [List.length_append] at hlt
    rw [hrc, if_neg (by omega)]
    decide

theorem bypassTransfers_copied {call : BypassCall} {user : Nat → BitVec 8} {drv : Driver}
    (hbuf : call.buf = true) (hcopy : ∀ n, call.copyToUser n = 0) (ts : List XferPtr)
    (hdesc : ∀ t ∈ ts, 0 < (drv.xfer t).descNum) {seen : List XdmaDesc} {s : BypassBuf × Int}
    (h : Copied call user seen s)
    : Copied call user (seen ++ ts.flatMap drv.xferDescs) (bypassTransfers call drv ts s) := by
  induction ts generalizing seen s with
  | nil =>
    rw [List.flatMap_nil, List.append_nil]
    exact h
  | cons t ts ih =>
    have hpos : 0 < (drv.xferDescs t).length := by
      rw [Driver.xferDescs, List.length_map, List.length_range]
      exact hdesc t List.mem_cons_self
    rw [List.flatMap_cons, ← List.append_assoc]
    apply ih
    . intro t' ht'
      exact hdesc t' (List.mem_cons_of_mem _ ht')
    . exact h.step hbuf hcopy hpos

/-- The code of the last transfer is an error exactly if not all descriptors of the queue fit. -/
theorem charBypassRead_copied {c : BypassCdev} {call : BypassCall} (user : Nat → BitVec 8)
    (hcheck : 0 ≤ c.xcdevCheck) (hbar : 0 ≤ c.bypassBarIdx) (hbuf : call.buf = true)
    (hmult : call.count &&& 3 = 0) (hcopy : ∀ n, call.copyToUser n = 0)
    (hdesc : ∀ t ∈ c.drv.engine.transferList, 0 < (c.drv.xfer t).descNum)
    : ∃ s, Copied call user c.queued s
      ∧ charBypassRead c call user = ⟨if s.2 < 0 then s.2 else s.1.bufOffset.toInt, s.1.user⟩ := by
  have hcopied := bypassTransfers_copied hbuf hcopy c.drv.engine.transferList hdesc
    (Copied.start call user hcheck)
  rw [List.nil_append] at hcopied
  refine ⟨_, hcopied, ?_⟩
  unfold charBypassRead
  rw [if_neg (by omega), if_neg (by simp only [hmult, ne_eq, not_true_eq_false, not_false_eq_true]),
    if_neg (by simp only [hbuf, Bool.not_true, Bool.false_eq_true, not_false_eq_true]),
    if_neg (by omega)]

/-- What the user gets: all descriptors of the queue, and their length is returned. -/
structure BypassComplete (c : BypassCdev) (user : Nat → BitVec 8) (r : BypassResult) : Prop where
  rv : r.rv = (sizeofXdmaDesc * c.queued.length : Nat)
  holds : Fill.slice r.user 0 (sizeofXdmaDesc * c.queued.length)
    = c.queued.flatMap XdmaDesc.memory
  rest : ∀ i, sizeofXdmaDesc * c.queued.length ≤ i → r.user i = user i

theorem charBypassRead_complete_iff {c : BypassCdev} {call : BypassCall} (user : Nat → BitVec 8)
    (hcheck : 0 ≤ c.xcdevCheck) (hbar : 0 ≤ c.bypassBarIdx) (hbuf : call.buf = true)
    (hmult : call.count &&& 3 = 0) (hcopy : ∀ n, call.copyToUser n = 0)
    (hdesc : ∀ t ∈ c.drv.engine.transferList, 0 < (c.drv.xfer t).descNum)
    : (BypassComplete c user (charBypassRead c call user)
        ↔ sizeofXdmaDesc * c.queued.length ≤ call.count.toNat)
      ∧ (call.count.toNat < sizeofXdmaDesc * c.queued.length
        → (charBypassRead c call user).rv < 0) := by
  obtain ⟨s, hcopied, heq⟩ := charBypassRead_copied user hcheck hbar hbuf hmult hcopy hdesc
  have hlt := call.count_lt
  have hfits : c.queued.length ≤ call.room
      ↔ sizeofXdmaDesc * c.queued.length ≤ call.count.toNat := by
    unfold BypassCall.room sizeofXdmaDesc
    omega
  have hfails (hover : call.room < c.queued.length) : (charBypassRead c call user).rv < 0 := by
    have hneg := hcopied.rc_neg hover
    rw [heq, if_pos hneg]
    exact hneg
  refine ⟨⟨?_, ?_⟩, ?_⟩
  . intro h
    by_contra hle
    have hneg := hfails (by omega)
    have hrv := h.rv
    omega
  . intro hle
    have hnonneg := hcopied.rc_nonneg (hfits.mpr hle)
    have hfilled := hcopied.filled
    rw [List.take_of_length_le (hfits.mpr hle)] at hfilled
    rw [heq, if_neg (by omega)]
    constructor
    . dsimp only
      rw [BitVec.toInt_eq_toNat_of_lt (by rw [hfilled.offset]; omega), hfilled.offset]
    . dsimp only
      rw [hfilled.user, ← length_flatMap_memory, Fill.slice_put]
    . intro i hi
      dsimp only
      rw [hfilled.user]
      apply Fill.put_behind
      rw [length_flatMap_memory]
      omega
  . intro hover
    apply hfails
    omega

/-- Two transfers of two descriptors each. -/
def bypassDriver : Driver :=
  let s := Driver.init { XdmaEngine.init .toDevice false 0x100000 0 with
    transferList := [.tfer 0 0, .tfer 0 1]
  }
  let xfer := { XdmaTransfer.zero .toDevice with descNum := 2 }
  (s.setXfer (.tfer 0 0) xfer).setXfer (.tfer 0 1) { xfer with descIndex := 2 }

theorem charBypassRead_complete_iff_64
    : let c : BypassCdev := ⟨0, 2, bypassDriver⟩
      let call : BypassCall := ⟨true, 64, by decide, fun _ => 0⟩
      (BypassComplete c (fun _ => 0) (charBypassRead c call (fun _ => 0)) ↔ 128 ≤ 64)
        ∧ (64 < 128 → (charBypassRead c call (fun _ => 0)).rv < 0) :=
  charBypassRead_complete_iff (fun _ => 0) (Int.le_refl 0) (by decide) rfl (by decide)
    (fun _ => rfl) (by decide)

end Xdma
