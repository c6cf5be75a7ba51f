import ReferenceProjects.Xdma.Impl.Ctrl

/-!
This module contains which accesses of a user stay inside the BAR of a device node.
-/

namespace Xdma

/-- The bytes of the BAR that the kernel can reach, which are those of whole pages. -/
def PciBar.reach (b : PciBar) : Nat := min b.len ((b.mapLen + 4095) / 4096 * 4096)

/-- An access of the device is one of the BAR. -/
def CtrlAccess.Inside (c : CtrlCdev) : CtrlAccess → Prop
  | .reg addr => (addr - c.base).toNat + 4 ≤ c.bar.reach
  | .remap pfn size => c.bar.start.toNat ≤ pfn.toNat * 4096
      ∧ pfn.toNat * 4096 + size.toNat ≤ c.bar.start.toNat + c.bar.len

/-- What is asked for is not in the BAR. -/
def CtrlCall.Outside (c : CtrlCdev) : CtrlCall → Prop
  | .read _ pos | .write pos => c.bar.len < pos.toNat + 4
  | .mmap _ vma => c.bar.len < vma.off.toNat + vma.vsize.toNat

/-- All accesses of a call are inside the BAR, and a call for what is outside is refused. -/
structure CtrlGuarded (c : CtrlCdev) (call : CtrlCall) : Prop where
  inside : ∀ a ∈ (call.run c).accesses, a.Inside c
  refused : call.Outside c → (call.run c).rv < 0

/--
A register is at a position that is no multiple of four, or in the BAR and the first `2 ^ 31` bytes of it;
a mapping begins in the BAR, or is so long that the difference that has wrapped is too small for it, or
is refused by the kernel.
-/
def CtrlCall.Fits (c : CtrlCdev) : CtrlCall → Prop
  | .read _ pos | .write pos => pos &&& 3 ≠ 0 ∨ pos.toNat + 4 ≤ min c.bar.len (2 ^ 31)
  | .mmap remap vma => vma.off.toNat ≤ c.bar.len
      ∨ 2 ^ 64 + c.bar.len < vma.off.toNat + vma.vsize.toNat ∨ remap ≠ 0

theorem PciBar.reach_eq (b : PciBar)
    : b.reach = min b.len (2 ^ 31) := by
  unfold PciBar.reach PciBar.mapLen
  split <;> omega

/-- A BAR of a page at least begins at a page. -/
theorem PciBar.page_dvd (b : PciBar) (h : 4096 ≤ b.len)
    : 4096 ∣ b.start.toNat := by
  obtain ⟨k, hk⟩ := b.size
  have hle : 12 ≤ k := by
    by_contra hlt
    have hpow : 2 ^ k ≤ 2 ^ 11 := Nat.pow_le_pow_right (by decide) (by omega)
    omega
  have hdvd : 2 ^ 12 ∣ b.len := by
    rw [hk]
    exact Nat.pow_dvd_pow 2 hle
  exact Nat.dvd_trans hdvd b.aligned

theorem Vma.off_dvd (vma : Vma)
    : 4096 ∣ vma.off.toNat := by
  unfold Vma.off pageShift
  rw [BitVec.toNat_shiftLeft, Nat.shiftLeft_eq]
  omega

theorem Vma.vsize_le (vma : Vma)
    : 4096 ≤ vma.vsize.toNat := by
  have hlt := BitVec.lt_def.mp vma.nonempty
  have hstart := vma.startAligned
  have hend := vma.endAligned
  unfold pageShift at hstart hend
  unfold Vma.vsize
  rw [BitVec.toNat_sub_of_le (BitVec.le_def.mpr (Nat.le_of_lt hlt))]
  omega

/-- What is left of the BAR behind an offset, which wraps where the offset is larger than the BAR. -/
theorem PciBar.psize_toNat (b : PciBar) (off : BitVec 64)
    : (b.stop - b.start + 1 - off).toNat = (2 ^ 64 - off.toNat + b.len) % 2 ^ 64 := by
  obtain ⟨k, hk⟩ := b.size
  have hpos : 0 < b.len := by
    rw [hk]
    exact Nat.pow_pos (by decide)
  have hfits := b.fits
  have hone : (1 : BitVec 64).toNat = 1 := rfl
  have hoff := off.isLt
  unfold PciBar.stop
  rw [BitVec.toNat_sub, BitVec.toNat_add, BitVec.toNat_sub, BitVec.toNat_ofNat, hone]
  omega

section Calls

variable {c : CtrlCdev}

theorem CtrlGuarded.of_refused {call : CtrlCall} (haccesses : (call.run c).accesses = [])
    (hrv : (call.run c).rv < 0)
    : CtrlGuarded c call where
  inside := by
    rw [haccesses]
    intro a ha
    cases ha
  refused := fun _ => hrv

theorem CtrlGuarded.of_check (call : CtrlCall) (h : c.xcdevCheck < 0)
    : CtrlGuarded c call := by
  cases call with
  | read ioread32 pos =>
    apply CtrlGuarded.of_refused
    all_goals
      unfold CtrlCall.run charCtrlRead
      dsimp only
      rw [if_pos h]
    exact h
  | write pos =>
    apply CtrlGuarded.of_refused
    all_goals
      unfold CtrlCall.run charCtrlWrite
      dsimp only
      rw [if_pos h]
    exact h
  | mmap remap vma =>
    apply CtrlGuarded.of_refused
    all_goals
      unfold CtrlCall.run bridgeMmap
      dsimp only
      rw [if_pos h]
    exact h

theorem CtrlGuarded.reg_iff {call : CtrlCall} {pos : BitVec 64}
    (haccesses : (call.run c).accesses = if pos &&& 3 ≠ 0 then [] else [.reg (c.base + pos)])
    (hrv : (call.run c).rv = if pos &&& 3 ≠ 0 then -eproto else 4)
    (houtside : call.Outside c ↔ c.bar.len < pos.toNat + 4)
    : CtrlGuarded c call ↔ pos &&& 3 ≠ 0 ∨ pos.toNat + 4 ≤ min c.bar.len (2 ^ 31) := by
  have hinside : CtrlAccess.Inside c (.reg (c.base + pos))
      ↔ pos.toNat + 4 ≤ min c.bar.len (2 ^ 31) := by
    unfold CtrlAccess.Inside
    dsimp only
    rw [BitVec.add_comm, BitVec.add_sub_cancel, PciBar.reach_eq]
  by_cases halign : pos &&& 3 ≠ 0
  . rw [if_pos halign] at haccesses hrv
    apply iff_of_true ?_ (.inl halign)
    apply CtrlGuarded.of_refused haccesses
    rw [hrv]
    decide
  . rw [if_neg halign] at haccesses hrv
    rw [or_iff_right halign, ← hinside]
    constructor
    . intro h
      apply h.inside
      rw [haccesses]
      exact List.mem_singleton_self _
    . intro h
      constructor
      . rw [haccesses]
        intro a ha
        rw [List.mem_singleton.mp ha]
        exact h
      . rw [houtside]
        rw [hinside] at h
        omega

/-- The page of an offset into the BAR, and where it is if the offset is larger. -/
theorem CtrlAccess.remap_inside_iff (vma : Vma) (hle : vma.vsize ≤ c.bar.stop - c.bar.start + 1 - vma.off)
    : CtrlAccess.Inside c (.remap ((c.bar.start + vma.off) >>> pageShift) vma.vsize)
        ↔ vma.off.toNat ≤ c.bar.len := by
  have hoff := vma.off_dvd
  have hsize := vma.vsize_le
  have hfits := c.bar.fits
  have hlt := vma.off.isLt
  have hpage : 4096 ≤ c.bar.len → 4096 ∣ c.bar.start.toNat := c.bar.page_dvd
  rw [BitVec.le_def, PciBar.psize_toNat] at hle
  unfold CtrlAccess.Inside pageShift
  dsimp only
  rw [BitVec.toNat_ushiftRight, Nat.shiftRight_eq_div_pow, BitVec.toNat_add]
  generalize vma.off.toNat = off at hoff hlt hle ⊢
  generalize vma.vsize.toNat = size at hsize hle ⊢
  generalize c.bar.start.toNat = start at hfits hpage ⊢
  generalize c.bar.len = len at hfits hpage hle ⊢
  by_cases hin : off ≤ len
  . apply iff_of_true ?_ hin
    have hlong : 4096 ≤ len := by omega
    have hstart := hpage hlong
    omega
  . apply iff_of_false ?_ hin
    omega

theorem CtrlGuarded.mmap_iff (hcheck : ¬ c.xcdevCheck < 0) (remap : Int) (vma : Vma)
    : CtrlGuarded c (.mmap remap vma) ↔ CtrlCall.Fits c (.mmap remap vma) := by
  have hpsize := c.bar.psize_toNat vma.off
  have hoff := vma.off.isLt
  have hsize := vma.vsize_le
  have hvsize := vma.vsize.isLt
  have hfits := c.bar.fits
  have hinside := CtrlAccess.remap_inside_iff (c := c) vma
  have hrun : CtrlCall.run c (.mmap remap vma)
      = if vma.vsize > c.bar.stop - c.bar.start + 1 - vma.off then
          ⟨-einval, 0, [], none⟩
        else if remap ≠ 0 then
          ⟨-eagain, 0, [], none⟩
        else
          ⟨0, 0, [.remap ((c.bar.start + vma.off) >>> pageShift) vma.vsize], none⟩ := by
    unfold CtrlCall.run bridgeMmap
    dsimp only
    rw [if_neg hcheck]
  by_cases hlong : vma.vsize > c.bar.stop - c.bar.start + 1 - vma.off
  . rw [if_pos hlong] at hrun
    apply iff_of_true
    . apply CtrlGuarded.of_refused
      . rw [hrun]
      . rw [hrun]
        decide
    . rw [gt_iff_lt, BitVec.lt_def, hpsize] at hlong
      unfold CtrlCall.Fits
      omega
  . rw [if_neg hlong] at hrun
    rw [gt_iff_lt, BitVec.not_lt] at hlong
    have hinside := CtrlAccess.remap_inside_iff (c := c) vma hlong
    rw [BitVec.le_def, hpsize] at hlong
    by_cases hremap : remap ≠ 0
    . rw [if_pos hremap] at hrun
      apply iff_of_true ?_ (.inr (.inr hremap))
      apply CtrlGuarded.of_refused
      . rw [hrun]
      . rw [hrun]
        decide
    . rw [if_neg hremap] at hrun
      constructor
      . intro h
        left
        rw [← hinside]
        apply h.inside
        rw [hrun]
        exact List.mem_singleton_self _
      . intro h
        have hin : vma.off.toNat ≤ c.bar.len := by
          rcases h with hin | hwrap | hfail
          . exact hin
          . omega
          . exact absurd hfail hremap
        constructor
        . rw [hrun]
          intro a ha
          rw [List.mem_singleton.mp ha]
          exact hinside.mpr hin
        . intro houtside
          unfold CtrlCall.Outside at houtside
          omega

end Calls

/-- A user reaches no memory but the BAR exactly with the calls that fit it. -/
theorem ctrl_guarded_iff (c : CtrlCdev) (call : CtrlCall)
    : CtrlGuarded c call ↔ c.xcdevCheck < 0 ∨ call.Fits c := by
  by_cases hcheck : c.xcdevCheck < 0
  . exact iff_of_true (CtrlGuarded.of_check call hcheck) (.inl hcheck)
  . rw [or_iff_right hcheck]
    cases call with
    | read ioread32 pos =>
      apply CtrlGuarded.reg_iff
      . unfold CtrlCall.run charCtrlRead
        dsimp only
        rw [if_neg hcheck]
        split <;> rfl
      . unfold CtrlCall.run charCtrlRead
        dsimp only
        rw [if_neg hcheck]
        split <;> rfl
      . exact Iff.rfl
    | write pos =>
      apply CtrlGuarded.reg_iff
      . unfold CtrlCall.run charCtrlWrite
        dsimp only
        rw [if_neg hcheck]
        split <;> rfl
      . unfold CtrlCall.run charCtrlWrite
        dsimp only
        rw [if_neg hcheck]
        split <;> rfl
      . exact Iff.rfl
    | mmap remap vma => exact CtrlGuarded.mmap_iff hcheck remap vma

/-- A BAR of 64 KiB. -/
def bar64K : PciBar where
  start := 0xf0000000
  len := 0x10000
  size := ⟨16, rfl⟩
  aligned := by decide
  fits := by decide

/-- A page behind the BAR is mapped, and a register behind it is written. -/
theorem ctrl_not_guarded
    : ¬ CtrlGuarded ⟨0, bar64K, 0⟩ (.mmap 0 ⟨0, 0x1000, 0x11, by decide, by decide, by decide⟩)
      ∧ ¬ CtrlGuarded ⟨0, bar64K, 0⟩ (.write 0x10000) := by
  constructor
  . intro h
    have hrefused := h.refused (show (0x10000 : Nat) < 0x11000 + 0x1000 by decide)
    exact absurd hrefused (by decide)
  . intro h
    have hrefused := h.refused (show (0x10000 : Nat) < 0x10000 + 4 by decide)
    exact absurd hrefused (by decide)

end Xdma
