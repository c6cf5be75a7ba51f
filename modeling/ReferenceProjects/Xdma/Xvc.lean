import ReferenceProjects.Xdma.Impl.Xvc

/-!
This module contains what `xvc_ioctl()` shifts out and in, and when its loop stays in its buffer and
ends.
-/

namespace Xdma

/-- The shift is over before the driver gives up. -/
def XvcShiftRegs.Completes (regs : XvcShiftRegs) : Prop :=
  xvcPoll regs.control completionLoopMax 0 = true

instance (regs : XvcShiftRegs) : Decidable regs.Completes :=
  inferInstanceAs (Decidable (_ = true))

/-- The bits of the `i`-th shift, and the bytes they take. -/
def xvcBits (n i : Nat) : Nat := min 32 (n - 32 * i)

def xvcBytes (n i : Nat) : Nat := (xvcBits n i + 7) / 8

/-- The `i`-th shift of `n` bits from a buffer with areas of `tb` bytes. -/
def xvcShift (n tb : Nat) (mem : Nat → BitVec 8) (i : Nat) : XvcShift where
  length := BitVec.ofNat 32 (xvcBits n i)
  tms := Bits.load 32 (fun k => mem (4 * i + k)) (xvcBytes n i)
  tdi := Bits.load 32 (fun k => mem (tb + 4 * i + k)) (xvcBytes n i)

/-- The state after `i` shifts that completed. -/
structure Shifted (n tb : Nat) (mem : Nat → BitVec 8) (regs : Nat → XvcShiftRegs) (i : Nat)
    (s : XvcState) : Prop where
  length : 32 ≤ n → 32 * i ≤ n → s.length = 32
  inputs : ∀ a < tb + tb, s.mem a = mem a
  tdo : ∀ a < min (4 * i) tb, s.mem (tb + tb + a) = Bits.byte (regs (a / 4)).tdo (a % 4)
  shifts : s.shifts = (List.range i).map (xvcShift n tb mem)
  memcpys : ∀ x ∈ s.memcpys, x.offset + x.length ≤ tb
  bitsWrap : s.bitsWrap = decide (2 ^ 32 ≤ 32 * i)

section Words

variable {n : BitVec 32}

theorem xvcTotalBytes_toNat (h : n.toNat + 7 < 2 ^ 32)
    : (xvcTotalBytes n).toNat = (n.toNat + 7) / 8 := by
  have hseven : (7 : BitVec 32).toNat = 7 := rfl
  unfold xvcTotalBytes
  rw [BitVec.toNat_ushiftRight, BitVec.toNat_add, hseven, Nat.mod_eq_of_lt h,
    Nat.shiftRight_eq_div_pow]

theorem xvcBits_toNat {i : Nat} (hi : 32 * i < n.toNat)
    : (BitVec.ofNat 32 (32 * i)).toNat = 32 * i
      ∧ (n - BitVec.ofNat 32 (32 * i)).toNat = n.toNat - 32 * i := by
  have hlt : 32 * i < 2 ^ 32 := Nat.lt_trans hi n.isLt
  have hbits : (BitVec.ofNat 32 (32 * i)).toNat = 32 * i := by
    rw [BitVec.toNat_ofNat, Nat.mod_eq_of_lt hlt]
  refine ⟨hbits, ?_⟩
  rw [BitVec.toNat_sub_of_le, hbits]
  rw [BitVec.le_def, hbits]
  omega

theorem xvcBits_next (i : Nat)
    : BitVec.ofNat 32 (32 * i) + 32 = BitVec.ofNat 32 (32 * (i + 1))
      ∧ n - BitVec.ofNat 32 (32 * i) - 32 = n - BitVec.ofNat 32 (32 * (i + 1)) := by
  have hnext : BitVec.ofNat 32 (32 * i) + 32 = BitVec.ofNat 32 (32 * (i + 1)) := by
    rw [Nat.mul_succ, BitVec.ofNat_add]
    rfl
  refine ⟨hnext, ?_⟩
  rw [← hnext]
  bv_omega

/-- What is loaded and shifted at most 32 bits at a time takes a word of at most four bytes. -/
theorem xvcBytes_toNat {left : BitVec 32} {i : Nat} (hleft : left.toNat = n.toNat - 32 * i)
    : (if left < 32 then (left + 7) >>> 3 else 4 : BitVec 32).toNat = xvcBytes n.toNat i := by
  have hthirty : (32 : BitVec 32).toNat = 32 := rfl
  have hseven : (7 : BitVec 32).toNat = 7 := rfl
  unfold xvcBytes xvcBits
  split
  . rename_i hlt
    rw [BitVec.lt_def, hthirty, hleft] at hlt
    rw [BitVec.toNat_ushiftRight, BitVec.toNat_add, hseven, hleft, Nat.shiftRight_eq_div_pow,
      Nat.min_eq_right (Nat.le_of_lt hlt)]
    omega
  . rename_i hge
    rw [BitVec.lt_def, hthirty, hleft] at hge
    rw [Nat.min_eq_left (by omega)]
    rfl

end Words

section Loop

variable {n : BitVec 32} {mem : Nat → BitVec 8} {regs : Nat → XvcShiftRegs} {i : Nat} {s : XvcState}

/-- The state when the `i`-th shift was enabled. -/
def XvcState.enabled (s : XvcState) (n tb : Nat) (mem : Nat → BitVec 8) (i : Nat) : XvcState :=
  { s with
      length := (xvcShift n tb mem i).length
      shifts := s.shifts ++ [xvcShift n tb mem i]
      memcpys := s.memcpys ++ [⟨.tms, 4 * i, xvcBytes n i⟩, ⟨.tdi, 4 * i, xvcBytes n i⟩] }

/-- The state when the `i`-th shift completed with the word `tdo`. -/
def XvcState.shifted (s : XvcState) (n tb : Nat) (mem : Nat → BitVec 8) (tdo : BitVec 32) (i : Nat)
    : XvcState :=
  { s.enabled n tb mem i with
      mem := Bits.store s.mem (tb + tb + 4 * i) tdo (xvcBytes n i)
      memcpys := (s.enabled n tb mem i).memcpys ++ [⟨.tdo, 4 * i, xvcBytes n i⟩]
      bitsWrap := decide (2 ^ 32 ≤ 32 * (i + 1)) }

theorem xvcArea_le (hi : 32 * i < n.toNat)
    : 4 * i + xvcBytes n.toNat i ≤ (n.toNat + 7) / 8 := by
  unfold xvcBytes xvcBits
  omega

/-- A load of the `i`-th word finds what was copied from the user. -/
theorem Shifted.load_eq {tb a : Nat} (h : Shifted n.toNat tb mem regs i s)
    (ha : a + xvcBytes n.toNat i ≤ tb + tb)
    : Bits.load 32 (fun k => s.mem (a + k)) (xvcBytes n.toNat i)
        = Bits.load 32 (fun k => mem (a + k)) (xvcBytes n.toNat i) := by
  apply Bits.load_congr
  intro k hk
  exact h.inputs (a + k) (by omega)

/-- The length register is written for a short shift only, and otherwise holds 32 already. -/
theorem Shifted.length_eq {tb : Nat} {left : BitVec 32} (h : Shifted n.toNat tb mem regs i s)
    (hi : 32 * i < n.toNat) (hleft : left.toNat = n.toNat - 32 * i)
    : (if left < 32 then ({ s with length := left }, (left + 7) >>> 3) else (s, 4))
        = ({ s with length := (xvcShift n.toNat tb mem i).length },
            if left < 32 then (left + 7) >>> 3 else 4) := by
  have hthirty : (32 : BitVec 32).toNat = 32 := rfl
  unfold xvcShift xvcBits
  split
  . rename_i hlt
    rw [BitVec.lt_def, hthirty, hleft] at hlt
    have hlength : left = BitVec.ofNat 32 (min 32 (n.toNat - 32 * i)) := by
      apply BitVec.eq_of_toNat_eq
      rw [hleft, BitVec.toNat_ofNat, Nat.min_eq_right (Nat.le_of_lt hlt)]
      omega
    rw [← hlength]
  . rename_i hge
    rw [BitVec.lt_def, hthirty, hleft] at hge
    have hlength : s.length = BitVec.ofNat 32 (min 32 (n.toNat - 32 * i)) := by
      rw [h.length (by omega) (by omega), Nat.min_eq_left (by omega)]
      rfl
    rw [← hlength]

theorem xvcLoop_round (fuel : Nat) (h7 : n.toNat + 7 < 2 ^ 32) (hi : 32 * i < n.toNat)
    (h : Shifted n.toNat (xvcTotalBytes n).toNat mem regs i s)
    : xvcLoop regs n (xvcTotalBytes n) (fuel + 1) (.ofNat 32 (32 * i)) (n - .ofNat 32 (32 * i)) s
        =
      if (regs i).Completes then
        xvcLoop regs n (xvcTotalBytes n) fuel (.ofNat 32 (32 * (i + 1)))
          (n - .ofNat 32 (32 * (i + 1)))
          (s.shifted n.toNat (xvcTotalBytes n).toNat mem (regs i).tdo i)
      else
        some (s.enabled n.toNat (xvcTotalBytes n).toNat mem i, -etimedout) := by
  obtain ⟨hbits, hleft⟩ := xvcBits_toNat hi
  obtain ⟨hnext, hleftNext⟩ := xvcBits_next (n := n) i
  have hlt : BitVec.ofNat 32 (32 * i) < n := by
    rw [BitVec.lt_def, hbits]
    exact hi
  have hbytes : (BitVec.ofNat 32 (32 * i) >>> 3).toNat = 4 * i := by
    rw [BitVec.toNat_ushiftRight, hbits, Nat.shiftRight_eq_div_pow]
    omega
  have hshift := xvcBytes_toNat hleft
  have htb := xvcTotalBytes_toNat h7
  have harea := xvcArea_le hi
  conv_lhs => unfold xvcLoop
  rw [if_pos hlt, hnext, hleftNext, h.length_eq hi hleft]
  have htms := h.load_eq (a := 4 * i) (by omega)
  have htdi := h.load_eq (a := (xvcTotalBytes n).toNat + 4 * i) (by omega)
  have hlen : s.shifts.length = i := by rw [h.shifts, List.length_map, List.length_range]
  have hwrap : (s.bitsWrap || decide (2 ^ 32 ≤ 32 * i + 32)) = decide (2 ^ 32 ≤ 32 * (i + 1)) := by
    rw [h.bitsWrap, Bool.eq_iff_iff, Bool.or_eq_true, decide_eq_true_iff, decide_eq_true_iff,
      decide_eq_true_iff]
    omega
  simp only [XvcState.load, XvcArea.base, xvcShiftBits, XvcState.store, hbytes, hshift, hbits, hlen,
    Nat.zero_add, htms, htdi, XvcState.shifted, XvcState.enabled, List.append_assoc]
  by_cases hpoll : (regs i).Completes
  . rw [if_pos hpoll]
    unfold XvcShiftRegs.Completes at hpoll
    rw [if_pos hpoll]
    dsimp only
    rw [hwrap, List.append_assoc]
    rfl
  . rw [if_neg hpoll]
    unfold XvcShiftRegs.Completes at hpoll
    rw [if_neg hpoll]
    rfl

theorem Shifted.next {n : Nat} (h : Shifted n ((n + 7) / 8) mem regs i s) (hi : 32 * i < n)
    : Shifted n ((n + 7) / 8) mem regs (i + 1) (s.shifted n ((n + 7) / 8) mem (regs i).tdo i) where
  length := by
    intro _ hnext
    have hbits : xvcBits n i = 32 := by
      unfold xvcBits
      omega
    dsimp only [XvcState.shifted, XvcState.enabled, xvcShift]
    rw [hbits]
    rfl
  inputs := by
    intro a ha
    dsimp only [XvcState.shifted]
    rw [Bits.store_outside _ _ (.inl (by omega))]
    exact h.inputs a ha
  tdo := by
    intro a ha
    dsimp only [XvcState.shifted]
    by_cases hold : a < 4 * i
    . rw [Bits.store_outside _ _ (.inl (by omega))]
      exact h.tdo a (by omega)
    . -- a byte of the word that was just shifted in
      have hplace : (n + 7) / 8 + (n + 7) / 8 + a = (n + 7) / 8 + (n + 7) / 8 + 4 * i + (a - 4 * i) := by
        omega
      have hdiv : a / 4 = i := by omega
      have hmod : a % 4 = a - 4 * i := by omega
      have hbytes : a - 4 * i < xvcBytes n i := by
        unfold xvcBytes xvcBits
        omega
      rw [hplace, Bits.store_inside _ _ _ hbytes, hdiv, hmod]
  shifts := by
    dsimp only [XvcState.shifted, XvcState.enabled]
    rw [h.shifts, List.range_succ, List.map_append]
    rfl
  memcpys := by
    have harea : 4 * i + xvcBytes n i ≤ (n + 7) / 8 := by
      unfold xvcBytes xvcBits
      omega
    intro x hx
    simp only [XvcState.shifted, XvcState.enabled, List.mem_append, List.mem_cons,
      List.not_mem_nil, or_false] at hx
    rcases hx with (hx | rfl | rfl) | rfl
    . exact h.memcpys x hx
    . exact harea
    . exact harea
    . exact harea
  bitsWrap := rfl

/-- The first `j` rounds, if all their shifts complete. -/
theorem xvcLoop_rounds (h7 : n.toNat + 7 < 2 ^ 32)
    (h : Shifted n.toNat ((n.toNat + 7) / 8) mem regs 0 s) (j : Nat)
    (hj : ∀ i < j, 32 * i < n.toNat ∧ (regs i).Completes)
    : ∃ s', Shifted n.toNat ((n.toNat + 7) / 8) mem regs j s'
        ∧ ∀ fuel, xvcLoop regs n (xvcTotalBytes n) (fuel + j) 0 n s
            = xvcLoop regs n (xvcTotalBytes n) fuel (.ofNat 32 (32 * j)) (n - .ofNat 32 (32 * j))
                s' := by
  induction j with
  | zero =>
    refine ⟨s, h, ?_⟩
    intro fuel
    have hzero : n - BitVec.ofNat 32 (32 * 0) = n := BitVec.sub_zero n
    rw [hzero]
    rfl
  | succ j ih =>
    obtain ⟨s', hs', hloop⟩ := ih (fun i hi => hj i (by omega))
    obtain ⟨hlt, hcompletes⟩ := hj j (Nat.lt_succ_self j)
    refine ⟨_, hs'.next hlt, ?_⟩
    intro fuel
    have htb := xvcTotalBytes_toNat h7
    have hround := xvcLoop_round fuel h7 hlt (htb ▸ hs')
    rw [if_pos hcompletes, htb] at hround
    rw [← hround, ← hloop]
    congr 1
    omega

end Loop

section Ioctl

variable {c : XvcCall}

/-- The call comes to the loop. -/
structure XvcCall.Starts (c : XvcCall) : Prop where
  xcdevCheck : 0 ≤ c.xcdevCheck
  cmd : c.cmdOk = true
  copyIoc : c.copyIoc = 0
  opcode : c.ioc.opcode = 0x01 ∨ c.ioc.opcode = 0x02
  kmalloc : c.kmalloc (xvcTotalBytes c.ioc.length * 3) = true
  copyTms : c.copyTms = 0
  copyTdi : c.copyTdi = 0

/-- The state of a call before its loop. -/
def XvcCall.start (c : XvcCall) (length : BitVec 32) : XvcState :=
  XvcState.init (if 32 ≤ c.ioc.length then 0x20 else length) (c.mem (xvcTotalBytes c.ioc.length))

theorem xvcIoctl_starts (h : c.Starts) (fuel : Nat) (length : BitVec 32)
    : xvcIoctl c fuel length
        =
      (xvcLoop c.regs c.ioc.length (xvcTotalBytes c.ioc.length) fuel 0 c.ioc.length
        (c.start length)).map (fun (s, rv) =>
          if rv < 0 then
            ⟨rv, s, none⟩
          else
            let tdoBuf := if c.ioc.opcode = 0x2 then XvcArea.tdi else .tdo
            ⟨c.copyTdo, s, some (s.bytes (xvcTotalBytes c.ioc.length) tdoBuf)⟩) := by
  have hcheck := h.xcdevCheck
  unfold xvcIoctl XvcCall.start
  dsimp only
  rw [if_neg (by omega), h.cmd, if_neg (by simp), if_neg (not_not.mpr h.copyIoc), if_neg,
    h.kmalloc, if_neg (by simp), if_neg (not_not.mpr h.copyTms), if_neg (not_not.mpr h.copyTdi)]
  . by_cases hlong : 32 ≤ c.ioc.length
    . rw [if_pos hlong, if_pos hlong]
      rfl
    . rw [if_neg hlong, if_neg hlong]
  . rintro ⟨hone, htwo⟩
    exact h.opcode.elim hone htwo

theorem XvcCall.start_shifted (c : XvcCall) (length : BitVec 32)
    : Shifted c.ioc.length.toNat ((c.ioc.length.toNat + 7) / 8)
        (c.mem (xvcTotalBytes c.ioc.length)) c.regs 0 (c.start length) where
  length := by
    intro hlong _
    have hword : (32 : BitVec 32) ≤ c.ioc.length := by
      rw [BitVec.le_def]
      exact hlong
    dsimp only [XvcCall.start, XvcState.init]
    rw [if_pos hword]
  inputs := fun _ _ => rfl
  tdo := fun a ha => absurd ha (by omega)
  shifts := rfl
  memcpys := fun x hx => absurd hx List.not_mem_nil
  bitsWrap := rfl

/-- A call whose shifts all complete ends with all of them made. -/
theorem xvcIoctl_ends (h : c.Starts) (length : BitVec 32)
    (hn : c.ioc.length.toNat + 31 < 2 ^ 32)
    (hshifts : ∀ i < (c.ioc.length.toNat + 31) / 32, (c.regs i).Completes)
    : ∃ s, Shifted c.ioc.length.toNat ((c.ioc.length.toNat + 7) / 8)
          (c.mem (xvcTotalBytes c.ioc.length)) c.regs ((c.ioc.length.toNat + 31) / 32) s
        ∧ ∀ fuel > (c.ioc.length.toNat + 31) / 32,
          xvcIoctl c fuel length
            = some ⟨c.copyTdo, s, some (s.bytes (xvcTotalBytes c.ioc.length)
                (if c.ioc.opcode = 0x2 then .tdi else .tdo))⟩ := by
  have h7 : c.ioc.length.toNat + 7 < 2 ^ 32 := by omega
  obtain ⟨s, hs, hloop⟩ := xvcLoop_rounds h7 (c.start_shifted length)
    ((c.ioc.length.toNat + 31) / 32) (fun i hi => ⟨by omega, hshifts i hi⟩)
  refine ⟨s, hs, ?_⟩
  intro fuel hfuel
  obtain ⟨rest, rfl⟩ : ∃ rest, fuel = rest + 1 + (c.ioc.length.toNat + 31) / 32 :=
    ⟨fuel - (c.ioc.length.toNat + 31) / 32 - 1, by omega⟩
  have hend : ¬ BitVec.ofNat 32 (32 * ((c.ioc.length.toNat + 31) / 32)) < c.ioc.length := by
    rw [BitVec.lt_def, BitVec.toNat_ofNat, Nat.mod_eq_of_lt (by omega)]
    omega
  rw [xvcIoctl_starts h, hloop]
  unfold xvcLoop
  rw [if_neg hend]
  rfl

theorem XvcCall.mem_tms (c : XvcCall) (totalBytes : BitVec 32) {a : Nat} (h : a < totalBytes.toNat)
    : c.mem totalBytes a = c.ioc.tmsBuf a := if_pos h

theorem XvcCall.mem_tdi (c : XvcCall) (totalBytes : BitVec 32) (a : Nat)
    : c.mem totalBytes (totalBytes.toNat + a) = c.ioc.tdiBuf a := by
  unfold XvcCall.mem
  rw [if_neg (by omega), Nat.add_sub_cancel_left]

/-- The bits of the words that are loaded for the shifts are those of the memory. -/
theorem xvcShift_bits (n : Nat) (mem : Nat → BitVec 8)
    : (List.range ((n + 31) / 32)).flatMap (fun i =>
          Bits.ofWord (Bits.load 32 (fun k => mem (4 * i + k)) (xvcBytes n i)) (xvcBits n i))
        = Bits.ofMem mem 0 n := by
  rw [← Bits.flatMap_ofMem mem (b := 32) (j := (n + 31) / 32) (by omega)]
  apply List.flatMap_congr
  intro i _
  have hplace : 8 * (4 * i) = 32 * i := by omega
  have hbits : xvcBits n i ≤ 8 * xvcBytes n i := by
    unfold xvcBytes
    omega
  have hword : xvcBits n i ≤ 32 := Nat.min_le_left 32 _
  rw [Bits.ofWord_load mem hword hbits, hplace]
  rfl

theorem xvcShift_length (n tb : Nat) (mem : Nat → BitVec 8) (i : Nat)
    : (xvcShift n tb mem i).length.toNat = xvcBits n i := by
  have hword : xvcBits n i ≤ 32 := Nat.min_le_left 32 _
  dsimp only [xvcShift]
  rw [BitVec.toNat_ofNat, Nat.mod_eq_of_lt (by omega)]

/-- The words that were shifted out, as they follow each other, are the bits of the user's buffers. -/
theorem Shifted.bits {s : XvcState} (h7 : c.ioc.length.toNat + 7 < 2 ^ 32)
    (h : Shifted c.ioc.length.toNat ((c.ioc.length.toNat + 7) / 8)
      (c.mem (xvcTotalBytes c.ioc.length)) c.regs ((c.ioc.length.toNat + 31) / 32) s)
    : s.shifts.flatMap (fun x => Bits.ofWord x.tms x.length.toNat)
          = Bits.ofMem c.ioc.tmsBuf 0 c.ioc.length.toNat
        ∧ s.shifts.flatMap (fun x => Bits.ofWord x.tdi x.length.toNat)
          = Bits.ofMem c.ioc.tdiBuf 0 c.ioc.length.toNat := by
  have htb := xvcTotalBytes_toNat h7
  rw [h.shifts, List.flatMap_map, List.flatMap_map]
  simp only [xvcShift_length]
  constructor
  . have hbits := xvcShift_bits c.ioc.length.toNat (c.mem (xvcTotalBytes c.ioc.length))
    have hmem : Bits.ofMem (c.mem (xvcTotalBytes c.ioc.length)) 0 c.ioc.length.toNat
        = Bits.ofMem c.ioc.tmsBuf 0 c.ioc.length.toNat := by
      apply Bits.ofMem_congr (k := (xvcTotalBytes c.ioc.length).toNat) (by omega)
      intro a ha
      exact c.mem_tms _ ha
    rw [← hmem, ← hbits]
    rfl
  . have hbits := xvcShift_bits c.ioc.length.toNat c.ioc.tdiBuf
    rw [← hbits]
    apply List.flatMap_congr
    intro i _
    dsimp only [xvcShift]
    congr 2
    funext k
    rw [← htb, Nat.add_assoc, c.mem_tdi]

theorem Shifted.tdo_bytes {s : XvcState} (h7 : c.ioc.length.toNat + 7 < 2 ^ 32)
    (h : Shifted c.ioc.length.toNat ((c.ioc.length.toNat + 7) / 8)
      (c.mem (xvcTotalBytes c.ioc.length)) c.regs ((c.ioc.length.toNat + 31) / 32) s)
    : s.bytes (xvcTotalBytes c.ioc.length) .tdo
        = ((List.range ((c.ioc.length.toNat + 31) / 32)).flatMap
            (fun i => Bits.toBytes 4 (c.regs i).tdo)).take ((c.ioc.length.toNat + 7) / 8) := by
  have htb := xvcTotalBytes_toNat h7
  unfold Bits.toBytes
  rw [Bits.flatMap_lines (fun i => Bits.byte (c.regs i).tdo) (by decide), ← List.map_take,
    List.take_range, Nat.min_eq_left (by omega)]
  unfold XvcState.bytes
  rw [htb]
  apply List.map_congr_left
  intro a ha
  rw [List.mem_range] at ha
  dsimp only [XvcArea.base]
  rw [htb]
  exact h.tdo a (by omega)

theorem Shifted.tdi_bytes {s : XvcState} (h7 : c.ioc.length.toNat + 7 < 2 ^ 32) {i : Nat}
    (h : Shifted c.ioc.length.toNat ((c.ioc.length.toNat + 7) / 8)
      (c.mem (xvcTotalBytes c.ioc.length)) c.regs i s)
    : s.bytes (xvcTotalBytes c.ioc.length) .tdi
        = (List.range ((c.ioc.length.toNat + 7) / 8)).map c.ioc.tdiBuf := by
  have htb := xvcTotalBytes_toNat h7
  unfold XvcState.bytes
  rw [htb]
  apply List.map_congr_left
  intro a ha
  rw [List.mem_range] at ha
  dsimp only [XvcArea.base]
  rw [h.inputs _ (by omega), c.mem_tdi]

/-- What a call that was answered all its shifts has done. -/
structure XvcShifted (c : XvcCall) (r : XvcResult) : Prop where
  count : r.state.shifts.length = (c.ioc.length.toNat + 31) / 32
  length : ∀ i, (h : i < r.state.shifts.length) →
    (r.state.shifts.get ⟨i, h⟩).length.toNat = min 32 (c.ioc.length.toNat - 32 * i)
  tms : r.state.shifts.flatMap (fun x => Bits.ofWord x.tms x.length.toNat)
    = Bits.ofMem c.ioc.tmsBuf 0 c.ioc.length.toNat
  tdi : r.state.shifts.flatMap (fun x => Bits.ofWord x.tdi x.length.toNat)
    = Bits.ofMem c.ioc.tdiBuf 0 c.ioc.length.toNat
  tdo : c.ioc.opcode = 0x1 → r.tdo = some (((List.range r.state.shifts.length).flatMap
    (fun i => Bits.toBytes 4 (c.regs i).tdo)).take ((c.ioc.length.toNat + 7) / 8))
  loopback : c.ioc.opcode = 0x2 → r.tdo
    = some ((List.range ((c.ioc.length.toNat + 7) / 8)).map c.ioc.tdiBuf)

/--
A call for up to `2 ^ 32 - 32` bits whose shifts complete shifts out the bits of both buffers in words of
32 and one for the rest, and returns what was shifted in.
-/
theorem xvcIoctl_shifts (c : XvcCall) (length : BitVec 32) (hstarts : c.Starts)
    (hn : c.ioc.length.toNat + 31 < 2 ^ 32)
    (hshifts : ∀ i < (c.ioc.length.toNat + 31) / 32, (c.regs i).Completes)
    : ∃ r, XvcShifted c r ∧ ∀ fuel > (c.ioc.length.toNat + 31) / 32,
        xvcIoctl c fuel length = some r := by
  have h7 : c.ioc.length.toNat + 7 < 2 ^ 32 := by omega
  obtain ⟨s, hs, hends⟩ := xvcIoctl_ends hstarts length hn hshifts
  have hcount : s.shifts.length = (c.ioc.length.toNat + 31) / 32 := by
    rw [hs.shifts, List.length_map, List.length_range]
  refine ⟨_, ?_, hends⟩
  constructor
  . exact hcount
  . intro i h
    simp only [hs.shifts, List.get_eq_getElem, List.getElem_map, List.getElem_range]
    exact xvcShift_length _ _ _ i
  . exact (hs.bits h7).1
  . exact (hs.bits h7).2
  . intro hopcode
    have hne : ¬ c.ioc.opcode = 0x2 := by
      rw [hopcode]
      decide
    dsimp only
    rw [if_neg hne, hcount]
    exact congrArg some (hs.tdo_bytes h7)
  . intro hopcode
    dsimp only
    rw [if_pos hopcode]
    exact congrArg some (hs.tdi_bytes h7)

/-- 37 bits, which take one shift of 32 bits and one of 5. -/
def xvcCall37 : XvcCall where
  xcdevCheck := 0
  cmdOk := true
  copyIoc := 0
  ioc := ⟨1, 37, fun _ => 0xa5, fun i => .ofNat 8 i⟩
  kmalloc := fun _ => true
  copyTms := 0
  copyTdi := 0
  copyTdo := 0
  regs := fun _ => ⟨fun _ => 0, 0x12345678⟩

theorem xvcIoctl_shifts_37
    : ∃ r, XvcShifted xvcCall37 r ∧ ∀ fuel > 2, xvcIoctl xvcCall37 fuel 0 = some r :=
  xvcIoctl_shifts xvcCall37 0 ⟨by decide, rfl, rfl, .inl rfl, rfl, rfl, rfl⟩ (by decide)
    (fun _ _ => show xvcPoll (fun _ => 0) completionLoopMax 0 = true from rfl)

end Ioctl

section Safe

variable {c : XvcCall}

theorem xvcLoop_mono {regs : Nat → XvcShiftRegs} {n tb bits bitsLeft : BitVec 32} {fuel : Nat}
    {s : XvcState} {r : XvcState × Int} (h : xvcLoop regs n tb fuel bits bitsLeft s = some r)
    (more : Nat)
    : xvcLoop regs n tb (fuel + more) bits bitsLeft s = some r := by
  induction fuel generalizing bits bitsLeft s with
  | zero => cases h
  | succ fuel ih =>
    rw [Nat.succ_add]
    unfold xvcLoop at h ⊢
    by_cases hlt : bits < n
    . rw [if_pos hlt] at h ⊢
      dsimp only at h ⊢
      generalize xvcShiftBits _ _ _ _ = shift at h ⊢
      obtain ⟨s', tdo⟩ := shift
      cases tdo with
      | none => exact h
      | some tdo => exact ih h
    . rw [if_neg hlt] at h ⊢
      exact h

theorem xvcShiftBits_bitsWrap (regs : XvcShiftRegs) (s : XvcState) (tmsBits tdiBits : BitVec 32)
    : (xvcShiftBits regs s tmsBits tdiBits).1.bitsWrap = s.bitsWrap := by
  unfold xvcShiftBits
  dsimp only
  split <;> rfl

theorem xvcLoop_bitsWrap {regs : Nat → XvcShiftRegs} {n tb bits bitsLeft : BitVec 32} {fuel : Nat}
    {s : XvcState} {r : XvcState × Int} (h : xvcLoop regs n tb fuel bits bitsLeft s = some r)
    (hwrap : s.bitsWrap = true)
    : r.1.bitsWrap = true := by
  induction fuel generalizing bits bitsLeft s with
  | zero => cases h
  | succ fuel ih =>
    unfold xvcLoop at h
    by_cases hlt : bits < n
    . rw [if_pos hlt] at h
      generalize hsplit : (if bitsLeft < 32 then
        ({ s with length := bitsLeft }, (bitsLeft + 7) >>> 3) else (s, 4)) = m at h
      have hm : m.1.bitsWrap = true := by
        rw [← hsplit]
        split <;> exact hwrap
      dsimp only at h
      generalize hshift : xvcShiftBits _ _ _ _ = shift at h
      have hbits : shift.1.bitsWrap = true := by
        rw [← hshift, xvcShiftBits_bitsWrap]
        exact hm
      obtain ⟨s', tdo⟩ := shift
      cases tdo with
      | none =>
        cases h
        exact hbits
      | some tdo =>
        apply ih h
        dsimp only [XvcState.store]
        rw [hbits, Bool.true_or]
    . rw [if_neg hlt] at h
      cases h
      exact hwrap

/-- The call gets as far as `total_bytes`. -/
structure XvcCall.Computes (c : XvcCall) : Prop where
  xcdevCheck : 0 ≤ c.xcdevCheck
  cmd : c.cmdOk = true
  copyIoc : c.copyIoc = 0
  opcode : c.ioc.opcode = 0x01 ∨ c.ioc.opcode = 0x02

/--
The call ends, its copies are inside the areas of the buffer, and no computation of a size or of the
counter wraps.
-/
structure XvcSafe (c : XvcCall) (length : BitVec 32) : Prop where
  ends : ∃ fuel r, xvcIoctl c fuel length = some r
    ∧ (∀ x ∈ r.state.memcpys, x.offset + x.length ≤ (xvcTotalBytes c.ioc.length).toNat)
    ∧ r.state.bitsWrap = false
  totalBytes : c.Computes → c.ioc.length.toNat + 7 < 2 ^ 32
  size : c.Computes → (xvcTotalBytes c.ioc.length).toNat * 3 < 2 ^ 32

/--
The length is at most `2 ^ 32 - 32`; or at most `2 ^ 32 - 8`, and the call gets no memory, or cannot copy
from the user, or one of the first `2 ^ 27` shifts does not complete.
-/
def XvcFits (c : XvcCall) : Prop :=
  c.Computes → c.ioc.length.toNat + 7 < 2 ^ 32
    ∧ (c.ioc.length.toNat + 31 < 2 ^ 32
      ∨ c.kmalloc (xvcTotalBytes c.ioc.length * 3) = false
      ∨ c.copyTms ≠ 0
      ∨ c.copyTdi ≠ 0
      ∨ ∃ i < 2 ^ 27, ¬ (c.regs i).Completes)

theorem XvcCall.Computes.starts (h : c.Computes)
    (hkmalloc : c.kmalloc (xvcTotalBytes c.ioc.length * 3) = true) (htms : c.copyTms = 0)
    (htdi : c.copyTdi = 0)
    : c.Starts :=
  ⟨h.xcdevCheck, h.cmd, h.copyIoc, h.opcode, hkmalloc, htms, htdi⟩

/-- A call that does not come to its loop copies nothing into the buffer or out of it. -/
theorem xvcIoctl_refused (h : ¬ c.Starts) (fuel : Nat) (length : BitVec 32)
    : ∃ rv, xvcIoctl c fuel length
        = some ⟨rv, .init length (c.mem (xvcTotalBytes c.ioc.length)), none⟩ := by
  unfold xvcIoctl
  dsimp only
  split
  . exact ⟨_, rfl⟩
  . split
    . exact ⟨_, rfl⟩
    . split
      . exact ⟨_, rfl⟩
      . split
        . exact ⟨_, rfl⟩
        . split
          . exact ⟨_, rfl⟩
          . split
            . exact ⟨_, rfl⟩
            . split
              . exact ⟨_, rfl⟩
              . rename_i hcheck hcmd hioc hopcode hkmalloc htms htdi
                exact absurd ⟨by omega, by simpa using hcmd, not_not.mp hioc,
                  by rw [not_and_or, not_not, not_not] at hopcode; exact hopcode,
                  by simpa using hkmalloc, not_not.mp htms, not_not.mp htdi⟩ h

/-- A call one of whose shifts does not complete gives up at the first of these. -/
theorem xvcIoctl_times_out (h : c.Starts) (length : BitVec 32)
    (h7 : c.ioc.length.toNat + 7 < 2 ^ 32)
    (hfail : ∃ i, 32 * i < c.ioc.length.toNat ∧ ¬ (c.regs i).Completes)
    : ∃ fuel r, xvcIoctl c fuel length = some r
        ∧ (∀ x ∈ r.state.memcpys, x.offset + x.length ≤ (xvcTotalBytes c.ioc.length).toNat)
        ∧ r.state.bitsWrap = false := by
  have htb := xvcTotalBytes_toNat h7
  classical
  obtain ⟨hlt, hnot⟩ := Nat.find_spec hfail
  have hbefore : ∀ i < Nat.find hfail, 32 * i < c.ioc.length.toNat ∧ (c.regs i).Completes := by
    intro i hi
    have hi' : 32 * i < c.ioc.length.toNat := by omega
    refine ⟨hi', ?_⟩
    by_contra hnot'
    exact Nat.find_min hfail hi ⟨hi', hnot'⟩
  generalize Nat.find hfail = j at hlt hnot hbefore
  obtain ⟨s, hs, hloop⟩ := xvcLoop_rounds h7 (c.start_shifted length) j hbefore
  have hround := xvcLoop_round 0 h7 hlt (htb ▸ hs)
  rw [if_neg hnot, Nat.zero_add] at hround
  refine ⟨1 + j, ⟨-etimedout, s.enabled c.ioc.length.toNat (xvcTotalBytes c.ioc.length).toNat
    (c.mem (xvcTotalBytes c.ioc.length)) j, none⟩, ?_, ?_, ?_⟩
  . rw [xvcIoctl_starts h, hloop, hround]
    rfl
  . intro x hx
    simp only [XvcState.enabled, List.mem_append, List.mem_cons, List.not_mem_nil, or_false] at hx
    have harea := xvcArea_le hlt
    rw [htb]
    rcases hx with hx | rfl | rfl
    . exact hs.memcpys x hx
    . exact harea
    . exact harea
  . dsimp only [XvcState.enabled]
    rw [hs.bitsWrap, decide_eq_false_iff_not]
    have hlt' := c.ioc.length.isLt
    omega

/-- A call that comes to the loop with enough completing shifts for the counter to wrap wraps it. -/
theorem xvcIoctl_wraps (h : c.Starts) (length : BitVec 32) (h7 : c.ioc.length.toNat + 7 < 2 ^ 32)
    (hlong : 2 ^ 32 ≤ c.ioc.length.toNat + 31) (hshifts : ∀ i < 2 ^ 27, (c.regs i).Completes)
    {fuel : Nat} {r : XvcResult} (hr : xvcIoctl c fuel length = some r)
    : r.state.bitsWrap = true := by
  obtain ⟨s, hs, hloop⟩ := xvcLoop_rounds h7 (c.start_shifted length) (2 ^ 27)
    (fun i hi => ⟨by omega, hshifts i hi⟩)
  rw [xvcIoctl_starts h, Option.map_eq_some_iff] at hr
  obtain ⟨⟨s', rv⟩, hr, rfl⟩ := hr
  have hmore := xvcLoop_mono hr (2 ^ 27)
  rw [hloop] at hmore
  have hwrap := xvcLoop_bitsWrap hmore (by rw [hs.bitsWrap]; rfl)
  dsimp only at hwrap ⊢
  split <;> exact hwrap

theorem xvcShiftBits_completes {regs : XvcShiftRegs} (h : regs.Completes) (s : XvcState)
    (tmsBits tdiBits : BitVec 32)
    : (xvcShiftBits regs s tmsBits tdiBits).2 = some regs.tdo := by
  unfold XvcShiftRegs.Completes at h
  unfold xvcShiftBits
  dsimp only
  rw [if_pos h]

/-- With so many bits to shift the counter never reaches the length, and only a failing shift ends the loop. -/
theorem xvcLoop_endless {regs : Nat → XvcShiftRegs} {n : BitVec 32} (hlong : 2 ^ 32 ≤ n.toNat + 31)
    (hshifts : ∀ k, (regs k).Completes) (tb : BitVec 32) (fuel i : Nat) (bitsLeft : BitVec 32)
    (s : XvcState)
    : xvcLoop regs n tb fuel (.ofNat 32 (32 * i)) bitsLeft s = none := by
  induction fuel generalizing i bitsLeft s with
  | zero => rfl
  | succ fuel ih =>
    have hlt : BitVec.ofNat 32 (32 * i) < n := by
      rw [BitVec.lt_def, BitVec.toNat_ofNat]
      omega
    unfold xvcLoop
    rw [if_pos hlt, (xvcBits_next (n := n) i).1]
    dsimp only
    generalize hshift : xvcShiftBits _ _ _ _ = shift
    have htdo : ∃ tdo, shift.2 = some tdo := by
      rw [← hshift]
      exact ⟨_, xvcShiftBits_completes (hshifts _) _ _ _⟩
    obtain ⟨tdo, htdo⟩ := htdo
    obtain ⟨s', out⟩ := shift
    subst htdo
    exact ih (i + 1) _ _

/--
A call ends within its buffer and without a computation that wraps exactly if its length is small enough,
or it is one that never adds 32 to the counter `2 ^ 27` times.
-/
theorem xvcIoctl_safe_iff (c : XvcCall) (length : BitVec 32)
    : XvcSafe c length ↔ XvcFits c := by
  constructor
  . rintro ⟨⟨fuel, r, hr, -, hwrap⟩, htotal, -⟩ hcomputes
    have h7 := htotal hcomputes
    refine ⟨h7, ?_⟩
    by_contra hcond
    simp only [not_or, not_exists, not_and, not_not] at hcond
    obtain ⟨hlong, hkmalloc, htms, htdi, hshifts⟩ := hcond
    have hstarts := hcomputes.starts (by simpa using hkmalloc) htms htdi
    have hwraps := xvcIoctl_wraps hstarts length h7 (by omega) hshifts hr
    rw [hwrap] at hwraps
    cases hwraps
  . intro hfits
    refine ⟨?_, fun hcomputes => (hfits hcomputes).1, ?_⟩
    . by_cases hstarts : c.Starts
      . have hcomputes : c.Computes :=
          ⟨hstarts.xcdevCheck, hstarts.cmd, hstarts.copyIoc, hstarts.opcode⟩
        obtain ⟨h7, hcase⟩ := hfits hcomputes
        by_cases hfail : ∃ i, 32 * i < c.ioc.length.toNat ∧ ¬ (c.regs i).Completes
        . exact xvcIoctl_times_out hstarts length h7 hfail
        . -- all shifts complete, so that the length is what keeps the counter from wrapping
          have hshifts : ∀ i, 32 * i < c.ioc.length.toNat → (c.regs i).Completes := by
            intro i hi
            by_contra hnot
            exact hfail ⟨i, hi, hnot⟩
          have hn : c.ioc.length.toNat + 31 < 2 ^ 32 := by
            rcases hcase with hn | hkmalloc | htms | htdi | ⟨i, hi, hnot⟩
            . exact hn
            . rw [hstarts.kmalloc] at hkmalloc
              cases hkmalloc
            . exact absurd hstarts.copyTms htms
            . exact absurd hstarts.copyTdi htdi
            . by_contra hlong
              exact hnot (hshifts i (by omega))
          obtain ⟨s, hs, hends⟩ := xvcIoctl_ends hstarts length hn
            (fun i hi => hshifts i (by omega))
          refine ⟨_, _, hends _ (Nat.lt_succ_self _), ?_, ?_⟩
          . rw [xvcTotalBytes_toNat h7]
            exact hs.memcpys
          . dsimp only
            rw [hs.bitsWrap, decide_eq_false_iff_not]
            omega
      . obtain ⟨rv, hrv⟩ := xvcIoctl_refused hstarts 0 length
        exact ⟨0, _, hrv, fun x hx => absurd hx List.not_mem_nil, rfl⟩
    . intro hcomputes
      have h7 := (hfits hcomputes).1
      rw [xvcTotalBytes_toNat h7]
      omega

/-- A call for all the bits that fit in the length, for which there is memory and no shift fails. -/
theorem xvcIoctl_not_safe
    : ¬ ∀ (c : XvcCall) (length : BitVec 32), XvcSafe c length := by
  intro h
  let c : XvcCall := { xvcCall37 with ioc := { xvcCall37.ioc with length := 0xffffffff } }
  have htotal := (h c 0).totalBytes ⟨by decide, rfl, rfl, .inl rfl⟩
  revert htotal
  decide

end Safe

end Xdma
