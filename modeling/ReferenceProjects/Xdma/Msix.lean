import ReferenceProjects.Lib.Bits
import ReferenceProjects.Xdma.Impl.Msix
import ReferenceProjects.Xdma.Irq
import ReferenceProjects.Xdma.Probe

/-!
This module contains which handler an interrupt of a device with MSI-X reaches, by the messages in the
tables of the device and by the handlers that are requested for them.
-/

namespace Xdma

open Bits

section Tables

/-- The byte for message `i`. -/
def msixByte (i : Nat) : BitVec 8 := BitVec.ofNat 8 (i % 32)

theorem setWidth_msixByte (i : Nat)
    : (msixByte i).setWidth 32 = BitVec.ofNat 32 i &&& 0x1f := by
  have hmask : (0x1f : BitVec 32).toNat = 2 ^ 5 - 1 := rfl
  apply BitVec.eq_of_toNat_eq
  unfold msixByte
  rw [BitVec.toNat_and, hmask, Nat.and_two_pow_sub_one_eq_mod, BitVec.toNat_setWidth, BitVec.toNat_ofNat,
    BitVec.toNat_ofNat]
  omega

theorem msixByte_toNat {i : Nat} (hi : i < 32)
    : (msixByte i).toNat = i := by
  unfold msixByte
  rw [BitVec.toNat_ofNat]
  omega

/-- After `k` bytes the word has them, and it gets up to `n` more. -/
theorem progIrqMsixWord_eq {max i k : Nat} (n : Nat) (hk : i + k ≤ max)
    : progIrqMsixWord max n (i + k) (8 * k) (load 32 (fun t => msixByte (i + t)) k)
        = (i + min (k + n) (max - i), load 32 (fun t => msixByte (i + t)) (min (k + n) (max - i))) := by
  induction n generalizing k with
  | zero =>
    rw [Nat.add_zero, Nat.min_eq_left (by omega)]
    rfl
  | succ n ih =>
    unfold progIrqMsixWord
    split
    . next hlt =>
      have hword : load 32 (fun t => msixByte (i + t)) k ||| (BitVec.ofNat 32 (i + k) &&& 0x1f) <<< (8 * k)
          = load 32 (fun t => msixByte (i + t)) (k + 1) := by
        rw [← setWidth_msixByte]
        rfl
      have hrest := @ih (k + 1) (by omega)
      rw [← Nat.add_assoc, Nat.mul_add, ← hword, Nat.add_right_comm k 1 n] at hrest
      exact hrest
    . next hge =>
      have hmax : max - i = k := by omega
      rw [hmax, Nat.min_eq_right (by omega)]

/-- The word for the interrupts from `i` on, which are cleared or below `max`. -/
def msixWord (clear : Bool) (max i : Nat) : BitVec 32 :=
  if clear then 0 else load 32 (fun t => msixByte (i + t)) (min 4 (max - i))

theorem progIrqMsixStep {max i : Nat} (clear : Bool) (hlt : i < max)
    : ∃ i', (if clear then (i + 4, 0) else progIrqMsixWord max 4 i 0 0) = (i', msixWord clear max i)
        ∧ i < i' ∧ (i' = i + 4 ∨ max ≤ i' ∧ max ≤ i + 4) := by
  cases clear with
  | true => exact ⟨i + 4, rfl, by omega, .inl rfl⟩
  | false =>
    have hword := @progIrqMsixWord_eq max i 0 4 hlt.le
    rw [Nat.zero_add] at hword
    exact ⟨i + min 4 (max - i), hword, by omega, by omega⟩

/-- The words are written, from word `j` on, for the interrupts from `i` on. -/
theorem progIrqMsixLoop_eq (clear : Bool) {max n i j : Nat} (vector : Nat → BitVec 32) (hn : max ≤ i + n)
    (l : Nat)
    : progIrqMsixLoop clear max n i j vector l
        = if j ≤ l ∧ i + 4 * (l - j) < max then msixWord clear max (i + 4 * (l - j)) else vector l := by
  induction n generalizing i j vector with
  | zero =>
    rw [if_neg (by omega)]
    rfl
  | succ n ih =>
    unfold progIrqMsixLoop
    split
    . next hlt =>
      obtain ⟨i', heq, hi', hnext⟩ := progIrqMsixStep clear hlt
      rw [heq]
      dsimp only
      rw [ih _ (by omega)]
      rcases Nat.lt_trichotomy l j with hl | rfl | hl
      . rw [if_neg (by omega), if_neg (by omega), Function.update_of_ne (by omega)]
      . rw [if_neg (by omega), if_pos (by omega), Function.update_self, Nat.sub_self]
        rfl
      . by_cases hmore : i + 4 * (l - j) < max
        . have hsame : i' + 4 * (l - (j + 1)) = i + 4 * (l - j) := by omega
          rw [hsame, if_pos (by omega), if_pos (by omega)]
        . rw [if_neg (by omega), if_neg (by omega), Function.update_of_ne (by omega)]
    . next hge => rw [if_neg (by omega)]

/-- The message that a device sends interrupt `k` as. -/
def msixEntry (vector : Nat → BitVec 32) (k : Nat) : Nat := (tableByte vector 4 k).toNat

theorem msixEntry_of_load {vector : Nat → BitVec 32} {first n k : Nat} (hk : k < n) (hn : first + n ≤ 32)
    (h : ∀ j, 4 * j < n → vector j = msixWord false (first + n) (first + 4 * j))
    : msixEntry vector k = first + k := by
  have hbyte : tableByte vector 4 k = msixByte (first + k) := by
    refine tableByte_load (m := fun t => msixByte (first + t)) (n := n) (by omega) (by omega) hk ?_
    intro j hj
    rw [h j hj]
    unfold msixWord
    rw [if_neg Bool.false_ne_true, Nat.add_sub_add_left]
    simp only [Nat.add_assoc]
  unfold msixEntry
  rw [hbyte, msixByte_toNat (by omega)]

end Tables

section Prog

variable (c : IrqConfig) (clear : Bool) (v : MsiVectors)

/-- The number of channels. -/
def IrqConfig.channels (c : IrqConfig) : Nat := c.h2cChannelMax + c.c2hChannelMax

theorem progIrqMsix_channel (j : Nat)
    : (progIrqMsixUser c clear (progIrqMsixChannel c clear v)).channel j
        = if 4 * j < c.channels then msixWord clear c.channels (4 * j) else v.channel j := by
  have hloop := @progIrqMsixLoop_eq clear c.channels c.channels 0 0 v.channel (by omega) j
  rw [Nat.zero_add, Nat.sub_zero] at hloop
  unfold progIrqMsixUser progIrqMsixChannel
  dsimp only
  rw [Nat.add_comm c.c2hChannelMax, ← IrqConfig.channels, hloop]
  simp

theorem progIrqMsix_user (j : Nat)
    : (progIrqMsixUser c clear (progIrqMsixChannel c clear v)).user j
        =
      if 4 * j < c.userMax then
        msixWord clear (c.channels + c.userMax) (c.channels + 4 * j)
      else
        v.user j := by
  have hloop := @progIrqMsixLoop_eq clear (c.channels + c.userMax) (c.channels + c.userMax) c.channels 0
    v.user (by omega) j
  rw [Nat.sub_zero] at hloop
  unfold progIrqMsixUser progIrqMsixChannel
  dsimp only
  rw [Nat.add_comm c.c2hChannelMax, ← IrqConfig.channels, hloop]
  simp

end Prog

section Small

/-- What there is room for in the tables. -/
structure IrqConfig.Small (c : IrqConfig) : Prop where
  h2c : c.h2cChannelMax ≤ xdmaChannelNumMax
  c2h : c.c2hChannelMax ≤ xdmaChannelNumMax
  user : c.userMax ≤ maxUserIrq

theorem probeEngines_le (engine : Nat → Bool) (max : Nat)
    : probeEngines engine max ≤ max :=
  (List.takeWhile_sublist engine).length_le.trans_eq List.length_range

theorem OpenArgs.small (o : OpenArgs)
    : o.config.Small :=
  ⟨(probeEngines_le _ _).trans (channelMax_le _ _), (probeEngines_le _ _).trans (channelMax_le _ _),
    channelMax_le _ _⟩

theorem IrqConfig.Small.channels {c : IrqConfig} (h : c.Small)
    : c.channels ≤ 8 := by
  have hh2c := h.h2c
  have hc2h := h.c2h
  unfold xdmaChannelNumMax at hh2c hc2h
  unfold IrqConfig.channels
  omega

end Small

section Pairs

variable (c : IrqConfig)

/-- What the handler of a message of the device is called with. -/
def IrqConfig.devId (k : Nat) : IrqDevId :=
  if k < c.h2cChannelMax then
    .engineH2c k
  else if k < c.channels then
    .engineC2h (k - c.h2cChannelMax)
  else
    .userIrq (k - c.channels)

theorem mem_pairs_of_msix (hmsix : c.msixEnabled = true) {p : IrqPair}
    : p ∈ c.pairs ↔ ∃ k < c.channels + c.userMax, p = ⟨c.pdev.irqVector k, c.devId k⟩ := by
  unfold IrqConfig.pairs
  rw [if_pos hmsix]
  unfold IrqConfig.channelPairs IrqConfig.userPairs irqPairs IrqConfig.devId IrqConfig.channels userPair
  simp only [List.mem_append, List.mem_map, List.mem_range]
  constructor
  . rintro ((⟨i, hi, rfl⟩ | ⟨i, hi, rfl⟩) | ⟨i, hi, rfl⟩)
    . exact ⟨i, by omega, by rw [if_pos hi]⟩
    . refine ⟨c.h2cChannelMax + i, by omega, ?_⟩
      rw [if_neg (by omega), if_pos (by omega), Nat.add_sub_cancel_left]
    . refine ⟨c.h2cChannelMax + c.c2hChannelMax + i, by omega, ?_⟩
      rw [if_neg (by omega), if_neg (by omega), Nat.add_sub_cancel_left]
  . rintro ⟨k, hk, rfl⟩
    split
    . next hlt => exact .inl (.inl ⟨k, hlt, rfl⟩)
    . split
      . refine .inl (.inr ⟨k - c.h2cChannelMax, by omega, ?_⟩)
        rw [Nat.add_sub_cancel' (by omega)]
      . refine .inr ⟨k - (c.h2cChannelMax + c.c2hChannelMax), by omega, ?_⟩
        rw [Nat.add_sub_cancel' (by omega)]

/-- The handler of a message is called, with that alone. -/
structure Reaches (held : List IrqPair) (entry : Nat) (id : IrqDevId) : Prop where
  requested : ⟨c.pdev.irqVector entry, id⟩ ∈ held
  alone : ∀ p ∈ held, p.vector = c.pdev.irqVector entry → p.devId = id

variable {c} {held : List IrqPair}

theorem Reaches.unique {entry : Nat} {id id' : IrqDevId} (h : Reaches c held entry id)
    (h' : Reaches c held entry id')
    : id = id' :=
  h'.alone _ h.requested rfl

theorem reaches_of_perm (hmsix : c.msixEnabled = true) (hinj : Function.Injective c.pdev.irqVector)
    (hheld : held.Perm c.pairs) {k : Nat} (hk : k < c.channels + c.userMax)
    : Reaches c held k (c.devId k) := by
  constructor
  . exact hheld.mem_iff.mpr ((mem_pairs_of_msix c hmsix).mpr ⟨k, hk, rfl⟩)
  . intro p hp hvector
    obtain ⟨k', _, rfl⟩ := (mem_pairs_of_msix c hmsix).mp (hheld.mem_iff.mp hp)
    rw [hinj hvector]

end Pairs

section Run

variable {c : IrqConfig} {v : MsiVectors}

/-- The words of a device with MSI-X are there, or they are cleared. -/
structure MsiVectors.Programmed (c : IrqConfig) (clear : Bool) (v : MsiVectors) : Prop where
  channel : ∀ j, 4 * j < c.channels → v.channel j = msixWord clear c.channels (4 * j)
  user : ∀ j, 4 * j < c.userMax → v.user j = msixWord clear (c.channels + c.userMax) (c.channels + 4 * j)

/-- The words of the interrupts of a device without MSI-X and MSI, which are one interrupt. -/
structure MsiVectors.Legacy (entry : BitVec 8) (v : MsiVectors) : Prop where
  channel : ∀ j < 2, v.channel j = load 32 (fun _ => entry) 4
  user : ∀ j < 4, v.user j = load 32 (fun _ => entry) 4

/-- The words outside of those for 8 channels and 16 user interrupts are the same. -/
def MsiVectors.Outside (v v' : MsiVectors) : Prop :=
  (∀ j ≥ 2, v'.channel j = v.channel j) ∧ ∀ j ≥ 4, v'.user j = v.user j

theorem programmed (c : IrqConfig) (clear : Bool) (v : MsiVectors)
    : (progIrqMsixUser c clear (progIrqMsixChannel c clear v)).Programmed c clear :=
  ⟨fun j hj => by rw [progIrqMsix_channel, if_pos hj], fun j hj => by rw [progIrqMsix_user, if_pos hj]⟩

theorem outside_prog (hc : c.Small) (clear : Bool) (v : MsiVectors)
    : v.Outside (progIrqMsixUser c clear (progIrqMsixChannel c clear v)) := by
  have hchannels := hc.channels
  have huser := hc.user
  unfold maxUserIrq at huser
  constructor
  . intro j hj
    rw [progIrqMsix_channel, if_neg (by omega)]
  . intro j hj
    rw [progIrqMsix_user, if_neg (by omega)]

theorem outside_refl (v : MsiVectors)
    : v.Outside v :=
  ⟨fun _ _ => rfl, fun _ _ => rfl⟩

theorem outside_legacy (val : BitVec 8) (v : MsiVectors)
    : v.Outside (progIrqLegacy val v) := by
  unfold progIrqLegacy
  split
  . constructor
    . intro j hj
      exact if_neg (by omega)
    . intro j hj
      exact if_neg (by omega)
  . exact outside_refl v

theorem legacyWord (val : BitVec 8)
    : val.setWidth 32 <<< 24 ||| val.setWidth 32 <<< 16 ||| val.setWidth 32 <<< 8 ||| val.setWidth 32
        = load 32 (fun _ => val) 4 := by
  show _ = (((0#32 ||| val.setWidth 32 <<< 0) ||| val.setWidth 32 <<< 8) ||| val.setWidth 32 <<< 16)
    ||| val.setWidth 32 <<< 24
  rw [BitVec.zero_or, BitVec.shiftLeft_zero]
  generalize val.setWidth 32 <<< 24 = b₃, val.setWidth 32 <<< 16 = b₂, val.setWidth 32 <<< 8 = b₁
  ac_rfl

theorem legacy_prog {val : BitVec 8} (hval : 1 < val) (v : MsiVectors)
    : (progIrqLegacy val v).Legacy (val - 1) := by
  unfold progIrqLegacy
  rw [if_pos hval]
  constructor
  . intro j hj
    exact (if_pos hj).trans (legacyWord _)
  . intro j hj
    exact (if_pos hj).trans (legacyWord _)

variable {s : IrqState}

theorem outside_irqSetup (hc : c.Small) (req : RequestIrq) (s : IrqState) (v : MsiVectors)
    : v.Outside (irqSetupVectors c req s v) := by
  unfold irqSetupVectors
  split
  . split
    . exact outside_refl v
    . exact outside_prog hc false v
  . split
    . exact outside_refl v
    . exact outside_legacy _ v

theorem outside_irqTeardown (hc : c.Small) (v : MsiVectors)
    : v.Outside (irqTeardownVectors c v) := by
  unfold irqTeardownVectors
  split
  . exact outside_prog hc true v
  . exact outside_refl v

/-- What a phase says about the tables. -/
def MsiVectors.At (v : MsiVectors) : IrqPhase → Prop
  | .closed => True
  | .held c =>
    (c.msixEnabled = true → v.Programmed c false)
      ∧ (c.msixEnabled = false → c.msiEnabled = false → 1 < BitVec.ofNat 8 c.pdev.interruptPin →
          v.Legacy (BitVec.ofNat 8 c.pdev.interruptPin - 1))
  | .released c | .incomplete c => c.msixEnabled = true → v.Programmed c true

/-- A set-up that succeeds fills the tables, and of a device with MSI-X no other one writes them. -/
theorem irqSetupVectors_spec (req : RequestIrq) (hsound : Ledger.Sound s.calls)
    (hnone : Ledger.held s.calls = []) (v : MsiVectors)
    : (c.outcome req = .complete → (irqSetupVectors c req s v).At (.held c))
      ∧ (c.outcome req ≠ .complete → c.msixEnabled = true → irqSetupVectors c req s v = v) := by
  obtain ⟨_, hrv, _⟩ := irqSetup_outcome (c := c) req hsound hnone
  unfold irqSetupVectors
  split
  . next hmsix =>
    constructor
    . intro hcomplete
      have hok := hrv.mpr hcomplete
      split
      . next hset =>
        rw [hset] at hok
        contradiction
      . exact ⟨fun _ => programmed c false v, fun hno => absurd hmsix (by simp [hno])⟩
    . intro hno _
      split
      . rfl
      . next hset =>
        rw [hset] at hrv
        exact absurd (hrv.mp rfl) hno
  . next hmsix =>
    refine ⟨fun _ => ⟨fun h => absurd h hmsix, fun _ hmsi hpin => ?_⟩, fun _ h => absurd h hmsix⟩
    rw [if_neg (by simp [hmsi])]
    exact legacy_prog hpin v

/-- A state and its phase, with what the phase says about the interrupts and about the tables. -/
structure IrqVectors.Follows (s : IrqVectors) (ph : IrqPhase) : Prop where
  sound : Ledger.Sound s.sys.irq.calls
  link : ph.Link s.sys
  vectors : s.vectors.At ph

theorem IrqVectors.Follows.step {s s' : IrqVectors} {ph ph' : IrqPhase} {e : IrqEvent} (h : s.Follows ph)
    (hstep : s.step e = some s') (hph : ph.step e = some ph')
    : s'.Follows ph' := by
  obtain ⟨sys, hsys, rfl⟩ := Option.map_eq_some_iff.mp hstep
  have hnext := IrqPhase.next h.sound h.link hsys
  rw [hph] at hnext
  refine ⟨hnext.1, hnext.2, ?_⟩
  obtain ⟨hsound, hlink, hat⟩ := h
  show (s.after e).At ph'
  cases ph with
  | closed =>
    cases e with
    | «open» o req =>
      have hspec := irqSetupVectors_spec (c := o.config)
        (s := ⟨-1, fun _ => 0, fun _ => 0, s.sys.irq.calls⟩) req hsound hlink.2 s.vectors
      unfold IrqPhase.step at hph
      unfold IrqVectors.after
      dsimp only at hph ⊢
      split at hph
      . obtain rfl := Option.some.inj hph
        trivial
      . next hok =>
        rw [if_neg hok]
        cases houtcome : o.config.outcome req with
        | complete =>
          rw [houtcome] at hph
          obtain rfl := Option.some.inj hph
          exact hspec.1 houtcome
        | nothing =>
          rw [houtcome] at hph
          obtain rfl := Option.some.inj hph
          trivial
        | incomplete =>
          rw [houtcome] at hph
          contradiction
    | _ => contradiction
  | held c =>
    cases e with
    | offline =>
      obtain rfl := Option.some.inj hph
      intro hmsix
      unfold IrqVectors.after
      simp only [hlink.1]
      unfold irqTeardownVectors
      rw [if_pos hmsix]
      exact programmed c true s.vectors
    | close =>
      obtain rfl := Option.some.inj hph
      trivial
    | online pollMode req =>
      cases pollMode with
      | true =>
        obtain rfl := Option.some.inj hph
        unfold IrqVectors.after
        simp only [hlink.1]
        exact hat
      | false => contradiction
    | _ => contradiction
  | released c =>
    cases e with
    | online pollMode req =>
      have hspec := irqSetupVectors_spec (c := c) req hsound hlink.2.2 s.vectors
      unfold IrqVectors.after
      simp only [hlink.1]
      cases pollMode with
      | true =>
        obtain rfl := Option.some.inj hph
        exact hat
      | false =>
        have hcleared (hno : c.outcome req ≠ .complete) (hmsix : c.msixEnabled = true)
            : (irqSetupVectors c req s.sys.irq s.vectors).Programmed c true := by
          rw [hspec.2 hno hmsix]
          exact hat hmsix
        unfold IrqPhase.step at hph
        dsimp only at hph
        cases houtcome : c.outcome req with
        | complete =>
          rw [houtcome] at hph
          obtain rfl := Option.some.inj hph
          exact hspec.1 houtcome
        | nothing =>
          rw [houtcome] at hph
          obtain rfl := Option.some.inj hph
          exact hcleared (by simp [houtcome])
        | incomplete =>
          rw [houtcome] at hph
          obtain rfl := Option.some.inj hph
          exact hcleared (by simp [houtcome])
    | _ => contradiction
  | incomplete c =>
    cases e with
    | online pollMode req =>
      cases pollMode with
      | true =>
        obtain rfl := Option.some.inj hph
        unfold IrqVectors.after
        simp only [hlink.1]
        exact hat
      | false => contradiction
    | _ => contradiction

theorem MsiVectors.Outside.trans {v v' v'' : MsiVectors} (h : v.Outside v') (h' : v'.Outside v'')
    : v.Outside v'' :=
  ⟨fun j hj => (h'.1 j hj).trans (h.1 j hj), fun j hj => (h'.2 j hj).trans (h.2 j hj)⟩

/-- The tables have room for the device, and only the words that it needs were ever written. -/
structure IrqVectors.Within (v : MsiVectors) (s : IrqVectors) : Prop where
  small : ∀ c, s.sys.dev = some c → c.Small
  outside : v.Outside s.vectors

theorem IrqVectors.Within.after {s : IrqVectors} (h : s.Within v) (e : IrqEvent)
    : s.vectors.Outside (s.after e) := by
  have hsmall := h.small
  unfold IrqVectors.after
  cases e with
  | «open» o req =>
    dsimp only
    split
    . exact outside_refl _
    . exact outside_irqSetup o.small req _ _
  | online pollMode req =>
    dsimp only
    split
    . next c hdev =>
      split
      . exact outside_irqSetup (hsmall c hdev) req _ _
      . exact outside_refl _
    . exact outside_refl _
  | _ =>
    dsimp only
    split
    . next c hdev => exact outside_irqTeardown (hsmall c hdev) _
    . exact outside_refl _

theorem xdmaDeviceOpen_small (o : OpenArgs) (req : RequestIrq) (calls : List IrqCall) {c : IrqConfig}
    (hdev : (xdmaDeviceOpen o req calls).dev = some c)
    : c.Small := by
  unfold xdmaDeviceOpen at hdev
  dsimp only at hdev
  split at hdev
  . contradiction
  . split at hdev
    . contradiction
    . obtain rfl := Option.some.inj hdev
      exact o.small

theorem IrqVectors.Within.step {s s' : IrqVectors} {e : IrqEvent} (h : s.Within v)
    (hstep : s.step e = some s')
    : s'.Within v := by
  obtain ⟨sys, hsys, rfl⟩ := Option.map_eq_some_iff.mp hstep
  refine ⟨?_, h.outside.trans (h.after e)⟩
  intro c hdev
  dsimp only at hdev
  unfold IrqSys.step at hsys
  cases e with
  | «open» o req =>
    dsimp only at hsys
    split at hsys
    . obtain rfl := Option.some.inj hsys
      exact xdmaDeviceOpen_small o req _ hdev
    . contradiction
  | close =>
    obtain ⟨c', hc', rfl⟩ := Option.map_eq_some_iff.mp hsys
    contradiction
  | _ =>
    obtain ⟨c', hc', rfl⟩ := Option.map_eq_some_iff.mp hsys
    obtain rfl := Option.some.inj hdev
    exact h.small c' hc'

/-- Each interrupt of a device with MSI-X is sent as a message that its own handler is requested for. -/
structure IrqVectors.Routed (s : IrqVectors) (c : IrqConfig) : Prop where
  channel : ∀ k < c.channels,
    Reaches c (Ledger.held s.sys.irq.calls) (msixEntry s.vectors.channel k) (c.devId k)
  user : ∀ k < c.userMax,
    Reaches c (Ledger.held s.sys.irq.calls) (msixEntry s.vectors.user k) (.userIrq k)

/-- The interrupts are all sent as one message. -/
structure MsiVectors.All (v : MsiVectors) (channels userMax entry : Nat) : Prop where
  channel : ∀ k < channels, msixEntry v.channel k = entry
  user : ∀ k < userMax, msixEntry v.user k = entry

theorem MsiVectors.Programmed.entries (h : v.Programmed c false) (hc : c.Small)
    : (∀ k < c.channels, msixEntry v.channel k = k)
        ∧ ∀ k < c.userMax, msixEntry v.user k = c.channels + k := by
  have hchannels := hc.channels
  have huser := hc.user
  unfold maxUserIrq at huser
  constructor
  . intro k hk
    have hentry := @msixEntry_of_load v.channel 0 c.channels k hk (by omega) (by
      intro j hj
      rw [h.channel j hj, Nat.zero_add, Nat.zero_add])
    rw [hentry, Nat.zero_add]
  . intro k hk
    exact msixEntry_of_load hk (by omega) h.user

theorem MsiVectors.Programmed.cleared (h : v.Programmed c true)
    : v.All c.channels c.userMax 0 := by
  have hentry {vector : Nat → BitVec 32} {k : Nat} (hword : vector (k / 4) = 0)
      : msixEntry vector k = 0 := by
    unfold msixEntry tableByte
    rw [hword]
    simp [byte]
  constructor
  . intro k hk
    exact hentry (h.channel (k / 4) (by omega))
  . intro k hk
    exact hentry (h.user (k / 4) (by omega))

theorem MsiVectors.Legacy.entries {entry : BitVec 8} (h : v.Legacy entry)
    : v.All 8 16 entry.toNat := by
  have hentry {vector : Nat → BitVec 32} {k : Nat} (hword : vector (k / 4) = load 32 (fun _ => entry) 4)
      : msixEntry vector k = entry.toNat := by
    unfold msixEntry tableByte
    rw [hword, byte_load _ (by omega) (by omega)]
  constructor
  . intro k hk
    exact hentry (h.channel (k / 4) (by omega))
  . intro k hk
    exact hentry (h.user (k / 4) (by omega))

/-- What a maintainer expects of the tables in a phase. -/
def IrqVectors.Told (s : IrqVectors) : IrqPhase → Prop
  | .closed => True
  | .held c =>
    (c.msixEnabled = true → Function.Injective c.pdev.irqVector → s.Routed c)
      ∧ (c.msixEnabled = false → c.msiEnabled = false →
          1 < c.pdev.interruptPin → c.pdev.interruptPin < 256 → s.vectors.All 8 16 (c.pdev.interruptPin - 1))
  | .released c | .incomplete c => c.msixEnabled = true → s.vectors.All c.channels c.userMax 0

theorem IrqVectors.Follows.routed {s : IrqVectors} (h : s.Follows (.held c)) (hc : c.Small)
    (hmsix : c.msixEnabled = true) (hinj : Function.Injective c.pdev.irqVector)
    : s.Routed c := by
  obtain ⟨hchannel, huser⟩ := (h.vectors.1 hmsix).entries hc
  have hheld := h.link.2.2.2
  constructor
  . intro k hk
    rw [hchannel k hk]
    exact reaches_of_perm hmsix hinj hheld (by omega)
  . intro k hk
    have hid : c.devId (c.channels + k) = .userIrq k := by
      unfold IrqConfig.devId
      rw [if_neg (by unfold IrqConfig.channels; omega), if_neg (by omega), Nat.add_sub_cancel_left]
    rw [huser k hk, ← hid]
    exact reaches_of_perm hmsix hinj hheld (by omega)

theorem IrqVectors.Follows.told {s : IrqVectors} {ph : IrqPhase} (h : s.Follows ph) (hwithin : s.Within v)
    : s.Told ph := by
  cases ph with
  | closed => trivial
  | held c =>
    refine ⟨h.routed (hwithin.small c h.link.1), ?_⟩
    intro hmsix hmsi hpin hbyte
    have hval : (BitVec.ofNat 8 c.pdev.interruptPin).toNat = c.pdev.interruptPin := by
      rw [BitVec.toNat_ofNat, Nat.mod_eq_of_lt hbyte]
    have hone : 1 < BitVec.ofNat 8 c.pdev.interruptPin := by
      rw [BitVec.lt_def, hval]
      exact hpin
    have hentries := (h.vectors.2 hmsix hmsi hone).entries
    rw [BitVec.toNat_sub_of_le (BitVec.le_of_lt hone), hval] at hentries
    exact hentries
  | released c =>
    intro hmsix
    exact (h.vectors hmsix).cleared
  | incomplete c =>
    intro hmsix
    exact (h.vectors hmsix).cleared

/-- A run from when the device is reset on. -/
def IrqVectors.init (v : MsiVectors) : IrqVectors := ⟨.init, v⟩

theorem IrqVectors.within_of_run {v : MsiVectors} {es : List IrqEvent} {s : IrqVectors}
    (hrun : Transition.run IrqVectors.step (.init v) es = some s)
    : s.Within v := by
  refine (Transition.statesHold_of_inductive (fun _ h => h) (fun _ _ _ h hstep => h.step hstep) ?_).of_run hrun
  exact ⟨fun _ h => by contradiction, outside_refl v⟩

theorem IrqVectors.follows_of_run {v : MsiVectors} {es : List IrqEvent} {s : IrqVectors} {ph : IrqPhase}
    (hrun : Transition.run IrqVectors.step (.init v) es = some s)
    (hph : Transition.run IrqPhase.step .closed es = some ph)
    : s.Follows ph := by
  have hinit : (IrqVectors.init v).Follows .closed := ⟨trivial, ⟨rfl, rfl⟩, trivial⟩
  exact Transition.run_related (fun _ _ _ _ _ h hstep hph => h.step hstep hph) hinit hrun hph

/-- The reset of a device with one engine in each direction, during which nothing is granted at first. -/
def resetMsix : List IrqEvent :=
  [.open openMsix (fun _ => none), .offline, .online false (fun _ => some .ebusy),
    .online false (fun _ => none)]

end Run

section Engines

/-- What `xdma_channel_irq()` is called with for an engine. -/
def EngineId.irqDevId (id : EngineId) : IrqDevId :=
  match id.dir with
  | .toDevice => .engineH2c id.channel
  | .fromDevice => .engineC2h id.channel

/--
The interrupt of an engine is one that the table has a message for, and the message reaches the handler of
that engine.
-/
def IrqVectors.Owns (s : IrqVectors) (c : IrqConfig) (e : EngineSlot) (id : EngineId) : Prop :=
  ∃ k < c.channels, e.irqBitmask = irqBit k
    ∧ Reaches c (Ledger.held s.sys.irq.calls) (msixEntry s.vectors.channel k) id.irqDevId

theorem irqBit_inj {n k : Nat} (hn : n < 32) (heq : irqBit n = irqBit k)
    : n = k := by
  by_contra hne
  have hand := irqBit_and_irqBit hne
  rw [← heq, BitVec.and_self] at hand
  exact irqBit_ne_zero hn hand

theorem length_orphan (env : ProbeEnv) (dir : DmaDataDirection) (n : Nat)
    : (env.orphan dir n 0).length = if env.orphan dir n 0 = [] then 0 else 1 := by
  unfold ProbeEnv.orphan
  split <;> rfl

/-- The handler in the place of an engine's number is its own, or that of the C2H engine after it. -/
theorem devId_number (env : ProbeEnv) (h2cMax c2hMax : Nat) {c : IrqConfig} {id : EngineId}
    (hh2c : c.h2cChannelMax = (probedDev env h2cMax c2hMax).h2cChannelMax)
    (hc2h : c.c2hChannelMax = (probedDev env h2cMax c2hMax).c2hChannelMax)
    (h : (probedDev env h2cMax c2hMax).Present id)
    : env.number h2cMax id < c.channels ∧ c.devId (env.number h2cMax id) = id.irqDevId
        ↔ id.dir = .toDevice ∨ env.orphan .toDevice h2cMax 0 = [] := by
  obtain ⟨_, hchannels, _⟩ := probedDev_inv env h2cMax c2hMax
  have hlength := (length_made env .toDevice h2cMax).1
  obtain ⟨dir, channel⟩ := id
  unfold ProbedDev.Present ProbedDev.channelMax at h
  unfold ProbeEnv.number EngineId.irqDevId IrqConfig.devId IrqConfig.channels
  cases dir with
  | toDevice =>
    dsimp only at h ⊢
    rw [← hh2c] at h
    rw [if_pos h]
    exact iff_of_true ⟨by omega, rfl⟩ (.inl rfl)
  | fromDevice =>
    dsimp only at h ⊢
    rw [← hc2h] at h
    rw [hlength, ← hchannels, ← hh2c, length_orphan]
    by_cases horphan : env.orphan .toDevice h2cMax 0 = []
    . rw [if_pos horphan, if_neg (by omega), if_pos (by omega)]
      refine iff_of_true ⟨by omega, ?_⟩ (.inr horphan)
      congr 1
      omega
    . rw [if_neg horphan, if_neg (by omega)]
      refine iff_of_false ?_ (by simp [horphan])
      rintro ⟨hlt, hid⟩
      rw [if_pos hlt] at hid
      have heq := IrqDevId.engineC2h.inj hid
      omega

/--
Of the engines of a device with MSI-X whose interrupts are requested, each has its interrupt reach its own
handler, but for all C2H engines where an H2C engine was found that there was no memory for.
-/
theorem engineVectors_own_iff (env : ProbeEnv) (h2cMax c2hMax : Nat) (hh : h2cMax ≤ xdmaChannelNumMax)
    (hc : c2hMax ≤ xdmaChannelNumMax) (v : MsiVectors) (es : List IrqEvent) (s : IrqVectors) (c : IrqConfig)
    (hrun : Transition.run IrqVectors.step (.init v) es = some s)
    (hph : Transition.run IrqPhase.step .closed es = some (.held c))
    (hmsix : c.msixEnabled = true) (hinj : Function.Injective c.pdev.irqVector)
    (hh2c : c.h2cChannelMax = (probedDev env h2cMax c2hMax).h2cChannelMax)
    (hc2h : c.c2hChannelMax = (probedDev env h2cMax c2hMax).c2hChannelMax)
    (id : EngineId) (h : (probedDev env h2cMax c2hMax).Present id)
    : s.Owns c ((probedDev env h2cMax c2hMax).engine id) id
        ↔ id.dir = .toDevice ∨ env.orphan .toDevice h2cMax 0 = [] := by
  have hfollows := IrqVectors.follows_of_run hrun hph
  have hrouted := hfollows.routed ((IrqVectors.within_of_run hrun).small c hfollows.link.1) hmsix hinj
  have hbit := (probedDev_bit env h2cMax c2hMax h).1
  have hsmall := number_lt env h2cMax c2hMax hh hc h
  rw [← devId_number env h2cMax c2hMax hh2c hc2h h]
  constructor
  . rintro ⟨k, hk, hmask, hreaches⟩
    obtain rfl := irqBit_inj (by omega) (hbit.symm.trans hmask)
    exact ⟨hk, (hrouted.channel _ hk).unique hreaches⟩
  . rintro ⟨hk, hid⟩
    refine ⟨_, hk, hbit, ?_⟩
    rw [← hid]
    exact hrouted.channel _ hk

/-- The device with two H2C engines, where there is no memory for the second one. -/
def openOrphaned : OpenArgs where
  pdev := openMsix.pdev
  userMax := 1
  h2cChannelMax := 4
  c2hChannelMax := 4
  h2cEngine := fun i => twoEngines.ready ⟨.toDevice, i⟩
  c2hEngine := fun i => twoEngines.ready ⟨.fromDevice, i⟩
  msi := ⟨0, true, true, none⟩
  error := none

/-- The calls for it. -/
def openedOrphaned : List IrqEvent := [.open openOrphaned (fun _ => none)]

/-- The interrupt of its C2H engine does not reach the handler of that engine. -/
theorem engineVectors_own_iff_orphaned
    : ∃ s, Transition.run IrqVectors.step (.init ⟨fun _ => 0, fun _ => 0⟩) openedOrphaned = some s
        ∧ ¬ s.Owns openOrphaned.config ((probedDev twoEngines 4 4).engine ⟨.fromDevice, 0⟩)
            ⟨.fromDevice, 0⟩ := by
  have hpresent : (probedDev twoEngines 4 4).Present ⟨.fromDevice, 0⟩ := by
    show 0 < (probedDev twoEngines 4 4).c2hChannelMax
    decide
  have hinj : Function.Injective openOrphaned.config.pdev.irqVector := by
    intro i j h
    have hsum : 40 + i = 40 + j := h
    omega
  obtain ⟨s, hrun⟩ : ∃ s,
      Transition.run IrqVectors.step (.init ⟨fun _ => 0, fun _ => 0⟩) openedOrphaned = some s :=
    ⟨_, rfl⟩
  refine ⟨s, hrun, ?_⟩
  rw [engineVectors_own_iff twoEngines 4 4 (by decide) (by decide) _ openedOrphaned s openOrphaned.config hrun
    rfl rfl hinj (by decide) (by decide) ⟨.fromDevice, 0⟩ hpresent]
  decide

end Engines

end Xdma
