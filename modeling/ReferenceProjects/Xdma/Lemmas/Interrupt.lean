import ReferenceProjects.Lib.Dispatch
import ReferenceProjects.Xdma.Impl.Interrupt
import ReferenceProjects.Xdma.Probe

/-!
This module contains lemmas about the interrupts of a device: which user interrupts and engines the loops of
`xdma_isr()` find, and what a step may change.
-/

namespace Xdma

open Dispatch Transition

section Loops

theorem irqBit_and_ne_zero {w : BitVec 32} {n : Nat}
    : irqBit n &&& w ≠ 0 ↔ w.getLsbD n = true := by
  by_cases hn : n < 32
  . rw [irqBit_and hn]
    split
    . next hw => exact iff_of_true (irqBit_ne_zero hn) hw
    . next hw => simp [hw]
  . have hzero : irqBit n = 0 := BitVec.shiftLeft_eq_zero (by omega)
    rw [hzero, BitVec.getLsbD_of_ge w n (by omega)]
    exact iff_of_false (fun hne => hne (BitVec.zero_and)) Bool.false_ne_true

theorem irqBits_pairwise (n i : Nat)
    : (List.range' i n).Pairwise (fun x y => true = true → true = true → irqBit x &&& irqBit y = 0) := by
  refine List.Pairwise.imp ?_ List.pairwise_lt_range'
  intro x y hlt _ _
  exact irqBit_and_irqBit (Nat.ne_of_lt hlt)

theorem isrUsers_eq_dispatch (n user : Nat) (userIrq : BitVec 32)
    : isrUsers n user (irqBit user) userIrq
        = dispatch irqBit (fun _ => true) (List.range' user n) userIrq := by
  induction n generalizing user userIrq with
  | zero => rfl
  | succ n ih =>
    have hshift : irqBit user <<< 1 = irqBit (user + 1) := by
      unfold irqBit
      rw [BitVec.shiftLeft_add]
    unfold isrUsers
    rw [List.range'_succ]
    unfold dispatch
    rw [hshift, ih, ih, BitVec.and_comm]
    simp

/-- `xdma_isr()` services the user interrupts that are requested, as far as there are any. -/
theorem isrUsers_eq (n : Nat) (userIrq : BitVec 32)
    : isrUsers n 0 1 userIrq = (List.range n).filter (fun user => userIrq.getLsbD user) := by
  have hone : (1 : BitVec 32) = irqBit 0 := by decide
  rw [hone, isrUsers_eq_dispatch, dispatch_eq_filter _ _ _ (irqBits_pairwise n 0), List.range_eq_range']
  apply List.filter_congr
  intro user _
  rw [Bool.true_and, Bool.eq_iff_iff, bne_iff_ne, irqBit_and_ne_zero]

theorem isrChannels_eq_dispatch (d : ProbedDev) (dir : DmaDataDirection) (n i : Nat) (mask : BitVec 32)
    : isrChannels d dir n i mask
        = dispatch (fun id => (d.engine id).irqBitmask) (fun id => (d.engine id).magic)
            ((List.range' i n).map (fun j => ⟨dir, j⟩)) mask := by
  induction n generalizing i mask with
  | zero => rfl
  | succ n ih =>
    unfold isrChannels
    rw [List.range'_succ, List.map_cons]
    unfold dispatch
    dsimp only
    rw [ih, ih]

end Loops

section Device

/--
What the interrupts need of a device that was probed: the engines are set up, with registers and interrupt
bits of their own.
-/
structure DevReady (d : ProbedDev) : Prop where
  magic : ∀ id, d.Present id → (d.engine id).magic = true
  regs : ∀ id, d.Present id → (d.engine id).regs = engineOffset id
  small : ∀ id, d.Present id → id.channel < 16
  bits : ∀ id id', d.Present id → d.Present id' → id ≠ id' →
    (d.engine id).irqBitmask &&& (d.engine id').irqBitmask = 0
  mask : ∀ id, d.Present id → (d.engine id).irqBitmask ≠ 0 ∧ ∀ dir,
    (d.engine id).irqBitmask &&& d.maskIrq dir = if dir = id.dir then (d.engine id).irqBitmask else 0

theorem probedDev_ready (env : ProbeEnv) {h2cMax c2hMax : Nat} (hh : h2cMax ≤ xdmaChannelNumMax)
    (hc : c2hMax ≤ xdmaChannelNumMax)
    : DevReady (probedDev env h2cMax c2hMax) where
  magic := fun _ h => (probedDev_setup env h2cMax c2hMax h).1
  regs := fun _ h => (probedDev_setup env h2cMax c2hMax h).2.2.2.1
  small := by
    intro id h
    have hlt := probedDev_channel_lt env h2cMax c2hMax hh hc h
    unfold xdmaChannelNumMax at hlt
    omega
  bits := fun _ _ h h' hne => probedDev_bits env h2cMax c2hMax h h' hne
  mask := fun _ h => probedDev_mask env h2cMax c2hMax hh hc h

/-- The engines are the same, as far as the handlers look at them. -/
structure SameEngines (d d' : ProbedDev) : Prop where
  magic : ∀ id, (d'.engine id).magic = (d.engine id).magic
  regs : ∀ id, (d'.engine id).regs = (d.engine id).regs
  irqBitmask : ∀ id, (d'.engine id).irqBitmask = (d.engine id).irqBitmask
  max : ∀ dir, d'.channelMax dir = d.channelMax dir
  mask : ∀ dir, d'.maskIrq dir = d.maskIrq dir

variable {d d' : ProbedDev}

theorem SameEngines.refl (d : ProbedDev)
    : SameEngines d d := ⟨fun _ => rfl, fun _ => rfl, fun _ => rfl, fun _ => rfl, fun _ => rfl⟩

theorem SameEngines.trans {d'' : ProbedDev} (h : SameEngines d d') (h' : SameEngines d' d'')
    : SameEngines d d'' :=
  ⟨fun id => (h'.magic id).trans (h.magic id), fun id => (h'.regs id).trans (h.regs id),
    fun id => (h'.irqBitmask id).trans (h.irqBitmask id), fun dir => (h'.max dir).trans (h.max dir),
    fun dir => (h'.mask dir).trans (h.mask dir)⟩

theorem SameEngines.present (h : SameEngines d d') (id : EngineId)
    : d'.Present id ↔ d.Present id := by
  unfold ProbedDev.Present
  rw [h.max]

theorem DevReady.same (hd : DevReady d) (h : SameEngines d d')
    : DevReady d' := by
  have hp := h.present
  refine ⟨?_, ?_, ?_, ?_, ?_⟩
  . intro id hid
    rw [h.magic]
    exact hd.magic id ((hp id).mp hid)
  . intro id hid
    rw [h.regs]
    exact hd.regs id ((hp id).mp hid)
  . intro id hid
    exact hd.small id ((hp id).mp hid)
  . intro id id' hid hid' hne
    rw [h.irqBitmask, h.irqBitmask]
    exact hd.bits id id' ((hp id).mp hid) ((hp id').mp hid') hne
  . intro id hid
    rw [h.irqBitmask]
    simp only [h.mask]
    exact hd.mask id ((hp id).mp hid)

theorem isrFired_same (h : SameEngines d d') (chIrq : BitVec 32)
    : isrFired d' chIrq = isrFired d chIrq := by
  have hbits : (fun id => (d'.engine id).irqBitmask) = fun id => (d.engine id).irqBitmask :=
    funext h.irqBitmask
  have hmagic : (fun id => (d'.engine id).magic) = fun id => (d.engine id).magic := funext h.magic
  have hh2c : d'.h2cChannelMax = d.h2cChannelMax ∧ d'.maskIrqH2c = d.maskIrqH2c :=
    ⟨h.max .toDevice, h.mask .toDevice⟩
  have hc2h : d'.c2hChannelMax = d.c2hChannelMax ∧ d'.maskIrqC2h = d.maskIrqC2h :=
    ⟨h.max .fromDevice, h.mask .fromDevice⟩
  unfold isrFired
  simp only [isrChannels_eq_dispatch, hbits, hmagic, hh2c, hc2h]

theorem DevReady.regs_inj (hd : DevReady d) {id id' : EngineId} (hid : d.Present id) (hid' : d.Present id')
    (hne : id ≠ id')
    : (d.engine id).regs ≠ (d.engine id').regs := by
  rw [hd.regs id hid, hd.regs id' hid']
  intro heq
  exact hne (engineOffset_inj (hd.small id hid) (hd.small id' hid') heq)

theorem isrChannels_pairwise (hd : DevReady d) (dir : DmaDataDirection)
    : ((List.range' 0 (d.channelMax dir)).map (fun j => (⟨dir, j⟩ : EngineId))).Pairwise (fun id id' =>
        (d.engine id).magic = true → (d.engine id').magic = true →
          (d.engine id).irqBitmask &&& (d.engine id').irqBitmask = 0) := by
  rw [List.pairwise_map]
  refine List.Pairwise.imp_of_mem ?_ List.pairwise_lt_range'
  intro j j' hj hj' hlt _ _
  rw [List.mem_range'_1] at hj hj'
  refine hd.bits _ _ ?_ ?_ ?_
  . unfold ProbedDev.Present
    dsimp only
    omega
  . unfold ProbedDev.Present
    dsimp only
    omega
  . intro heq
    rw [EngineId.mk.injEq] at heq
    omega

/-- The interrupt enable mask of an engine is the one that was set up for it. -/
def ProbedDev.Unmasked (d : ProbedDev) (id : EngineId) : Prop :=
  d.interruptEnableMask (d.engine id).regs = (d.engine id).interruptEnableMaskValue

theorem engineInitRegs_spec (env : ProbeEnv) (hd : DevReady d) {id : EngineId} (hid : d.Present id)
    : SameEngines d (d.engineInitRegs env id)
      ∧ ∀ id', d.Present id' → d.Unmasked id' ∨ id' = id → (d.engineInitRegs env id).Unmasked id' := by
  obtain ⟨align, gran, bits, credit, heq⟩ := engineInitRegs_eq env d id
  rw [heq]
  refine ⟨⟨?_, ?_, ?_, ?_, ?_⟩, ?_⟩
  . intro id'
    by_cases hid' : id' = id <;> simp [hid']
  . intro id'
    by_cases hid' : id' = id <;> simp [hid']
  . intro id'
    by_cases hid' : id' = id <;> simp [hid']
  . intro dir
    cases dir <;> rfl
  . intro dir
    cases dir <;> rfl
  . intro id' hp hcase
    unfold ProbedDev.Unmasked
    by_cases hid' : id' = id
    . simp [hid']
    . dsimp only
      rw [Function.update_of_ne hid', Function.update_of_ne (hd.regs_inj hp hid hid')]
      exact hcase.resolve_right hid'

/-- A loop of `xdma_device_online()` sets up the interrupt enable masks of the engines. -/
theorem onlineLoop_spec (env : ProbeEnv) {dir : DmaDataDirection} (n i : Nat) (hd : DevReady d)
    (hle : i + n ≤ d.channelMax dir)
    : SameEngines d (onlineLoop env dir n i d)
      ∧ ∀ id, d.Present id →
        d.Unmasked id ∨ id.dir = dir ∧ i ≤ id.channel ∧ id.channel < i + n →
        (onlineLoop env dir n i d).Unmasked id := by
  induction n generalizing i d with
  | zero =>
    refine ⟨SameEngines.refl d, ?_⟩
    rintro id _ (hold | hin)
    . exact hold
    . omega
  | succ n ih =>
    have hid : d.Present ⟨dir, i⟩ := by
      unfold ProbedDev.Present
      dsimp only
      omega
    obtain ⟨hsame, hmask⟩ := engineInitRegs_spec env hd hid
    unfold onlineLoop
    rw [if_pos (hd.magic _ hid)]
    obtain ⟨hsame', hmask'⟩ := ih (i + 1) (hd.same hsame) (by
      rw [hsame.max]
      omega)
    refine ⟨hsame.trans hsame', ?_⟩
    intro id hp hcase
    apply hmask' id ((hsame.present id).mpr hp)
    by_cases heq : id = ⟨dir, i⟩
    . exact .inl (hmask id hp (.inr heq))
    . rcases hcase with hold | ⟨hdir, hlo, hhi⟩
      . exact .inl (hmask id hp (.inl hold))
      . refine .inr ⟨hdir, ?_, by omega⟩
        by_contra hlt
        apply heq
        obtain ⟨dir', j⟩ := id
        rw [EngineId.mk.injEq]
        dsimp only at hdir hlo hhi hlt
        exact ⟨hdir, by omega⟩

/-- The loops of `xdma_isr()` find the engines of the device whose interrupt is requested. -/
theorem mem_isrFired (hd : DevReady d) (chIrq : BitVec 32) (id : EngineId)
    : id ∈ isrFired d chIrq ↔ d.Present id ∧ (d.engine id).irqBitmask &&& chIrq ≠ 0 := by
  have hside (dir : DmaDataDirection)
      : id ∈ isrChannels d dir (d.channelMax dir) 0 (chIrq &&& d.maskIrq dir)
        ↔ d.Present id ∧ id.dir = dir ∧ (d.engine id).irqBitmask &&& chIrq ≠ 0 := by
    rw [isrChannels_eq_dispatch, mem_dispatch _ _ (isrChannels_pairwise hd dir), List.mem_map]
    have hmem : (∃ j ∈ List.range' 0 (d.channelMax dir), (⟨dir, j⟩ : EngineId) = id)
        ↔ d.Present id ∧ id.dir = dir := by
      obtain ⟨dir', j⟩ := id
      unfold ProbedDev.Present
      constructor
      . rintro ⟨k, hk, heq⟩
        rw [EngineId.mk.injEq] at heq
        obtain ⟨rfl, rfl⟩ := heq
        rw [List.mem_range'_1] at hk
        exact ⟨by dsimp only; omega, rfl⟩
      . rintro ⟨hlt, rfl⟩
        exact ⟨j, by rw [List.mem_range'_1]; exact ⟨Nat.zero_le j, by simpa using hlt⟩, rfl⟩
    rw [hmem, and_assoc]
    refine and_congr_right (fun hid => and_congr_right (fun hdir => ?_))
    rw [and_iff_right (hd.magic id hid), BitVec.and_comm chIrq, ← BitVec.and_assoc,
      (hd.mask id hid).2 dir, if_pos hdir.symm]
  have hh2c := hside .toDevice
  have hc2h := hside .fromDevice
  unfold isrFired
  rw [List.mem_append]
  refine (or_congr hh2c hc2h).trans ?_
  cases id.dir <;> simp

end Device

section Step

/-- The interrupt of an engine can be raised. -/
def Interrupts.Enabled (s : Interrupts) (id : EngineId) : Prop :=
  (s.dev.engine id).irqBitmask &&& s.channelIntEnable = (s.dev.engine id).irqBitmask
    ∧ s.dev.interruptEnableMask (s.dev.engine id).regs = (s.dev.engine id).interruptEnableMaskValue

/-- `xdma_isr()` is going to schedule the work of an engine. -/
def Interrupts.IsrDue (s : Interrupts) (id : EngineId) : Prop :=
  match s.isr with
  | none => False
  | some (.disable chIrq) => id ∈ isrFired s.dev chIrq
  | some (.readUser chIrq) => id ∈ isrFired s.dev chIrq
  | some (.acts as) => .scheduleWork id ∈ as

/-- The work of an engine is going to be done, and to enable its interrupt. -/
def Interrupts.Due (s : Interrupts) (id : EngineId) : Prop :=
  s.pending id = true ∨ s.running id = true ∨ s.IsrDue id ∨ id ∈ s.channelIrq

variable {s : Interrupts}

theorem Interrupts.isrDue_same {s' : Interrupts} (hdev : SameEngines s.dev s'.dev) (hisr : s'.isr = s.isr)
    (id : EngineId)
    : s'.IsrDue id ↔ s.IsrDue id := by
  unfold Interrupts.IsrDue
  rw [hisr]
  simp only [isrFired_same hdev]

theorem setMask_same (s : Interrupts) (id : EngineId) (mask : BitVec 32)
    : SameEngines s.dev (s.setMask id mask).dev := by
  refine ⟨fun _ => rfl, fun _ => rfl, fun _ => rfl, ?_, ?_⟩
  . intro dir
    cases dir <;> rfl
  . intro dir
    cases dir <;> rfl

/-- The engines after `xdma_device_online()`. -/
def Interrupts.onlineDev (s : Interrupts) (env : ProbeEnv) : ProbedDev :=
  let d := onlineLoop env .toDevice s.dev.h2cChannelMax 0 s.dev
  onlineLoop env .fromDevice d.c2hChannelMax 0 d

/-- Going online sets up the interrupt enable masks of all engines. -/
theorem Interrupts.onlineDev_spec (s : Interrupts) (env : ProbeEnv) (hd : DevReady s.dev)
    : SameEngines s.dev (s.onlineDev env) ∧ ∀ id, s.dev.Present id → (s.onlineDev env).Unmasked id := by
  obtain ⟨hsame, hmask⟩ := @onlineLoop_spec s.dev env .toDevice s.dev.h2cChannelMax 0 hd (by
    rw [Nat.zero_add]
    exact Nat.le_refl _)
  unfold Interrupts.onlineDev
  generalize onlineLoop env .toDevice s.dev.h2cChannelMax 0 s.dev = d at *
  obtain ⟨hsame', hmask'⟩ := @onlineLoop_spec d env .fromDevice d.c2hChannelMax 0 (hd.same hsame) (by
    rw [Nat.zero_add]
    exact Nat.le_refl _)
  dsimp only
  generalize onlineLoop env .fromDevice d.c2hChannelMax 0 d = d' at *
  refine ⟨hsame.trans hsame', ?_⟩
  intro id hid
  have hid' := (hsame.present id).mpr hid
  apply hmask' id hid'
  obtain ⟨dir, channel⟩ := id
  cases dir with
  | toDevice => exact .inl (hmask _ hid (.inr ⟨rfl, Nat.zero_le _, by rw [Nat.zero_add]; exact hid⟩))
  | fromDevice => exact .inr ⟨rfl, Nat.zero_le _, by rw [Nat.zero_add]; exact hid'⟩

theorem mem_isrActs {chIrq userIrq : BitVec 32} {id : EngineId}
    : .scheduleWork id ∈ s.isrActs chIrq userIrq ↔ id ∈ isrFired s.dev chIrq := by
  unfold Interrupts.isrActs
  simp

theorem channelInterruptsDisable_zero (s : Interrupts) (chIrq : BitVec 32)
    : (if chIrq ≠ 0 then s.channelInterruptsDisable chIrq else s) = s.channelInterruptsDisable chIrq := by
  have hones : ~~~(0 : BitVec 32) = BitVec.allOnes 32 := by decide
  by_cases hzero : chIrq = 0
  . subst hzero
    rw [if_neg (by simp)]
    unfold Interrupts.channelInterruptsDisable
    rw [hones, BitVec.and_allOnes]
  . rw [if_pos hzero]

theorem pending_scheduleWork {id id' : EngineId}
    : (s.scheduleWork id').pending id = true ↔ id = id' ∨ s.pending id = true := by
  unfold Interrupts.scheduleWork
  by_cases heq : id = id' <;> simp [heq]

/-- Of the work that is due, at most that of an engine that is done is not due any more. -/
theorem Interrupts.due_workDone {s' : Interrupts} (id : EngineId) (hdev : SameEngines s.dev s'.dev)
    (hpending : s'.pending = s.pending) (hisr : s'.isr = s.isr)
    (hirq : s'.channelIrq = s.channelIrq) (id' : EngineId)
    : let s'' : Interrupts := { s' with running := Function.update s.running id false }
      (s''.Due id' → s.Due id') ∧ (id' ≠ id → s.Due id' → s''.Due id') := by
  have hisr' := @Interrupts.isrDue_same s { s' with running := Function.update s.running id false }
    hdev hisr id'
  unfold Interrupts.Due
  dsimp only
  rw [hisr', hpending, hirq]
  by_cases heq : id' = id
  . refine ⟨?_, fun hne => absurd heq hne⟩
    rw [heq, Function.update_self]
    rintro (hd | hd | hd)
    . exact .inl hd
    . contradiction
    . exact .inr (.inr hd)
  . rw [Function.update_of_ne heq]
    exact ⟨fun hd => hd, fun _ hd => hd⟩

/-- The work that a step makes due. -/
def Interrupts.Raises (s : Interrupts) (id : EngineId) : InterruptEvent → Prop
  | .isr chIrq => id ∈ isrFired s.dev chIrq
  | .channelIrq id' => id = id' ∧ s.dev.Present id
  | _ => False

def InterruptEvent.isOnline : InterruptEvent → Bool
  | .online _ _ => true
  | _ => false

/--
What any step comes to: the engines stay as they are, no other work gets due than that of the engines whose
interrupt is raised, and as long as the device does not go online, it stays offline, and only work that is
done enables the interrupt of a channel.
-/
structure StepEffect (s : Interrupts) (e : InterruptEvent) (s' : Interrupts) : Prop where
  same : SameEngines s.dev s'.dev
  due : ∀ id, s'.Due id → s.Due id ∨ s.Raises id e
  offline : e.isOnline = false → s.offline = true → s'.offline = true
  chan : e.isOnline = false → ∀ i, s'.channelIntEnable.getLsbD i = true → s.channelIntEnable.getLsbD i = true
    ∨ ∃ id, s.running id = true ∧ (s.dev.engine id).irqBitmask.getLsbD i = true

/-- A step that is about neither the engines nor the channels. -/
theorem StepEffect.frame {e : InterruptEvent} {s' : Interrupts} (hdev : s'.dev = s.dev)
    (hoffline : s.offline = true → s'.offline = true) (hchan : s'.channelIntEnable = s.channelIntEnable)
    (hdue : ∀ id, s'.Due id → s.Due id ∨ s.Raises id e)
    : StepEffect s e s' where
  same := by
    rw [hdev]
    exact SameEngines.refl _
  due := hdue
  offline := fun _ => hoffline
  chan := by
    intro _ i hbit
    rw [hchan] at hbit
    exact .inl hbit

theorem getLsbD_clear {chan mask : BitVec 32} {i : Nat} (h : (chan &&& ~~~mask).getLsbD i = true)
    : chan.getLsbD i = true := by
  rw [BitVec.getLsbD_and, Bool.and_eq_true] at h
  exact h.1

/-- The steps of a run of `xdma_isr()`. -/
theorem Interrupts.isrNext_effect {env : ProbeEnv} {s' : Interrupts}
    (hstep : s.step env .isrNext = some s')
    : StepEffect s .isrNext s' := by
  simp only [Interrupts.step] at hstep
  split at hstep
  . next chIrq hisr =>
    rw [channelInterruptsDisable_zero] at hstep
    cases hstep
    refine ⟨SameEngines.refl _, ?_, fun _ hoff => hoff, fun _ i hbit => .inl (getLsbD_clear hbit)⟩
    intro id h
    refine .inl (h.imp_right (Or.imp_right (Or.imp_left ?_)))
    intro hmem
    unfold Interrupts.IsrDue
    rw [hisr]
    exact hmem
  . next a as hisr =>
    cases hstep
    have hdue (id : EngineId) (hmem : .scheduleWork id ∈ a :: as) : s.Due id := by
      refine .inr (.inr (.inl ?_))
      unfold Interrupts.IsrDue
      rw [hisr]
      exact hmem
    cases a with
    | userIrqService user =>
      refine .frame rfl (fun hoff => hoff) rfl ?_
      rintro id (h | h | h | h)
      . exact .inl (.inl h)
      . exact .inl (.inr (.inl h))
      . exact .inl (hdue id (List.mem_cons_of_mem _ h))
      . exact .inl (.inr (.inr (.inr h)))
    | scheduleWork id' =>
      refine .frame rfl (fun hoff => hoff) rfl ?_
      rintro id (h | h | h | h)
      . cases pending_scheduleWork.mp h with
        | inl heq => exact .inl (hdue id (heq ▸ List.mem_cons_self ..))
        | inr hold => exact .inl (.inl hold)
      . exact .inl (.inr (.inl h))
      . exact .inl (hdue id (List.mem_cons_of_mem _ h))
      . exact .inl (.inr (.inr (.inr h)))
  . cases hstep
    refine .frame rfl (fun hoff => hoff) rfl ?_
    rintro id (h | h | h | h)
    . exact .inl (.inl h)
    . exact .inl (.inr (.inl h))
    . exact h.elim
    . exact .inl (.inr (.inr (.inr h)))
  . contradiction

theorem Interrupts.workDone_effect {s : Interrupts} {id : EngineId} (hrunning : s.running id = true)
    : StepEffect s (.workDone id)
        { s.engineServiceWork id with running := Function.update s.running id false } := by
  unfold Interrupts.engineServiceWork
  dsimp only
  split
  . split
    . exact ⟨setMask_same s id _, fun id' h => .inl ((@Interrupts.due_workDone s (s.setMask id _) id
        (setMask_same s id _) rfl rfl rfl id').1 h), fun _ hoff => hoff, fun _ _ hbit => .inl hbit⟩
    . refine ⟨SameEngines.refl _, fun id' h => .inl ((@Interrupts.due_workDone s
        (s.channelInterruptsEnable _) id (SameEngines.refl _) rfl rfl rfl id').1 h), fun _ hoff => hoff, ?_⟩
      intro _ i hbit
      replace hbit : (s.channelIntEnable ||| (s.dev.engine id).irqBitmask).getLsbD i = true := hbit
      rw [BitVec.getLsbD_or, Bool.or_eq_true] at hbit
      exact hbit.imp_right (fun hown => ⟨id, hrunning, hown⟩)
  . exact .frame rfl (fun hoff => hoff) rfl
      (fun id' h => .inl ((@Interrupts.due_workDone s s id (SameEngines.refl _) rfl rfl rfl id').1 h))

theorem Interrupts.online_effect {env : ProbeEnv} (hd : DevReady s.dev) {pollMode irqSetup : Bool}
    : StepEffect s (.online pollMode irqSetup)
        (s.deviceOnline { env with pollMode := pollMode } irqSetup) := by
  have hsame := (s.onlineDev_spec { env with pollMode := pollMode } hd).1
  have hrest : (s.deviceOnline { env with pollMode := pollMode } irqSetup).dev
        = s.onlineDev { env with pollMode := pollMode }
      ∧ (s.deviceOnline { env with pollMode := pollMode } irqSetup).pending = s.pending
      ∧ (s.deviceOnline { env with pollMode := pollMode } irqSetup).running = s.running
      ∧ (s.deviceOnline { env with pollMode := pollMode } irqSetup).isr = s.isr
      ∧ (s.deviceOnline { env with pollMode := pollMode } irqSetup).channelIrq = s.channelIrq := by
    unfold Interrupts.deviceOnline
    dsimp only
    split <;> exact ⟨rfl, rfl, rfl, rfl, rfl⟩
  obtain ⟨hdev, hpending, hrunning, hisr, hirq⟩ := hrest
  rw [← hdev] at hsame
  refine ⟨hsame, ?_, by simp [InterruptEvent.isOnline], by simp [InterruptEvent.isOnline]⟩
  intro id h
  unfold Interrupts.Due at h ⊢
  rw [hpending, hrunning, hirq, Interrupts.isrDue_same hsame hisr] at h
  exact .inl h

theorem Interrupts.step_effect {env : ProbeEnv} (hd : DevReady s.dev) {e : InterruptEvent} {s' : Interrupts}
    (hstep : s.step env e = some s')
    : StepEffect s e s' := by
  cases e with
  | isr chIrq =>
    simp only [Interrupts.step, Option.ite_none_right_eq_some, Option.some.injEq] at hstep
    obtain ⟨_, rfl⟩ := hstep
    refine .frame rfl (fun hoff => hoff) rfl ?_
    rintro id (h | h | h | h)
    . exact .inl (.inl h)
    . exact .inl (.inr (.inl h))
    . exact .inr h
    . exact .inl (.inr (.inr (.inr h)))
  | isrUser userIrq =>
    simp only [Interrupts.step] at hstep
    split at hstep
    . next chIrq hisr =>
      cases hstep
      refine .frame rfl (fun hoff => hoff) rfl ?_
      intro id h
      refine .inl (h.imp_right (Or.imp_right (Or.imp_left ?_)))
      intro hmem
      unfold Interrupts.IsrDue
      rw [hisr]
      exact mem_isrActs.mp hmem
    . contradiction
  | isrNext => exact Interrupts.isrNext_effect hstep
  | channelIrq id' =>
    simp only [Interrupts.step, Option.ite_none_right_eq_some, Option.some.injEq] at hstep
    obtain ⟨⟨_, _, hlt, _⟩, rfl⟩ := hstep
    refine ⟨setMask_same s id' _, ?_, fun _ hoff => hoff, fun _ _ hbit => .inl hbit⟩
    rintro id (h | h | h | h)
    . exact .inl (.inl h)
    . exact .inl (.inr (.inl h))
    . exact .inl (.inr (.inr (.inl ((Interrupts.isrDue_same (setMask_same s id' _) rfl id).mp h))))
    . cases List.mem_cons.mp h with
      | inl heq =>
        refine .inr ⟨heq, ?_⟩
        rw [heq]
        exact hlt
      | inr hold => exact .inl (.inr (.inr (.inr hold)))
  | channelIrqDone id' =>
    simp only [Interrupts.step, Option.ite_none_right_eq_some, Option.some.injEq] at hstep
    obtain ⟨hmem, rfl⟩ := hstep
    refine .frame rfl (fun hoff => hoff) rfl ?_
    rintro id (h | h | h | h)
    . cases pending_scheduleWork.mp h with
      | inl heq => exact .inl (.inr (.inr (.inr (heq ▸ hmem))))
      | inr hold => exact .inl (.inl hold)
    . exact .inl (.inr (.inl h))
    . exact .inl (.inr (.inr (.inl h)))
    . exact .inl (.inr (.inr (.inr (List.mem_of_mem_erase h))))
  | work id' =>
    simp only [Interrupts.step, Option.ite_none_right_eq_some, Option.some.injEq] at hstep
    obtain ⟨⟨hpending, _⟩, rfl⟩ := hstep
    refine .frame rfl (fun hoff => hoff) rfl ?_
    intro id h
    by_cases heq : id = id'
    . exact .inl (.inl (heq ▸ hpending))
    . rcases h with h | h | h
      . exact .inl (.inl ((Function.update_of_ne heq _ _).symm.trans h))
      . exact .inl (.inr (.inl ((Function.update_of_ne heq _ _).symm.trans h)))
      . exact .inl (.inr (.inr h))
  | workDone id' =>
    simp only [Interrupts.step, Option.ite_none_right_eq_some, Option.some.injEq] at hstep
    obtain ⟨hrunning, rfl⟩ := hstep
    exact Interrupts.workDone_effect hrunning
  | userIrq user =>
    simp only [Interrupts.step, Option.ite_none_right_eq_some, Option.some.injEq] at hstep
    obtain ⟨_, rfl⟩ := hstep
    exact .frame rfl (fun hoff => hoff) rfl (fun _ h => .inl h)
  | userIsrRegister mask handler =>
    cases hstep
    exact .frame rfl (fun hoff => hoff) rfl (fun _ h => .inl h)
  | userIsrEnable mask =>
    cases hstep
    exact .frame rfl (fun hoff => hoff) rfl (fun _ h => .inl h)
  | userIsrDisable mask =>
    cases hstep
    exact .frame rfl (fun hoff => hoff) rfl (fun _ h => .inl h)
  | offline =>
    cases hstep
    exact ⟨SameEngines.refl _, fun _ h => .inl h, fun _ _ => rfl, fun _ i hbit => .inl (getLsbD_clear hbit)⟩
  | irqTeardown =>
    simp only [Interrupts.step, Option.ite_none_right_eq_some, Option.some.injEq] at hstep
    obtain ⟨_, rfl⟩ := hstep
    exact .frame rfl (fun hoff => hoff) rfl (fun _ h => .inl h)
  | online pollMode irqSetup =>
    cases hstep
    exact Interrupts.online_effect hd

theorem Interrupts.run_same {env : ProbeEnv} (hd : DevReady s.dev) {es : List InterruptEvent}
    {s' : Interrupts} (hrun : run (Interrupts.step env) s es = some s')
    : SameEngines s.dev s'.dev := by
  induction es generalizing s with
  | nil =>
    cases hrun
    exact SameEngines.refl _
  | cons e es ih =>
    simp only [run, Option.bind_eq_some_iff] at hrun
    obtain ⟨m, hm, hrun⟩ := hrun
    have hsame := (Interrupts.step_effect hd hm).same
    exact hsame.trans (ih (hd.same hsame) hrun)

/-- Servicing some user interrupts, each of them once, services just these. -/
theorem foldl_userIrqService (s : Interrupts) (users : List Nat) (hnodup : users.Nodup)
    : (users.map IsrAct.userIrqService).foldl Interrupts.isrAct s = { s with
        userIrq := fun user =>
          if user ∈ users then (userIrqService (s.userIrq user)).1 else s.userIrq user } := by
  induction users generalizing s with
  | nil => rfl
  | cons user users ih =>
    rw [List.nodup_cons] at hnodup
    rw [List.map_cons, List.foldl_cons, ih _ hnodup.2]
    unfold Interrupts.isrAct
    dsimp only
    congr 1
    funext user'
    by_cases heq : user' = user
    . rw [heq, if_neg hnodup.1, if_pos (List.mem_cons_self ..), Function.update_self]
    . rw [Function.update_of_ne heq]
      simp [heq]

/-- Scheduling the work of some engines leaves just this work pending, beside what was. -/
theorem foldl_scheduleWork (s : Interrupts) (ids : List EngineId)
    : (ids.map IsrAct.scheduleWork).foldl Interrupts.isrAct s = { s with
        pending := fun id => s.pending id || decide (id ∈ ids) } := by
  induction ids generalizing s with
  | nil => simp
  | cons id ids ih =>
    rw [List.map_cons, List.foldl_cons, ih]
    unfold Interrupts.isrAct Interrupts.scheduleWork
    dsimp only
    congr 1
    funext id'
    by_cases heq : id' = id <;> simp [heq]

theorem foldl_setIsr (s : Interrupts) (as : List IsrAct) (pc : Option IsrPc)
    : as.foldl Interrupts.isrAct { s with isr := pc } = { as.foldl Interrupts.isrAct s with isr := pc } := by
  induction as generalizing s with
  | nil => rfl
  | cons a as ih =>
    rw [List.foldl_cons, List.foldl_cons, ← ih]
    cases a <;> rfl

/-- The steps of a run of `xdma_isr()` from where it knows what to do. -/
theorem run_isrActs (env : ProbeEnv) (as : List IsrAct) (hisr : s.isr = some (.acts as))
    : run (Interrupts.step env) s (List.replicate (as.length + 1) .isrNext)
        = some { as.foldl Interrupts.isrAct s with isr := none, irqCount := s.irqCount + 1 } := by
  induction as generalizing s with
  | nil =>
    simp only [List.length_nil, Nat.zero_add, List.replicate_one, run, Interrupts.step, hisr]
    rfl
  | cons a as ih =>
    have hcount : (s.isrAct a).irqCount = s.irqCount := by
      cases a <;> rfl
    rw [List.length_cons, List.replicate_succ]
    unfold run
    simp only [Interrupts.step, hisr, Option.bind_some]
    rw [ih rfl, foldl_setIsr, hcount]
    rfl

theorem foldl_isrActs (s : Interrupts) (chIrq userIrq : BitVec 32)
    : (s.isrActs chIrq userIrq).foldl Interrupts.isrAct s = { s with
        userIrq := fun user =>
          if user < s.userMax ∧ userIrq.getLsbD user = true then
            (userIrqService (s.userIrq user)).1
          else
            s.userIrq user
        pending := fun id => s.pending id || decide (id ∈ isrFired s.dev chIrq) } := by
  have hnodup : (isrUsers s.userMax 0 1 userIrq).Nodup := by
    rw [isrUsers_eq]
    exact List.nodup_range.filter _
  unfold Interrupts.isrActs
  rw [List.foldl_append, foldl_userIrqService _ _ hnodup, foldl_scheduleWork]
  simp only [isrUsers_eq, List.mem_filter, List.mem_range]

end Step

end Xdma
