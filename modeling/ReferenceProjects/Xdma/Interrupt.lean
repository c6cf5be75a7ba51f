import ReferenceProjects.Xdma.Lemmas.Interrupt

/-!
This module contains that no interrupt of a device gets lost: what a run of `xdma_isr()` serves, and that in
every interleaving of the handlers, the work and the calls, an engine has its interrupt enabled or somebody is
going to enable it again.
-/

namespace Xdma

open Dispatch Transition

section Armed

variable {s : Interrupts}

/--
While a device is online, every engine has its interrupt enabled or work due that is going to enable it, and
the user interrupts that are enabled are those that were asked for.
-/
def Interrupts.Armed (s : Interrupts) : Prop :=
  s.offline = false →
    (∀ id, s.dev.Present id → s.Enabled id ∨ s.Due id) ∧ s.userIntEnable = s.maskIrqUser

/-- What the steps keep, and what they keep where poll mode stays off. -/
structure Interrupts.Inv (s : Interrupts) (pollOff : Prop) : Prop where
  ready : DevReady s.dev
  due : ∀ id, s.Due id → s.dev.Present id
  legacy : s.msixEnabled = false → s.channelIrq = []
    ∧ ∀ id, s.dev.Present id →
      s.dev.interruptEnableMask (s.dev.engine id).regs = (s.dev.engine id).interruptEnableMaskValue
  msix : s.msixEnabled = true → s.isr = none
    ∧ (∀ id, s.dev.Present id →
      s.dev.interruptEnableMask (s.dev.engine id).regs = (s.dev.engine id).interruptEnableMaskValue
        ∨ s.dev.interruptEnableMask (s.dev.engine id).regs = 0)
    ∧ (pollOff → s.offline = false → s.channelIntEnable = BitVec.allOnes 32)
  user : s.userIntEnable ||| s.maskIrqUser = s.maskIrqUser
  armed : pollOff → s.Armed

variable {pollOff : Prop}

/-- Steps that leave the registers alone only have to keep the work due. -/
theorem Interrupts.Inv.frame (h : s.Inv pollOff) {s' : Interrupts} (hdev : s'.dev = s.dev)
    (hregs : s'.channelIntEnable = s.channelIntEnable ∧ s'.userIntEnable = s.userIntEnable
      ∧ s'.maskIrqUser = s.maskIrqUser)
    (hmode : s'.msixEnabled = s.msixEnabled ∧ s'.offline = s.offline)
    (hlegacy : s.msixEnabled = false → s'.channelIrq = []) (hmsix : s.msixEnabled = true → s'.isr = none)
    (hkeep : ∀ id, s.Due id → s'.Due id) (hnew : ∀ id, s'.Due id → s.dev.Present id)
    : s'.Inv pollOff := by
  obtain ⟨hchan, huser, hmask⟩ := hregs
  obtain ⟨hmode, hoffline⟩ := hmode
  refine ⟨hdev ▸ h.ready, fun id hid => by rw [hdev]; exact hnew id hid, ?_, ?_, ?_, ?_⟩
  . intro hm
    rw [hmode] at hm
    rw [hdev]
    exact ⟨hlegacy hm, (h.legacy hm).2⟩
  . intro hm
    rw [hmode] at hm
    rw [hdev, hchan, hoffline]
    exact ⟨hmsix hm, (h.msix hm).2⟩
  . rw [huser, hmask]
    exact h.user
  . intro hp hon
    rw [hoffline] at hon
    obtain ⟨harmed, hon⟩ := h.armed hp hon
    unfold Interrupts.Enabled
    rw [hdev, hchan, huser, hmask]
    refine ⟨?_, hon⟩
    intro id hid
    exact (harmed id hid).imp_right (hkeep id)

/-- `xdma_isr()` runs only where the vectors are not those of MSI-X. -/
theorem Interrupts.Inv.legacy_of_isr (h : s.Inv pollOff) {pc : IsrPc} (hisr : s.isr = some pc)
    : s.msixEnabled = false := by
  by_contra hm
  rw [Bool.not_eq_false] at hm
  have := (h.msix hm).1
  rw [hisr] at this
  contradiction

/-- `xdma_isr()` disables the interrupts of the engines whose work it is going to schedule. -/
theorem Interrupts.Inv.isrDisable (h : s.Inv pollOff) {chIrq : BitVec 32} (hisr : s.isr = some (.disable chIrq))
    : ({ (if chIrq ≠ 0 then s.channelInterruptsDisable chIrq else s) with
        isr := some (.readUser chIrq) } : Interrupts).Inv pollOff := by
  rw [channelInterruptsDisable_zero]
  have hlegacy := h.legacy_of_isr hisr
  have hdue (id : EngineId) : ({ s.channelInterruptsDisable chIrq with
      isr := some (.readUser chIrq) } : Interrupts).Due id ↔ s.Due id := by
    unfold Interrupts.Due Interrupts.IsrDue
    rw [hisr]
    rfl
  refine ⟨h.ready, fun id hid => h.due id ((hdue id).mp hid), fun _ => h.legacy hlegacy, ?_, h.user, ?_⟩
  . intro hm
    exact absurd (hlegacy.symm.trans hm) Bool.false_ne_true
  . intro hp hon
    obtain ⟨harmed, huser⟩ := h.armed hp hon
    refine ⟨?_, huser⟩
    intro id hid
    rw [hdue]
    cases harmed id hid with
    | inr hd => exact .inr hd
    | inl henabled =>
      by_cases hbit : (s.dev.engine id).irqBitmask &&& chIrq = 0
      . refine .inl ⟨?_, henabled.2⟩
        show (s.dev.engine id).irqBitmask &&& (s.channelIntEnable &&& ~~~chIrq) = _
        rw [and_clear_of_disjoint (by rw [BitVec.and_comm]; exact hbit)]
        exact henabled.1
      . refine .inr (.inr (.inr (.inl ?_)))
        unfold Interrupts.IsrDue
        rw [hisr]
        exact (mem_isrFired h.ready chIrq id).mpr ⟨hid, hbit⟩

/-- The interrupt enable masks of the other engines are somewhere else. -/
theorem setMask_regs (h : DevReady s.dev) {id id' : EngineId} (hid : s.dev.Present id)
    (hid' : s.dev.Present id') (mask : BitVec 32)
    : (s.setMask id mask).dev.interruptEnableMask (s.dev.engine id').regs
        = if id' = id then mask else s.dev.interruptEnableMask (s.dev.engine id').regs := by
  unfold Interrupts.setMask
  by_cases heq : id' = id
  . rw [if_pos heq, heq]
    exact Function.update_self _ _ _
  . rw [if_neg heq]
    exact Function.update_of_ne (h.regs_inj hid' hid heq) _ _

/-- `xdma_channel_irq()` disables the interrupt of the engine whose work it is going to schedule. -/
theorem Interrupts.Inv.channelIrq (h : s.Inv pollOff) (hm : s.msixEnabled = true) {id : EngineId}
    (hid : s.dev.Present id)
    : ({ s.setMask id (s.dev.interruptEnableMask (s.dev.engine id).regs
          &&& ~~~(s.dev.engine id).interruptEnableMaskValue) with
        channelIrq := id :: s.channelIrq } : Interrupts).Inv pollOff := by
  generalize hmask : s.dev.interruptEnableMask (s.dev.engine id).regs
    &&& ~~~(s.dev.engine id).interruptEnableMaskValue = mask
  have hzero : mask = 0 := by
    rw [← hmask]
    cases (h.msix hm).2.1 id hid with
    | inl hvalue =>
      rw [hvalue]
      simp
    | inr hvalue =>
      rw [hvalue]
      simp
  have hregs := fun id' hid' => @setMask_regs s h.ready id id' hid hid' mask
  have hdue (id' : EngineId) : ({ s.setMask id mask with channelIrq := id :: s.channelIrq } : Interrupts).Due id'
      ↔ id' = id ∨ s.Due id' := by
    have hisr := @Interrupts.isrDue_same s { s.setMask id mask with channelIrq := id :: s.channelIrq }
      (setMask_same s id mask) rfl id'
    unfold Interrupts.Due
    rw [hisr, List.mem_cons]
    show (s.pending id' = true ∨ s.running id' = true ∨ s.IsrDue id' ∨ id' = id ∨ id' ∈ s.channelIrq) ↔ _
    rw [or_left_comm (b := id' = id), or_left_comm (b := id' = id), or_left_comm (b := id' = id)]
  refine ⟨h.ready.same (setMask_same s id mask), ?_, ?_, ?_, h.user, ?_⟩
  . intro id' hid'
    rw [hdue] at hid'
    cases hid' with
    | inl heq =>
      rw [heq]
      exact hid
    | inr hd => exact h.due id' hd
  . intro hl
    exact absurd (hm.symm.trans hl) Bool.false_ne_true.symm
  . intro _
    refine ⟨(h.msix hm).1, ?_, (h.msix hm).2.2⟩
    intro id' hid'
    show (s.setMask id mask).dev.interruptEnableMask (s.dev.engine id').regs = _
      ∨ (s.setMask id mask).dev.interruptEnableMask (s.dev.engine id').regs = _
    rw [hregs id' hid']
    split
    . exact .inr hzero
    . exact (h.msix hm).2.1 id' hid'
  . intro hp hon
    obtain ⟨harmed, huser⟩ := h.armed hp hon
    refine ⟨?_, huser⟩
    intro id' hid'
    rw [hdue]
    by_cases heq : id' = id
    . exact .inr (.inl heq)
    . refine (harmed id' hid').imp (fun henabled => ⟨henabled.1, ?_⟩) .inr
      show (s.setMask id mask).dev.interruptEnableMask (s.dev.engine id').regs = _
      rw [hregs id' hid', if_neg heq]
      exact henabled.2

theorem and_or_of_and {a b : BitVec 32} (h : a &&& b = a) (c : BitVec 32)
    : a &&& (b ||| c) = a := by
  apply BitVec.eq_of_getLsbD_eq
  intro i _
  have hbit := congrArg (fun x => x.getLsbD i) h
  simp only [BitVec.getLsbD_and, BitVec.getLsbD_or] at hbit ⊢
  cases ha : a.getLsbD i with
  | false => rfl
  | true =>
    rw [ha, Bool.true_and] at hbit
    rw [hbit]
    rfl

theorem and_or_self_right (a b : BitVec 32)
    : a &&& (b ||| a) = a := by
  rw [BitVec.or_comm]
  exact and_or_of_and (BitVec.and_self) b

/-- The work of an engine enables its interrupt again. -/
theorem Interrupts.Inv.workDone (h : s.Inv pollOff) {id : EngineId} (hrunning : s.running id = true)
    : ({ s.engineServiceWork id with running := Function.update s.running id false } : Interrupts).Inv pollOff := by
  have hid := h.due id (.inr (.inl hrunning))
  have hset : s.engineServiceWork id = if s.msixEnabled then
      s.setMask id (s.dev.interruptEnableMask (s.dev.engine id).regs
        ||| (s.dev.engine id).interruptEnableMaskValue)
    else
      s.channelInterruptsEnable (s.dev.engine id).irqBitmask := by
    unfold Interrupts.engineServiceWork
    rw [if_pos (h.ready.magic id hid)]
  rw [hset]
  cases hm : s.msixEnabled with
  | true =>
    rw [if_pos rfl]
    generalize hmask : s.dev.interruptEnableMask (s.dev.engine id).regs
      ||| (s.dev.engine id).interruptEnableMaskValue = mask
    have hvalue : mask = (s.dev.engine id).interruptEnableMaskValue := by
      rw [← hmask]
      cases (h.msix hm).2.1 id hid with
      | inl hold =>
        rw [hold]
        simp
      | inr hold =>
        rw [hold]
        simp
    have hregs := fun id' hid' => @setMask_regs s h.ready id id' hid hid' mask
    have hdue := @Interrupts.due_workDone s (s.setMask id mask) id (setMask_same s id mask) rfl rfl rfl
    refine ⟨h.ready.same (setMask_same s id mask), ?_, ?_, ?_, h.user, ?_⟩
    . intro id' hid'
      exact h.due id' ((hdue id').1 hid')
    . intro hl
      exact absurd (hm.symm.trans hl) Bool.false_ne_true.symm
    . intro _
      refine ⟨(h.msix hm).1, ?_, (h.msix hm).2.2⟩
      intro id' hid'
      show (s.setMask id mask).dev.interruptEnableMask (s.dev.engine id').regs = _
        ∨ (s.setMask id mask).dev.interruptEnableMask (s.dev.engine id').regs = _
      rw [hregs id' hid']
      split
      . next heq =>
        rw [heq]
        exact .inl hvalue
      . exact (h.msix hm).2.1 id' hid'
    . intro hp hon
      obtain ⟨harmed, huser⟩ := h.armed hp hon
      refine ⟨?_, huser⟩
      intro id' hid'
      by_cases heq : id' = id
      . refine .inl ⟨?_, ?_⟩
        . show (s.dev.engine id').irqBitmask &&& s.channelIntEnable = _
          rw [(h.msix hm).2.2 hp hon, BitVec.and_allOnes]
          rfl
        . show (s.setMask id mask).dev.interruptEnableMask (s.dev.engine id').regs = _
          rw [hregs id' hid', if_pos heq, heq]
          exact hvalue
      . refine (harmed id' hid').imp (fun henabled => ⟨henabled.1, ?_⟩) ((hdue id').2 heq)
        show (s.setMask id mask).dev.interruptEnableMask (s.dev.engine id').regs = _
        rw [hregs id' hid', if_neg heq]
        exact henabled.2
  | false =>
    rw [if_neg Bool.false_ne_true]
    have hdue := @Interrupts.due_workDone s (s.channelInterruptsEnable (s.dev.engine id).irqBitmask) id
      (SameEngines.refl _) rfl rfl rfl
    refine ⟨h.ready, fun id' hid' => h.due id' ((hdue id').1 hid'), fun _ => h.legacy hm, ?_, h.user, ?_⟩
    . intro hl
      exact absurd (hm.symm.trans hl) Bool.false_ne_true
    . intro hp hon
      obtain ⟨harmed, huser⟩ := h.armed hp hon
      refine ⟨?_, huser⟩
      intro id' hid'
      by_cases heq : id' = id
      . refine .inl ⟨?_, (h.legacy hm).2 id' hid'⟩
        show (s.dev.engine id').irqBitmask &&& (s.channelIntEnable ||| (s.dev.engine id).irqBitmask) = _
        rw [heq]
        exact and_or_self_right _ _
      . refine (harmed id' hid').imp (fun henabled => ⟨?_, henabled.2⟩) ((hdue id').2 heq)
        show (s.dev.engine id').irqBitmask &&& (s.channelIntEnable ||| (s.dev.engine id).irqBitmask) = _
        exact and_or_of_and henabled.1 _

/-- The user interrupts that are enabled stay among those that were asked for. -/
theorem or_clear {a b : BitVec 32} (h : a ||| b = b) (mask : BitVec 32)
    : (a &&& ~~~mask) ||| (b &&& ~~~mask) = b &&& ~~~mask := by
  apply BitVec.eq_of_getLsbD_eq
  intro i hi
  have hbit := congrArg (fun x => x.getLsbD i) h
  simp only [BitVec.getLsbD_and, BitVec.getLsbD_or] at hbit ⊢
  rw [← Bool.and_or_distrib_right, hbit]

theorem or_set {a b : BitVec 32} (h : a ||| b = b) (mask : BitVec 32)
    : (a ||| mask) ||| (b ||| mask) = b ||| mask := by
  rw [BitVec.or_assoc, BitVec.or_comm mask, BitVec.or_assoc, BitVec.or_self, ← BitVec.or_assoc, h]

theorem Interrupts.Inv.userIsrEnable (h : s.Inv pollOff) (mask : BitVec 32)
    : ({ s with maskIrqUser := s.maskIrqUser ||| mask }.userInterruptsEnable mask).Inv pollOff := by
  refine ⟨h.ready, h.due, h.legacy, h.msix, or_set h.user mask, ?_⟩
  intro hp hon
  obtain ⟨harmed, huser⟩ := h.armed hp hon
  refine ⟨harmed, ?_⟩
  show s.userIntEnable ||| mask = s.maskIrqUser ||| mask
  rw [huser]

theorem Interrupts.Inv.userIsrDisable (h : s.Inv pollOff) (mask : BitVec 32)
    : ({ s with maskIrqUser := s.maskIrqUser &&& ~~~mask }.userInterruptsDisable mask).Inv pollOff := by
  refine ⟨h.ready, h.due, h.legacy, h.msix, or_clear h.user mask, ?_⟩
  intro hp hon
  obtain ⟨harmed, huser⟩ := h.armed hp hon
  refine ⟨harmed, ?_⟩
  show s.userIntEnable &&& ~~~mask = s.maskIrqUser &&& ~~~mask
  rw [huser]

theorem Interrupts.Inv.offline (h : s.Inv pollOff)
    : s.deviceOffline.Inv pollOff := by
  refine ⟨h.ready, h.due, h.legacy, ?_, ?_, ?_⟩
  . intro hm
    refine ⟨(h.msix hm).1, (h.msix hm).2.1, ?_⟩
    intro _ hon
    contradiction
  . show (s.userIntEnable &&& ~~~BitVec.allOnes 32) ||| s.maskIrqUser = s.maskIrqUser
    rw [BitVec.not_allOnes]
    simp
  . intro _ hon
    contradiction

/-- What going online changes; where poll mode is off, all interrupts that were asked for are enabled. -/
theorem Interrupts.deviceOnline_eq (env : ProbeEnv) (huser : s.userIntEnable ||| s.maskIrqUser = s.maskIrqUser)
    (irqSetup : Bool)
    : ∃ handlers chan user, s.deviceOnline env irqSetup = { s with
          dev := s.onlineDev env
          handlers := handlers
          channelIntEnable := chan
          userIntEnable := user
          offline := false }
        ∧ user ||| s.maskIrqUser = s.maskIrqUser
        ∧ (env.pollMode = false → chan = BitVec.allOnes 32 ∧ user = s.maskIrqUser) := by
  unfold Interrupts.deviceOnline
  cases env.pollMode with
  | true => exact ⟨s.handlers, s.channelIntEnable, s.userIntEnable, rfl, huser, by simp⟩
  | false =>
    refine ⟨s.handlers || irqSetup, s.channelIntEnable ||| BitVec.allOnes 32,
      s.userIntEnable ||| s.maskIrqUser, rfl, ?_, fun _ => ⟨BitVec.or_allOnes, huser⟩⟩
    rw [huser, BitVec.or_self]

/-- Going online enables the interrupts of all engines, unless it is in poll mode. -/
theorem Interrupts.Inv.online (h : s.Inv pollOff) (env : ProbeEnv) (hpoll : pollOff → env.pollMode = false)
    (irqSetup : Bool)
    : (s.deviceOnline env irqSetup).Inv pollOff := by
  obtain ⟨hdev, hunmasked⟩ := s.onlineDev_spec env h.ready
  obtain ⟨handlers, chan, user, honline, huser, hon⟩ := s.deviceOnline_eq env h.user irqSetup
  rw [honline]
  generalize s.onlineDev env = d' at *
  have hdue (id : EngineId) : ({ s with
      dev := d'
      handlers := handlers
      channelIntEnable := chan
      userIntEnable := user
      offline := false } : Interrupts).Due id ↔ s.Due id := by
    have hisr := @Interrupts.isrDue_same s { s with
      dev := d'
      handlers := handlers
      channelIntEnable := chan
      userIntEnable := user
      offline := false } hdev rfl id
    unfold Interrupts.Due
    rw [hisr]
  refine ⟨h.ready.same hdev, ?_, ?_, ?_, huser, ?_⟩
  . intro id hid
    exact (hdev.present id).mpr (h.due id ((hdue id).mp hid))
  . intro hm
    exact ⟨(h.legacy hm).1, fun id hid => hunmasked id ((hdev.present id).mp hid)⟩
  . intro hm
    exact ⟨(h.msix hm).1, fun id hid => .inl (hunmasked id ((hdev.present id).mp hid)),
      fun hp _ => (hon (hpoll hp)).1⟩
  . intro hp _
    obtain ⟨hchan, huser⟩ := hon (hpoll hp)
    refine ⟨fun id hid => .inl ⟨?_, hunmasked id ((hdev.present id).mp hid)⟩, huser⟩
    dsimp only
    rw [hchan, BitVec.and_allOnes]

/-- A run of `xdma_isr()` that goes on without touching the registers keeps its work due. -/
theorem Interrupts.Inv.setIsr (h : s.Inv pollOff) (hl : s.msixEnabled = false) (pc : Option IsrPc) (irqCount : Nat)
    (hkeep : ∀ id, s.IsrDue id → ({ s with isr := pc, irqCount := irqCount } : Interrupts).IsrDue id)
    (hnew : ∀ id, ({ s with isr := pc, irqCount := irqCount } : Interrupts).Due id → s.dev.Present id)
    : ({ s with isr := pc, irqCount := irqCount } : Interrupts).Inv pollOff := by
  refine h.frame rfl ⟨rfl, rfl, rfl⟩ ⟨rfl, rfl⟩ (fun hm => (h.legacy hm).1) ?_ ?_ hnew
  . intro hm
    exact absurd (hl.symm.trans hm) Bool.false_ne_true
  . rintro id (hd | hd | hd | hd)
    . exact .inl hd
    . exact .inr (.inl hd)
    . exact .inr (.inr (.inl (hkeep id hd)))
    . exact .inr (.inr (.inr hd))

/-- What the user interrupts note is not about the engines. -/
theorem Interrupts.Inv.setUserIrq (h : s.Inv pollOff) (userIrq : Nat → UserIrq)
    : ({ s with userIrq := userIrq } : Interrupts).Inv pollOff :=
  h.frame rfl ⟨rfl, rfl, rfl⟩ ⟨rfl, rfl⟩ (fun hm => (h.legacy hm).1) (fun hm => (h.msix hm).1)
    (fun _ hd => hd) (fun id hd => h.due id hd)

/-- The work that is scheduled is due before and after. -/
theorem Interrupts.Inv.isrSchedule (h : s.Inv pollOff) {id : EngineId} {as : List IsrAct}
    (hisr : s.isr = some (.acts (.scheduleWork id :: as)))
    (hnew : ∀ id', ({ s.scheduleWork id with isr := some (.acts as) } : Interrupts).Due id'
      → s.dev.Present id')
    : ({ s.scheduleWork id with isr := some (.acts as) } : Interrupts).Inv pollOff := by
  have hl := h.legacy_of_isr hisr
  have hisrDue (id' : EngineId) : s.IsrDue id' ↔ id' = id ∨ .scheduleWork id' ∈ as := by
    unfold Interrupts.IsrDue
    rw [hisr]
    simp
  refine h.frame rfl ⟨rfl, rfl, rfl⟩ ⟨rfl, rfl⟩ (fun hm => (h.legacy hm).1) ?_ ?_ hnew
  . intro hm
    exact absurd (hl.symm.trans hm) Bool.false_ne_true
  . rintro id' (hd | hd | hd | hd)
    . exact .inl (pending_scheduleWork.mpr (.inr hd))
    . exact .inr (.inl hd)
    . cases (hisrDue id').mp hd with
      | inl heq => exact .inl (pending_scheduleWork.mpr (.inl heq))
      | inr hmem => exact .inr (.inr (.inl hmem))
    . exact .inr (.inr (.inr hd))

theorem Interrupts.Inv.channelIrqDone (h : s.Inv pollOff) {id : EngineId} (hmem : id ∈ s.channelIrq)
    (hnew : ∀ id', ({ s.scheduleWork id with
        channelIrq := s.channelIrq.erase id, irqCount := s.irqCount + 1 } : Interrupts).Due id'
      → s.dev.Present id')
    : ({ s.scheduleWork id with
        channelIrq := s.channelIrq.erase id, irqCount := s.irqCount + 1 } : Interrupts).Inv pollOff := by
  refine h.frame rfl ⟨rfl, rfl, rfl⟩ ⟨rfl, rfl⟩ ?_ (fun hm => (h.msix hm).1) ?_ hnew
  . intro hm
    rw [(h.legacy hm).1] at hmem
    contradiction
  . rintro id' (hd | hd | hd | hd)
    . exact .inl (pending_scheduleWork.mpr (.inr hd))
    . exact .inr (.inl hd)
    . exact .inr (.inr (.inl hd))
    . by_cases heq : id' = id
      . exact .inl (pending_scheduleWork.mpr (.inl heq))
      . exact .inr (.inr (.inr ((List.mem_erase_of_ne heq).mpr hd)))

/-- Work that is taken from the queue is being done. -/
theorem Interrupts.Inv.work (h : s.Inv pollOff) {id : EngineId}
    (hnew : ∀ id', ({ s with
        pending := Function.update s.pending id false
        running := Function.update s.running id true } : Interrupts).Due id' → s.dev.Present id')
    : ({ s with
        pending := Function.update s.pending id false
        running := Function.update s.running id true } : Interrupts).Inv pollOff := by
  refine h.frame rfl ⟨rfl, rfl, rfl⟩ ⟨rfl, rfl⟩ (fun hm => (h.legacy hm).1) (fun hm => (h.msix hm).1) ?_ hnew
  intro id' hd
  by_cases heq : id' = id
  . refine .inr (.inl ?_)
    rw [heq]
    exact Function.update_self _ _ _
  . rcases hd with hd | hd | hd
    . exact .inl ((Function.update_of_ne heq _ _).trans hd)
    . exact .inr (.inl ((Function.update_of_ne heq _ _).trans hd))
    . exact .inr (.inr hd)

/-- The engines whose interrupt is raised are there. -/
theorem Interrupts.Inv.present_of_raises (h : s.Inv pollOff) {e : InterruptEvent} {id : EngineId}
    (hraised : s.Raises id e)
    : s.dev.Present id := by
  cases e with
  | isr chIrq => exact ((mem_isrFired h.ready chIrq id).mp hraised).1
  | channelIrq id' => exact hraised.2
  | _ => exact hraised.elim

/-- A step keeps what is due. -/
theorem Interrupts.Inv.step (h : s.Inv pollOff) (env : ProbeEnv) {e : InterruptEvent} {s' : Interrupts}
    (hpoll : pollOff → ∀ irqSetup, e ≠ .online true irqSetup) (hstep : s.step env e = some s')
    : s'.Inv pollOff := by
  have hnew (id : EngineId) (hd : s'.Due id) : s.dev.Present id := by
    cases (Interrupts.step_effect h.ready hstep).due id hd with
    | inl hold => exact h.due id hold
    | inr hraised => exact h.present_of_raises hraised
  cases e with
  | isr chIrq =>
    simp only [Interrupts.step, Option.ite_none_right_eq_some, Option.some.injEq, Bool.not_eq_true',
      Option.isNone_iff_eq_none] at hstep
    obtain ⟨⟨_, hl, hisr⟩, rfl⟩ := hstep
    refine h.setIsr hl _ _ ?_ hnew
    intro id hd
    unfold Interrupts.IsrDue at hd
    rw [hisr] at hd
    contradiction
  | isrUser userIrq =>
    simp only [Interrupts.step] at hstep
    split at hstep
    . next chIrq hisr =>
      cases hstep
      refine h.setIsr (h.legacy_of_isr hisr) _ _ ?_ hnew
      intro id hd
      unfold Interrupts.IsrDue at hd ⊢
      rw [hisr] at hd
      exact mem_isrActs.mpr hd
    . contradiction
  | isrNext =>
    simp only [Interrupts.step] at hstep
    split at hstep
    . next chIrq hisr =>
      cases hstep
      exact h.isrDisable hisr
    . next a as hisr =>
      cases hstep
      cases a with
      | userIrqService user =>
        refine (h.setUserIrq (s.isrAct (.userIrqService user)).userIrq).setIsr (h.legacy_of_isr hisr) _ _ ?_
          hnew
        intro id hd
        unfold Interrupts.IsrDue at hd ⊢
        dsimp only at hd
        rw [hisr] at hd
        simpa using hd
      | scheduleWork id => exact h.isrSchedule hisr hnew
    . next hisr =>
      cases hstep
      refine h.setIsr (h.legacy_of_isr hisr) _ _ ?_ hnew
      intro id hd
      unfold Interrupts.IsrDue at hd
      rw [hisr] at hd
      contradiction
    . contradiction
  | channelIrq id =>
    simp only [Interrupts.step, Option.ite_none_right_eq_some, Option.some.injEq] at hstep
    obtain ⟨⟨_, hm, hlt, _⟩, rfl⟩ := hstep
    refine h.channelIrq hm ?_
    unfold ProbedDev.Present ProbedDev.channelMax
    exact hlt
  | channelIrqDone id =>
    simp only [Interrupts.step, Option.ite_none_right_eq_some, Option.some.injEq] at hstep
    obtain ⟨hmem, rfl⟩ := hstep
    exact h.channelIrqDone hmem hnew
  | userIrq user =>
    simp only [Interrupts.step, Option.ite_none_right_eq_some, Option.some.injEq] at hstep
    obtain ⟨_, rfl⟩ := hstep
    exact h.setUserIrq _
  | work id =>
    simp only [Interrupts.step, Option.ite_none_right_eq_some, Option.some.injEq] at hstep
    obtain ⟨_, rfl⟩ := hstep
    exact h.work hnew
  | workDone id =>
    simp only [Interrupts.step, Option.ite_none_right_eq_some, Option.some.injEq] at hstep
    obtain ⟨hrunning, rfl⟩ := hstep
    exact h.workDone hrunning
  | userIsrRegister mask handler =>
    cases hstep
    exact h.setUserIrq _
  | userIsrEnable mask =>
    cases hstep
    exact h.userIsrEnable mask
  | userIsrDisable mask =>
    cases hstep
    exact h.userIsrDisable mask
  | offline =>
    cases hstep
    exact h.offline
  | irqTeardown =>
    simp only [Interrupts.step, Option.ite_none_right_eq_some, Option.some.injEq] at hstep
    obtain ⟨_, rfl⟩ := hstep
    exact h.frame rfl ⟨rfl, rfl, rfl⟩ ⟨rfl, rfl⟩ (fun hm => (h.legacy hm).1) (fun hm => (h.msix hm).1)
      (fun _ hd => hd) (fun id hd => h.due id hd)
  | online pollMode irqSetup =>
    cases hstep
    refine h.online { env with pollMode := pollMode } ?_ irqSetup
    intro hp
    cases pollMode with
    | true => exact absurd rfl (hpoll hp irqSetup)
    | false => rfl

theorem Interrupts.opened_inv (env : ProbeEnv) {d : ProbedDev} (hpoll : pollOff → env.pollMode = false)
    (hd : DevReady d) (hmask : ∀ id, d.Present id → d.Unmasked id) (userMax : Nat) (msixEnabled : Bool)
    : (Interrupts.opened env d userMax msixEnabled).Inv pollOff := by
  have hones (hp : pollOff)
      : (Interrupts.opened env d userMax msixEnabled).channelIntEnable = BitVec.allOnes 32 := by
    unfold Interrupts.opened
    rw [hpoll hp]
    rfl
  refine ⟨hd, ?_, fun _ => ⟨rfl, hmask⟩, ?_, BitVec.or_self, ?_⟩
  . rintro id (hd | hd | hd | hd)
    . contradiction
    . contradiction
    . exact hd.elim
    . contradiction
  . intro _
    exact ⟨rfl, fun id hid => .inl (hmask id hid), fun hp _ => hones hp⟩
  . intro hp _
    refine ⟨?_, rfl⟩
    intro id hid
    refine .inl ⟨?_, hmask id hid⟩
    rw [hones hp, BitVec.and_allOnes]

/-- A device that was probed and opened, as its interrupts see it. -/
def openedDev (env : ProbeEnv) (h2cMax c2hMax userMax : Nat) (msixEnabled : Bool) : Interrupts :=
  .opened env (probedDev env h2cMax c2hMax) userMax msixEnabled

theorem openedDev_inv (env : ProbeEnv) (h2cMax c2hMax userMax : Nat) (msixEnabled : Bool)
    (hh : h2cMax ≤ xdmaChannelNumMax) (hc : c2hMax ≤ xdmaChannelNumMax)
    (hpoll : pollOff → env.pollMode = false)
    : (openedDev env h2cMax c2hMax userMax msixEnabled).Inv pollOff := by
  have hready := probedDev_ready env hh hc
  refine Interrupts.opened_inv env hpoll hready ?_ userMax msixEnabled
  intro id hid
  unfold ProbedDev.Unmasked
  rw [hready.regs id hid]
  exact probedDev_enabled env h2cMax c2hMax hh hc hid

/-- A device with two H2C engines and one C2H engine. -/
def threeEngines : ProbeEnv := { twoEngines with pollMode := false }

/-- The second H2C engine and the C2H engine fire, and their work is done. -/
def twoFire : List InterruptEvent :=
  [.isr 6, .isrNext, .isrUser 0, .isrNext, .isrNext, .work ⟨.toDevice, 1⟩, .isrNext,
    .workDone ⟨.toDevice, 1⟩, .work ⟨.fromDevice, 0⟩, .offline, .online false true, .workDone ⟨.fromDevice, 0⟩]

end Armed

section Isr

variable {s : Interrupts}

/--
A run of `xdma_isr()` that nothing comes in between: the interrupts that were requested are disabled, each user
interrupt among them that the device has is serviced once, the work of each engine among them is pending, and
nothing else changes.
-/
structure IsrServed (s s' : Interrupts) (chIrq userIrq : BitVec 32) : Prop where
  eq : s' = { s with
    channelIntEnable := s.channelIntEnable &&& ~~~chIrq
    userIrq := s'.userIrq
    pending := s'.pending
    irqCount := s.irqCount + 1 }
  users : ∀ user, s'.userIrq user =
    if user < s.userMax ∧ userIrq.getLsbD user = true then
      (userIrqService (s.userIrq user)).1
    else
      s.userIrq user
  engines : ∀ id, s'.pending id = true ↔
    s.pending id = true ∨ s.dev.Present id ∧ (s.dev.engine id).irqBitmask &&& chIrq ≠ 0

/-- What `xdma_isr()` does in any state that the device can be in. -/
theorem xdmaIsr_spec (env : ProbeEnv) (h2cMax c2hMax userMax : Nat) (msixEnabled : Bool)
    (hh : h2cMax ≤ xdmaChannelNumMax) (hc : c2hMax ≤ xdmaChannelNumMax)
    {es : List InterruptEvent}
    (hrun : run (Interrupts.step env) (openedDev env h2cMax c2hMax userMax msixEnabled) es = some s)
    (hhandlers : s.handlers = true) (hl : s.msixEnabled = false) (hisr : s.isr = none)
    (chIrq userIrq : BitVec 32)
    : ∃ n s', run (Interrupts.step env) s
          ([.isr chIrq, .isrNext, .isrUser userIrq] ++ List.replicate n .isrNext) = some s'
        ∧ IsrServed s s' chIrq userIrq := by
  have hd := (probedDev_ready env hh hc).same (Interrupts.run_same (probedDev_ready env hh hc) hrun)
  have hentry : run (Interrupts.step env) s [.isr chIrq, .isrNext, .isrUser userIrq]
      = some { s.channelInterruptsDisable chIrq with isr := some (.acts (s.isrActs chIrq userIrq)) } := by
    have hfirst : s.step env (.isr chIrq) = some { s with isr := some (.disable chIrq) } :=
      if_pos ⟨hhandlers, by rw [hl]; rfl, by rw [hisr]; rfl⟩
    have hsecond : ({ s with isr := some (.disable chIrq) } : Interrupts).step env .isrNext
        = some { s.channelInterruptsDisable chIrq with isr := some (.readUser chIrq) } := by
      simp only [Interrupts.step]
      rw [channelInterruptsDisable_zero]
      rfl
    unfold run
    rw [hfirst, Option.bind_some]
    unfold run
    rw [hsecond]
    rfl
  refine ⟨(s.isrActs chIrq userIrq).length + 1, { (s.isrActs chIrq userIrq).foldl Interrupts.isrAct
    (s.channelInterruptsDisable chIrq) with isr := none, irqCount := s.irqCount + 1 }, ?_, ?_⟩
  . rw [run_append, hentry, Option.bind_some, run_isrActs env _ rfl, foldl_setIsr]
    rfl
  . have hfold := foldl_isrActs (s.channelInterruptsDisable chIrq) chIrq userIrq
    have hacts : (s.channelInterruptsDisable chIrq).isrActs chIrq userIrq = s.isrActs chIrq userIrq := rfl
    rw [hacts] at hfold
    rw [hfold]
    refine ⟨?_, fun user => rfl, ?_⟩
    . rw [← hisr]
      rfl
    . intro id
      rw [← mem_isrFired hd]
      show (s.pending id || decide (id ∈ isrFired s.dev chIrq)) = true ↔ _
      simp

theorem xdmaIsr_spec_two
    : ∃ n s', run (Interrupts.step threeEngines) (openedDev threeEngines 4 4 16 false)
          ([.isr 6, .isrNext, .isrUser 1] ++ List.replicate n .isrNext) = some s'
        ∧ IsrServed (openedDev threeEngines 4 4 16 false) s' 6 1 :=
  @xdmaIsr_spec (openedDev threeEngines 4 4 16 false) threeEngines 4 4 16 false (by decide) (by decide) []
    rfl rfl rfl rfl 6 1

end Isr

section Offline

/--
The interrupts are raised by hardware that raises none which is disabled, and the device does not go online.
-/
def Interrupts.Raised (s : Interrupts) : InterruptEvent → Prop
  | .isr chIrq => chIrq &&& ~~~s.channelIntEnable = 0
  | .channelIrq id => (s.dev.engine id).irqBitmask &&& s.channelIntEnable ≠ 0
  | .online _ _ => False
  | _ => True

/-- Of the work of the engines and their interrupts, only what was due at `s₀` is there. -/
structure Interrupts.Fading (s₀ s : Interrupts) : Prop where
  same : SameEngines s₀.dev s.dev
  offline : s.offline = true
  due : ∀ id, s.Due id → s₀.Due id
  enabled : ∀ id, s₀.dev.Present id → (s₀.dev.engine id).irqBitmask &&& s.channelIntEnable ≠ 0 → s₀.Due id

theorem and_ne_zero_iff {a b : BitVec 32}
    : a &&& b ≠ 0 ↔ ∃ i, a.getLsbD i = true ∧ b.getLsbD i = true := by
  constructor
  . intro hne
    by_contra hnone
    apply hne
    apply BitVec.eq_of_getLsbD_eq
    intro i _
    rw [not_exists] at hnone
    have hi := hnone i
    rw [← Bool.and_eq_true, Bool.not_eq_true] at hi
    rw [BitVec.getLsbD_and, hi]
    exact BitVec.getLsbD_zero.symm
  . rintro ⟨i, ha, hb⟩ hzero
    have hi := congrArg (fun x => x.getLsbD i) hzero
    simp [ha, hb] at hi

variable {s₀ s : Interrupts}

theorem Interrupts.Fading.step {env : ProbeEnv} (h₀ : s₀.Inv False) (h : s₀.Fading s) {e : InterruptEvent}
    (hraised : s.Raised e) {s' : Interrupts} (hstep : s.step env e = some s')
    : s₀.Fading s' := by
  have hd := h₀.ready.same h.same
  have hoff : e.isOnline = false := by
    cases e with
    | online => exact hraised.elim
    | _ => rfl
  obtain ⟨hsame, hdue, hoffline, hchan⟩ := Interrupts.step_effect hd hstep
  refine ⟨h.same.trans hsame, hoffline hoff h.offline, ?_, ?_⟩
  . intro id hid
    cases hdue id hid with
    | inl hold => exact h.due id hold
    | inr hnew =>
      cases e with
      | isr chIrq =>
        obtain ⟨hp, hfired⟩ := (mem_isrFired hd chIrq id).mp hnew
        refine h.enabled id ((h.same.present id).mp hp) ?_
        rw [h.same.irqBitmask] at hfired
        rw [and_ne_zero_iff] at hfired ⊢
        obtain ⟨i, hbit, hreq⟩ := hfired
        refine ⟨i, hbit, ?_⟩
        have hi := congrArg (fun x => x.getLsbD i) hraised
        have hlt := BitVec.lt_of_getLsbD hreq
        simpa [hreq, hlt] using hi
      | channelIrq id' =>
        obtain ⟨rfl, hp⟩ := hnew
        refine h.enabled id ((h.same.present id).mp hp) ?_
        rw [← h.same.irqBitmask]
        exact hraised
      | _ => exact hnew.elim
  . intro id hid hbit
    rw [and_ne_zero_iff] at hbit
    obtain ⟨i, hown, hbit⟩ := hbit
    cases hchan hoff i hbit with
    | inl hold => exact h.enabled id hid (and_ne_zero_iff.mpr ⟨i, hown, hold⟩)
    | inr hdone =>
      -- it is this engine whose work is done
      obtain ⟨id', hrunning, hown'⟩ := hdone
      have hdue := h.due id' (.inr (.inl hrunning))
      rw [h.same.irqBitmask] at hown'
      by_cases heq : id = id'
      . rw [heq]
        exact hdue
      . have hzero := h₀.ready.bits id id' hid (h₀.due id' hdue) heq
        exact absurd hzero (and_ne_zero_iff.mpr ⟨i, hown, hown'⟩)

theorem openedDev_run_inv (env : ProbeEnv) {h2cMax c2hMax userMax : Nat} {msixEnabled : Bool}
    (hh : h2cMax ≤ xdmaChannelNumMax) (hc : c2hMax ≤ xdmaChannelNumMax) {es : List InterruptEvent}
    (hrun : run (Interrupts.step env) (openedDev env h2cMax c2hMax userMax msixEnabled) es = some s)
    : s.Inv False :=
  (@statesHold_of_inductive _ _ _ (fun s => s.Inv False) (fun s => s.Inv False) (fun _ h => h)
    (fun _ _ _ h hstep => h.step env (fun hfalse => hfalse.elim) hstep) _ _
    (openedDev_inv env h2cMax c2hMax userMax msixEnabled hh hc (fun hfalse => hfalse.elim))).of_run hrun

/--
While a device is offline, the interrupt of an engine comes back only if its work was due when it went
offline, and no other work is done.
-/
theorem offline_fades (env : ProbeEnv) (h2cMax c2hMax userMax : Nat) (msixEnabled : Bool)
    (hh : h2cMax ≤ xdmaChannelNumMax) (hc : c2hMax ≤ xdmaChannelNumMax)
    {es : List InterruptEvent}
    (hrun : run (Interrupts.step env) (openedDev env h2cMax c2hMax userMax msixEnabled) es = some s)
    (es' : List InterruptEvent)
    (hraised : StepsHold (Interrupts.step env) (fun s e _ => s.Raised e) s.deviceOffline es')
    : StatesHold (Interrupts.step env) (s.deviceOffline.Fading) s.deviceOffline es' := by
  have h₀ : s.deviceOffline.Inv False := (openedDev_run_inv env hh hc hrun).offline
  refine statesHold_of_invariant (fun _ h => h) (fun _ _ _ h hraised hstep => h.step h₀ hraised hstep) ?_ hraised
  refine ⟨SameEngines.refl _, rfl, fun _ hid => hid, ?_⟩
  intro id _ hbit
  exfalso
  apply hbit
  show _ &&& (s.channelIntEnable &&& ~~~BitVec.allOnes 32) = 0
  rw [BitVec.not_allOnes, BitVec.and_zero, BitVec.and_zero]
  rfl

/-- The C2H engine fires. -/
def c2hFires : List InterruptEvent := [.isr 4, .isrNext, .isrUser 0, .isrNext, .isrNext]

/-- Its work is done after the device went offline. -/
def lateWork : List InterruptEvent := [.irqTeardown, .work ⟨.fromDevice, 0⟩, .workDone ⟨.fromDevice, 0⟩]

theorem c2hFires_run
    : (run (Interrupts.step threeEngines) (openedDev threeEngines 4 4 16 false) c2hFires).isSome = true := by
  decide +kernel

/-- The device while its C2H engine has work due. -/
def firedDev : Interrupts := Option.get _ c2hFires_run

/-- The interrupt of the engine is enabled at the end, while nobody handles it. -/
theorem offline_fades_late
    : StatesHold (Interrupts.step threeEngines) (firedDev.deviceOffline.Fading) firedDev.deviceOffline lateWork
      ∧ (run (Interrupts.step threeEngines) firedDev.deviceOffline lateWork).map
          (fun s => (s.handlers, s.channelIntEnable)) = some (false, 4) :=
  ⟨@offline_fades firedDev threeEngines 4 4 16 false (by decide) (by decide) c2hFires
    (Option.some_get c2hFires_run).symm lateWork
    (fun _ _ => ⟨trivial, fun _ _ => ⟨trivial, fun _ _ => ⟨trivial, trivial⟩⟩⟩),
    by decide +kernel⟩

end Offline

end Xdma
