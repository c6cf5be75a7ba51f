import ReferenceProjects.Ethernet.Lemmas.System

/-!
This module contains what the main state machine says about the PCS: that it is locked, and that it is
configured in the mode that the port is then enabled for.
-/

namespace Ethernet

/-- The last value that an MDIO write gave to the control register of the PCS. -/
def Phy.controlValue (p : Phy) : Option (BitVec 16) :=
  (p.writes.find? (fun w => w.device = devAddr ∧ w.address = some (devAddr, 0))).map MdioWrite.data

/--
What is claimed of the configuration is true: the flags and `enable_gen`, when they are raised, go with
the value in the control register.
-/
structure ConfigSound (s : Sys) (i : Inputs) (s' : Sys) : Prop where
  default : s.regs.main.pcsDefaultConfDone = false → s'.regs.main.pcsDefaultConfDone = true →
    s'.mon.phy.controlValue = some 0x2000
  loopback : s.regs.main.pcsLoopbackConfDone = false → s'.regs.main.pcsLoopbackConfDone = true →
    s'.mon.phy.controlValue = some 0x4000
  enable : s.regs.main.enableGen = false → s'.regs.main.enableGen = true →
    s.regs.main.axiState = .mdioRd1 ∧ s'.mon.phy.controlValue = some 0x4000
      ∨ s.regs.main.axiState = .configDone ∧ s'.mon.phy.controlValue = some 0x2000

/-- `MDIO_WR` finds the mode by which the data was chosen that was written. -/
def KeepsMode (s : Sys) (_ : Inputs) : Prop :=
  s.regs.canStep = true → s.regs.main.axiState = .mdioWr → s.regs.pcsLoopbackReg = s.mon.sampled

/-- `block_lock` is raised after the status register was read, and said so. -/
structure LockSound (s : Sys) (i : Inputs) (s' : Sys) : Prop where
  raise : s.regs.main.blockLock = false → s'.regs.main.blockLock = true →
    s.regs.main.axiState = .mdioCheckData ∧ s'.regs.main.axiState = .configDone
  status : s.regs.main.axiState = .mdioCheckData → s'.regs.main.axiState = .configDone →
    s.mon.phy.address = some (devAddr, 0x20)
      ∧ ∃ rdata, s.mon.phy.lastRead = some rdata ∧ rdata.setWidth 16 = (0x1005 : BitVec 16)
        ∧ rdata.getLsbD 16 = true

/-- The flags go with what was written last. -/
structure FlagsInv (r : MainRegs) (p : Phy) : Prop where
  default : r.pcsDefaultConfDone = true → p.lastWrite = some 0x2000
  loopback : r.pcsLoopbackConfDone = true → p.lastWrite = some 0x4000

section Phy

variable {p q : Phy}

theorem Phy.WritesAtControl.controlValue (h : p.WritesAtControl)
    : p.controlValue = p.lastWrite := by
  rw [Phy.controlValue, Phy.lastWrite]
  cases hwrites : p.writes with
  | nil => rfl
  | cons w ws =>
    have hw := h w (by simp [hwrites])
    simp [hw]

theorem Phy.see_writes (p : Phy) (a : BusAccess)
    : p.writes ⊆ (p.see a).writes := by
  unfold Phy.see
  split
  . split
    . simp
    . split
      . unfold Phy.initiate
        dsimp only
        split
        . simp
        . split
          . simp
          . simp
      . simp
  . split <;> simp

theorem Phy.expect_writes (p : Phy) (start : Start)
    : p.writes ⊆ (p.expect start).writes := by
  unfold Phy.expect
  split
  . simp
  . apply Phy.see_writes
  . simp
  . exact List.Subset.trans (Phy.see_writes _ _) (Phy.see_writes _ _)

theorem Op.Begun.writes {o : Op} (h : o.Begun) (rest : List BusAccess)
    : (Phy.observe (o.accesses ++ rest)).writes ⊆ ((Phy.observe rest).expect o.start).writes := by
  rcases h with hcomplete | hnil | h
  . rw [(hcomplete.observe rest).writes]
    simp
  . rw [hnil]
    apply Phy.expect_writes
  . split at h
    . next op data addr hstart =>
      rcases h with htx | hpolled
      . rw [htx, hstart]
        apply List.Subset.trans
        . show (Phy.see (Phy.observe rest) _).writes ⊆ (Phy.observe rest).writes
          simp
        . apply Phy.expect_writes
      . rw [(hpolled.observe rest).writes, hstart]
        simp
    . contradiction

end Phy

section Flags

variable {s : Regs} {m : Monitor} {i : Inputs}

theorem FlagsInv.congr {r r' : MainRegs} {p q : Phy} (h : FlagsInv r p)
    (hdefault : r'.pcsDefaultConfDone = true → r.pcsDefaultConfDone = true)
    (hloopback : r'.pcsLoopbackConfDone = true → r.pcsLoopbackConfDone = true)
    (hwrites : q.writes = p.writes)
    : FlagsInv r' q := by
  constructor
  . intro hd
    rw [Phy.lastWrite, hwrites]
    apply h.default (hdefault hd)
  . intro hl
    rw [Phy.lastWrite, hwrites]
    apply h.loopback (hloopback hl)

theorem FlagsInv.of_false {r : MainRegs} (hdefault : r.pcsDefaultConfDone = false)
    (hloopback : r.pcsLoopbackConfDone = false) (p : Phy)
    : FlagsInv r p := by
  constructor
  . intro hd
    rw [hdefault] at hd
    contradiction
  . intro hl
    rw [hloopback] at hl
    contradiction

theorem mainCase_confDone (hne : s.main.axiState ≠ .mdioWr)
    : ((mainCase s i).pcsDefaultConfDone = true → s.main.pcsDefaultConfDone = true)
        ∧ ((mainCase s i).pcsLoopbackConfDone = true → s.main.pcsLoopbackConfDone = true) := by
  cases hstate : s.main.axiState
  case mdioWr => contradiction
  all_goals
    simp only [mainCase, hstate]
    repeat' split
  all_goals
    constructor
    . simp [MainRegs.startMdioOp, MainRegs.startWrite]
    . simp [MainRegs.startMdioOp, MainRegs.startWrite]

theorem mainCase_enableGen (henable : s.main.enableGen = false) (h : (mainCase s i).enableGen = true)
    : s.main.axiState = .mdioRd1 ∧ s.main.pcsLoopbackConfDone = true
        ∨ s.main.axiState = .configDone := by
  cases hstate : s.main.axiState
  case configDone => exact .inr rfl
  all_goals
    simp only [mainCase, hstate] at h
    repeat' split at h
  case mdioRd1 hloop =>
    simp only [Bool.and_eq_true] at hloop
    exact .inl ⟨rfl, hloop.1⟩
  all_goals
    have htrue : s.main.enableGen = true := h
    rw [henable] at htrue
    contradiction

variable {start : Start} {p : Phy} {sampled : Bool}

theorem mainCase_mdioWr (hinv : MainInv s.main start p sampled) (hstate : s.main.axiState = .mdioWr)
    (hmdio : s.main.startMdio = false) (hready : start ≠ .reset → s.mdioReady = start.isMdio)
    : (mainCase s i).pcsDefaultConfDone = !s.pcsLoopbackReg
        ∧ (mainCase s i).pcsLoopbackConfDone = s.pcsLoopbackReg
        ∧ (mainCase s i).enableGen = s.main.enableGen
        ∧ (p.next (mainCase s i).started).lastWrite = p.lastWrite := by
  have h := hinv.state
  simp only [StateInv, hstate] at h
  obtain ⟨hconf, hdata, hlast⟩ := h
  have hready' := hconf.mdio.ready hready
  have hwrite (addr : BitVec 17)
      : (p.expect (.mdio mdioOpWr s.main.axiWrData addr)).lastWrite = p.lastWrite := by
    rw [hlast]
    simp [Phy.lastWrite, hdata]
  cases hloop : s.pcsLoopbackReg with
  | true =>
    simp only [mainCase, hstate, hready', hmdio, hloop, Bool.not_false, Bool.and_self, ↓reduceIte]
    exact ⟨hconf.default, trivial, rfl, hwrite s.main.addr⟩
  | false =>
    simp only [mainCase, hstate, hready', hmdio, hloop, Bool.not_false, Bool.and_self, ↓reduceIte,
      Bool.false_eq_true]
    exact ⟨trivial, hconf.loopback, rfl, hwrite s.main.addr⟩

theorem writes_next (hinv : MainInv s.main start p sampled) (haccess : s.main.startAccess = false)
    (hmdio : s.main.startMdio = false)
    (hstate : s.main.axiState = .mdioRd1 ∨ s.main.axiState = .mdioAddr ∨ s.main.axiState = .mdioRd
      ∨ s.main.axiState = .mdioPollCheck ∨ s.main.axiState = .mdioCheckData
      ∨ s.main.axiState = .configDone)
    : (p.next (mainCase s i).started).writes = p.writes := by
  have h := hinv.state
  have hrd : mdioOpRd ≠ mdioOpWr := by decide
  have haddr : mdioOpAddr ≠ mdioOpWr := by decide
  rcases hstate with hstate | hstate | hstate | hstate | hstate | hstate
  . simp only [mainCase, hstate]
    repeat' split
    all_goals simp [MainRegs.started, MainRegs.startMdioOp, Phy.next, hrd]
  . simp only [mainCase, hstate]
    split
    all_goals simp [MainRegs.started, MainRegs.startMdioOp, Phy.next, haddr]
  . simp only [mainCase, hstate]
    split
    all_goals simp [MainRegs.started, MainRegs.startMdioOp, Phy.next, hrd]
  . simp only [StateInv, hstate] at h
    simp only [mainCase, hstate]
    split
    all_goals simp [MainRegs.started, MainRegs.startMdioOp, Phy.next, h.2.2.1, hrd]
  . simp only [StateInv, hstate] at h
    simp only [mainCase, hstate]
    repeat' split
    all_goals simp [MainRegs.started, MainRegs.startMdioOp, Phy.next, h.2.2.1, hrd]
  . simp only [StateInv, hstate] at h
    simp only [mainCase, hstate]
    split
    . simp [MainRegs.started, hmdio, h.2.2.2.1, Phy.next, Phy.expect]
    . simp [MainRegs.started, hmdio, haccess, Phy.next]

theorem FlagsInv.step (hflags : FlagsInv s.main p) (hinv : MainInv s.main start p sampled)
    (haccess : s.main.startAccess = false) (hmdio : s.main.startMdio = false)
    (hready : start ≠ .reset → s.mdioReady = start.isMdio)
    (hkeep : s.main.axiState = .mdioWr → s.pcsLoopbackReg = sampled)
    : FlagsInv (mainCase s i) (p.next (mainCase s i).started) := by
  have h := hinv.state
  by_cases hwr : s.main.axiState = .mdioWr
  . obtain ⟨hdefault, hloopback, _, hlast⟩ := mainCase_mdioWr (i := i) hinv hwr hmdio hready
    simp only [StateInv, hwr] at h
    rw [h.2.2, ← hkeep hwr] at hlast
    constructor
    . intro hd
      rw [hdefault, Bool.not_eq_true'] at hd
      rw [hlast, hd]
      rfl
    . intro hl
      rw [hloopback] at hl
      rw [hlast, hl]
      rfl
  . have hdown (hd : s.main.pcsDefaultConfDone = false) (hl : s.main.pcsLoopbackConfDone = false)
        : FlagsInv (mainCase s i) (p.next (mainCase s i).started) := by
      apply FlagsInv.of_false
      . rw [Bool.eq_false_iff] at hd ⊢
        exact fun h => hd ((mainCase_confDone hwr).1 h)
      . rw [Bool.eq_false_iff] at hl ⊢
        exact fun h => hl ((mainCase_confDone hwr).2 h)
    have hkept (hstate : s.main.axiState = .mdioRd1 ∨ s.main.axiState = .mdioAddr
          ∨ s.main.axiState = .mdioRd ∨ s.main.axiState = .mdioPollCheck
          ∨ s.main.axiState = .mdioCheckData ∨ s.main.axiState = .configDone)
        : FlagsInv (mainCase s i) (p.next (mainCase s i).started) :=
      hflags.congr (mainCase_confDone hwr).1 (mainCase_confDone hwr).2
        (writes_next hinv haccess hmdio hstate)
    cases hstate : s.main.axiState with
    | startup =>
      simp only [StateInv, hstate] at h
      apply hdown h.default h.loopback
    | resetMacRx =>
      simp only [StateInv, hstate] at h
      apply hdown h.1.default h.1.loopback
    | resetMacTx =>
      simp only [StateInv, hstate] at h
      apply hdown h.1.default h.1.loopback
    | mdioAddr1 =>
      simp only [StateInv, hstate] at h
      rcases h with h | h
      . apply hdown h.1.default h.1.loopback
      . apply hdown h.default h.loopback
    | mdioReadPcsReset =>
      simp only [StateInv, hstate] at h
      apply hdown h.default h.loopback
    | mdioReadPcsResetPoll =>
      simp only [StateInv, hstate] at h
      apply hdown h.default h.loopback
    | mdioReadPcsResetRead =>
      simp only [StateInv, hstate] at h
      apply hdown h.default h.loopback
    | mdioResetCheck =>
      simp only [StateInv, hstate] at h
      apply hdown h.1.default h.1.loopback
    | mdioAddr2 =>
      simp only [StateInv, hstate] at h
      apply hdown h.default h.loopback
    | mdioWr => contradiction
    | mdioRd1 => apply hkept (by simp [hstate])
    | mdioAddr => apply hkept (by simp [hstate])
    | mdioRd => apply hkept (by simp [hstate])
    | mdioPollCheck => apply hkept (by simp [hstate])
    | mdioCheckData => apply hkept (by simp [hstate])
    | configDone => apply hkept (by simp [hstate])
    | unused =>
      simp only [StateInv, hstate] at h

end Flags

section Ready

variable {s : Regs} {m : Monitor} {i : Inputs}

theorem Ready.clock_phy (h : Ready s m) (hresetN : i.resetN = true)
    : (m.clock s i).phy = m.phy := by
  rw [Monitor.phy, Monitor.phy, Monitor.trace, Monitor.trace]
  cases hstarted : (mainCase s i).started with
  | none =>
    obtain ⟨hop, hpast⟩ := h.clock_op_of_none hresetN hstarted
    rw [hop, hpast]
  | some start =>
    obtain ⟨hop, hpast⟩ := h.clock_op_of_some hresetN hstarted
    rw [hop, hpast]
    rfl

theorem Ready.clock_settled (h : Ready s m) (hresetN : i.resetN = true)
    : (m.clock s i).settled.writes = (m.phy.next (mainCase s i).started).writes := by
  cases hstarted : (mainCase s i).started with
  | none =>
    obtain ⟨hop, hpast⟩ := h.clock_op_of_none hresetN hstarted
    rw [Monitor.settled, hop, hpast]
    exact (Monitor.phy_sameButRead h.complete).writes.symm
  | some start =>
    obtain ⟨hop, hpast⟩ := h.clock_op_of_some hresetN hstarted
    rw [Monitor.settled, hop, hpast]
    rfl

theorem Ready.controlValue (h : Ready s m) (hmain : MainInv s.main m.op.start m.settled m.sampled)
    : m.phy.controlValue = m.settled.lastWrite := by
  have hphy := Monitor.phy_sameButRead h.complete
  have hwrites : m.phy.WritesAtControl := by
    rw [Phy.WritesAtControl, hphy.writes]
    apply hmain.writes
  rw [hwrites.controlValue, Phy.lastWrite, Phy.lastWrite, hphy.writes]

theorem Ready.phyInv (h : Ready s m) (hmain : MainInv s.main m.op.start m.settled m.sampled)
    : MainInv s.main m.op.start m.phy m.sampled := by
  have hphy := Monitor.phy_sameButRead h.complete
  exact hmain.congr rfl hphy.address hphy.writes

end Ready

/-- The invariant of a run in which the flags are true of the PCS. -/
structure Sys.FlagsTrue (s : Sys) : Prop where
  inv : s.Inv
  flags : FlagsInv s.regs.main s.mon.settled

section Sys

variable {s s' : Sys} {i : Inputs}

theorem Sys.Initial.flagsTrue (h : s.Initial)
    : s.FlagsTrue := by
  refine ⟨h.inv, ?_⟩
  rw [h.1.regs.1]
  apply FlagsInv.of_false rfl rfl

theorem configSound_of_stall (hresetN : i.resetN = true) (hstep : s.regs.canStep = false)
    : ConfigSound s i ⟨clock s.regs i, s.mon.clock s.regs i⟩ := by
  have hmain := clock_main_of_stall hresetN hstep
  constructor
  . intro hbefore hafter
    rw [hmain, hbefore] at hafter
    contradiction
  . intro hbefore hafter
    rw [hmain, hbefore] at hafter
    contradiction
  . intro hbefore hafter
    rw [hmain, hbefore] at hafter
    contradiction

theorem Ready.flags {s : Regs} {m : Monitor} (hready : Ready s m)
    (hmain : MainInv s.main m.op.start m.settled m.sampled) (hflags : FlagsInv s.main m.settled)
    (hkeep : s.main.axiState = .mdioWr → s.pcsLoopbackReg = m.sampled)
    : FlagsInv (mainCase s i) (m.phy.next (mainCase s i).started) := by
  have hphy := Monitor.phy_sameButRead hready.complete
  have hflags' : FlagsInv s.main m.phy := hflags.congr id id hphy.writes
  exact hflags'.step (hready.phyInv hmain) hready.startAccess hready.startMdio hready.ready hkeep

theorem Ready.configSound (hready : Ready s.regs s.mon) (hresetN : i.resetN = true)
    (h : s.FlagsTrue) (hkeep : s.regs.main.axiState = .mdioWr → s.regs.pcsLoopbackReg = s.mon.sampled)
    : ConfigSound s i ⟨clock s.regs i, s.mon.clock s.regs i⟩ := by
  have hmain := hready.clock_main hresetN
  have hphy := hready.clock_phy hresetN
  have hvalue := hready.controlValue h.inv.main
  have hflags' := hready.flags (i := i) h.inv.main h.flags hkeep
  have hlast : s.regs.main.axiState = .mdioWr →
      s.mon.settled.lastWrite = (s.mon.phy.next (mainCase s.regs i).started).lastWrite := by
    intro hwr
    have hwrites := (Monitor.phy_sameButRead hready.complete).writes
    rw [(mainCase_mdioWr (hready.phyInv h.inv.main) hwr hready.startMdio hready.ready).2.2.2,
      Phy.lastWrite, Phy.lastWrite, hwrites]
  constructor
  . intro hbefore hafter
    rw [hmain] at hafter
    rw [hphy, hvalue, hlast]
    . apply hflags'.default hafter
    . by_contra hne
      rw [(mainCase_confDone hne).1 hafter] at hbefore
      contradiction
  . intro hbefore hafter
    rw [hmain] at hafter
    rw [hphy, hvalue, hlast]
    . apply hflags'.loopback hafter
    . by_contra hne
      rw [(mainCase_confDone hne).2 hafter] at hbefore
      contradiction
  . intro hbefore hafter
    rw [hmain] at hafter
    rw [hphy, hvalue]
    rcases mainCase_enableGen hbefore hafter with ⟨hstate, hloop⟩ | hstate
    . exact .inl ⟨hstate, h.flags.loopback hloop⟩
    . have hinv := h.inv.main.state
      simp only [StateInv, hstate] at hinv
      exact .inr ⟨hstate, h.flags.default hinv.2.2.2.2.1⟩

theorem Sys.FlagsTrue.step (h : s.FlagsTrue) (hkeep : KeepsMode s i) (hstep : s.step i = some s')
    : s'.FlagsTrue ∧ ConfigSound s i s' := by
  have hinv := h.inv.step hstep
  obtain ⟨hresetN, rfl⟩ := Sys.step_eq hstep
  cases hcan : s.regs.canStep with
  | true =>
    have hready := h.inv.op.ready_of_canStep hcan
    refine ⟨⟨hinv, ?_⟩, hready.configSound hresetN h (hkeep hcan)⟩
    have hflags' := hready.flags (i := i) h.inv.main h.flags (hkeep hcan)
    rw [hready.clock_main hresetN]
    exact hflags'.congr id id (hready.clock_settled hresetN)
  | false =>
    refine ⟨⟨hinv, ?_⟩, configSound_of_stall hresetN hcan⟩
    rw [clock_main_of_stall hresetN hcan, Monitor.settled, clock_op_of_stall hresetN hcan,
      clock_past_of_stall hresetN hcan]
    exact h.flags.congr id id rfl

theorem Sys.Inv.keepsMode (h : s.Inv) (hstep : s.step i = some s') (hsound : ConfigSound s i s')
    : KeepsMode s i := by
  obtain ⟨hresetN, rfl⟩ := Sys.step_eq hstep
  intro hcan hwr
  have hready := h.op.ready_of_canStep hcan
  have hstate := h.main.state
  simp only [StateInv, hwr] at hstate
  obtain ⟨hconf, _, hlast⟩ := hstate
  have hflags := mainCase_mdioWr (i := i) (hready.phyInv h.main) hwr hready.startMdio hready.ready
  have hmain := hready.clock_main hresetN
  have hvalue := hready.controlValue h.main
  have hphy := hready.clock_phy hresetN
  rw [hlast] at hvalue
  cases hloop : s.regs.pcsLoopbackReg with
  | true =>
    have h4 := hsound.loopback hconf.loopback (by rw [hmain, hflags.2.1, hloop])
    rw [hphy, hvalue] at h4
    cases hs : s.mon.sampled with
    | true => rfl
    | false =>
      rw [hs] at h4
      contradiction
  | false =>
    have h2 := hsound.default hconf.default (by rw [hmain, hflags.1, hloop]; rfl)
    rw [hphy, hvalue] at h2
    cases hs : s.mon.sampled with
    | true =>
      rw [hs] at h2
      contradiction
    | false => rfl

end Sys

/--
In a run after a reset the flags and `enable_gen` are true of the PCS exactly if, whenever `MDIO_WR`
takes a step, it finds the mode by which the data was chosen that was written.
-/
theorem configSound_iff (s : Sys) (es : List Inputs) (hinit : s.Initial)
    : Transition.StepsHold Sys.step ConfigSound s es
        ↔ Transition.StepsHold Sys.step (fun s e _ => KeepsMode s e) s es :=
  Transition.stepsHold_iff_stepsHold (P := ConfigSound) (C := KeepsMode)
    (fun _ _ _ h hkeep hstep => Sys.FlagsTrue.step h hkeep hstep)
    (fun _ _ _ h hstep hsound => Sys.Inv.keepsMode h.inv hstep hsound) hinit.flagsTrue

instance (s : Sys) (i : Inputs)
    : Decidable (KeepsMode s i) :=
  inferInstanceAs (Decidable (s.regs.canStep = true → s.regs.main.axiState = .mdioWr →
    s.regs.pcsLoopbackReg = s.mon.sampled))

/-- A port without loopback is configured. -/
theorem configSound_iff_default
    : Transition.StepsHold Sys.step ConfigSound resetSys (List.replicate 60 (.fast false)) :=
  (configSound_iff resetSys _ resetSys_initial).mpr (by decide +kernel)

/-- The loopback is switched on while the default mode is written. -/
theorem not_configSound_switch
    : ∃ (s : Sys) (es : List Inputs), s.Initial ∧ ¬ Transition.StepsHold Sys.step ConfigSound s es := by
  refine ⟨resetSys, (List.replicate 40 (.fast false) ++ List.replicate 10 (.fast true)) ++ [.fast true],
    resetSys_initial, ?_⟩
  intro h
  have hrun : (Transition.run Sys.step resetSys
      (List.replicate 40 (.fast false) ++ List.replicate 10 (.fast true))).map
        (fun m => (m.regs.main.pcsLoopbackConfDone,
          (clock m.regs (.fast true)).main.pcsLoopbackConfDone,
          (m.mon.clock m.regs (.fast true)).phy.controlValue))
      = some (false, true, some 0x2000) := by
    decide +kernel
  simp only [Option.map_eq_some_iff, Prod.mk.injEq] at hrun
  obtain ⟨m, hm, hbefore, hafter, hvalue⟩ := hrun
  have hsound := (h.last hm rfl).loopback hbefore hafter
  rw [hvalue] at hsound
  contradiction

section Lock

variable {s s' : Sys} {i : Inputs}

theorem Sys.Inv.writesAtControl (h : s.Inv)
    : s.mon.phy.WritesAtControl := by
  intro w hw
  apply h.main.writes w
  apply h.op.begun.writes
  apply hw

theorem mainCase_blockLock {s : Regs} (hbefore : s.main.blockLock = false)
    (h : (mainCase s i).blockLock = true)
    : s.main.axiState = .mdioCheckData ∧ (mainCase s i).axiState = .configDone := by
  cases hstate : s.main.axiState
  all_goals
    simp only [mainCase, hstate] at h ⊢
    repeat' split at h
  case mdioCheckData hready hdata =>
    simp [hready, hdata]
  all_goals
    first
    | contradiction
    | have htrue : s.main.blockLock = true := h
      rw [hbefore] at htrue
      contradiction

theorem mainCase_configDone {s : Regs} (hstate : s.main.axiState = .mdioCheckData)
    (h : (mainCase s i).axiState = .configDone)
    : s.mdioReady = true ∧ s.axiRdData.setWidth 17 = (0x11005 : BitVec 17) := by
  simp only [mainCase, hstate] at h
  split at h
  . next hready =>
    split at h
    . next hdata => exact ⟨hready, hdata⟩
    . contradiction
  . have hdone : s.main.axiState = .configDone := h
    rw [hstate] at hdone
    contradiction

theorem lockSound_of_stall (hresetN : i.resetN = true) (hstep : s.regs.canStep = false)
    : LockSound s i ⟨clock s.regs i, s.mon.clock s.regs i⟩ := by
  have hmain := clock_main_of_stall hresetN hstep
  constructor
  . intro hbefore hafter
    rw [hmain, hbefore] at hafter
    contradiction
  . intro hbefore hafter
    rw [hmain, hbefore] at hafter
    contradiction

theorem Ready.statusRead {s : Regs} {m : Monitor} (hready : Ready s m)
    (hmain : MainInv s.main m.op.start m.settled m.sampled) (hstate : s.main.axiState = .mdioCheckData)
    : m.phy.address = some (devAddr, 0x20) ∧ m.phy.lastRead = some s.axiRdData := by
  have hinv := hmain.state
  simp only [StateInv, hstate] at hinv
  obtain ⟨hcheck, haddress, _, _, data, hstart⟩ := hinv
  have hphy := Monitor.phy_sameButRead hready.complete
  have hcomplete := hready.complete
  rw [Op.Complete, hstart] at hcomplete
  rcases hcomplete with ⟨rdata, hframe⟩
  have hread := hready.lastRead hcheck.mdio.start
  constructor
  . rw [hphy.address]
    apply haddress
  . rw [Monitor.phy_lastRead hframe, ← hframe.lastRead, hread]

theorem Sys.Inv.step_lockSound (h : s.Inv) (hstep : s.step i = some s')
    : LockSound s i s' := by
  obtain ⟨hresetN, rfl⟩ := Sys.step_eq hstep
  cases hcan : s.regs.canStep with
  | false => apply lockSound_of_stall hresetN hcan
  | true =>
    have hready := h.op.ready_of_canStep hcan
    have hmain := hready.clock_main hresetN
    constructor
    . intro hbefore hafter
      rw [hmain] at hafter ⊢
      apply mainCase_blockLock hbefore hafter
    . intro hstate hafter
      rw [hmain] at hafter
      have hread := hready.statusRead h.main hstate
      have hdata := (mainCase_configDone hstate hafter).2
      refine ⟨hread.1, s.regs.axiRdData, hread.2, ?_, ?_⟩
      . have hlow : s.regs.axiRdData.setWidth 16 = (s.regs.axiRdData.setWidth 17).setWidth 16 := by
          simp
        rw [hlow, hdata]
        rfl
      . have hbit : s.regs.axiRdData.getLsbD 16 = (s.regs.axiRdData.setWidth 17).getLsbD 16 := by
          simp
        rw [hbit, hdata]
        rfl

end Lock

/--
In every run after a reset every MDIO write goes to the control register, and `block_lock` is raised
only on what a read of the status register returned.
-/
theorem lockSound (s : Sys) (es : List Inputs) (hinit : s.Initial)
    : Transition.StatesHold Sys.step (fun s => s.mon.phy.WritesAtControl) s es
        ∧ Transition.StepsHold Sys.step LockSound s es := by
  constructor
  . exact Transition.statesHold_of_inductive (fun _ h => Sys.Inv.writesAtControl h)
      (fun _ _ _ h hstep => Sys.Inv.step h hstep) hinit.inv
  . exact Transition.stepsHold_of_inductive (P := LockSound)
      (fun _ _ _ h hstep => Sys.Inv.step_lockSound h hstep)
      (fun _ _ _ h hstep => Sys.Inv.step h hstep) hinit.inv

/-- A port without loopback is configured. -/
theorem lockSound_default
    : Transition.StatesHold Sys.step (fun s => s.mon.phy.WritesAtControl) resetSys
          (List.replicate 100 (.fast false))
        ∧ Transition.StepsHold Sys.step LockSound resetSys (List.replicate 100 (.fast false)) :=
  lockSound _ _ resetSys_initial

end Ethernet
