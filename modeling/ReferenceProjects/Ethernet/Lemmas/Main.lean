import ReferenceProjects.Ethernet.Lemmas.Phy
import Mathlib.Tactic.MkIffOfInductiveProp

/-!
This module contains the invariant of the main state machine, over its registers, the operation that it
started last and what that and the operations before amount to on the MDIO bus.
-/

namespace Ethernet

/-- Register 0 of the PCS, its control register, is addressed. -/
def Phy.AtControl (p : Phy) : Prop := p.address = some (devAddr, 0)

/-- Register 32 of the PCS, its status register, is addressed. -/
def Phy.AtStatus (p : Phy) : Prop := p.address = some (devAddr, 0x20)

/-- The data of the last MDIO write. -/
def Phy.lastWrite (p : Phy) : Option (BitVec 16) := p.writes.head?.map MdioWrite.data

/-- All MDIO writes went to the control register. -/
def Phy.WritesAtControl (p : Phy) : Prop :=
  ∀ w ∈ p.writes, w.device = devAddr ∧ w.address = some (devAddr, 0)

/-- No MDIO operation is started yet, or none since `CONFIG_DONE`. -/
@[mk_iff]
structure OutsideMdio (r : MainRegs) (start : Start) : Prop where
  start : start.isMdio = false
  drive : r.driveMdio = false
  op : r.mdioOp = mdioOpAddr
  default : r.pcsDefaultConfDone = false
  loopback : r.pcsLoopbackConfDone = false

@[mk_iff]
structure InMdio (r : MainRegs) (start : Start) : Prop where
  start : start.isMdio = true
  drive : r.driveMdio = true
  regAddr : r.mdioRegAddr = devAddr

/-- The mode of the PCS is about to be written. -/
@[mk_iff]
structure Configuring (r : MainRegs) (start : Start) (p : Phy) : Prop where
  mdio : InMdio r start
  address : p.AtControl
  default : r.pcsDefaultConfDone = false
  loopback : r.pcsLoopbackConfDone = false

/-- The status of the PCS is about to be read. -/
@[mk_iff]
structure Checking (r : MainRegs) (start : Start) : Prop where
  mdio : InMdio r start
  default : r.pcsDefaultConfDone = true
  loopback : r.pcsLoopbackConfDone = false

/-- The data that sets a mode of the PCS. -/
def modeData (loopback : Bool) : BitVec 32 := if loopback then 0x4000 else 0x2000

/-- What holds in each state of the main state machine. -/
def StateInv (r : MainRegs) (start : Start) (p : Phy) (sampled : Bool) : Prop :=
  match r.axiState with
  | .startup => OutsideMdio r start
  | .resetMacRx | .resetMacTx => OutsideMdio r start ∧ start ≠ .reset
  | .mdioAddr1 =>
    OutsideMdio r start ∧ start ≠ .reset ∧ r.axiWrData.setWidth 16 = (0 : BitVec 16)
      ∨ Configuring r start p
  | .mdioReadPcsReset | .mdioReadPcsResetPoll | .mdioReadPcsResetRead | .mdioAddr2 =>
    Configuring r start p
  | .mdioResetCheck => Configuring r start p ∧ r.mdioOp = mdioOpRd
  | .mdioWr =>
    Configuring r start p ∧ r.axiWrData = modeData sampled
      ∧ p.lastWrite = some ((modeData sampled).setWidth 16)
  | .mdioRd1 => InMdio r start ∧ p.AtControl
  | .mdioAddr => Checking r start
  | .mdioRd => Checking r start ∧ p.AtStatus
  | .mdioPollCheck | .mdioCheckData =>
    Checking r start ∧ p.AtStatus ∧ r.mdioOp = mdioOpRd ∧ r.addr = mdioRxData
      ∧ ∃ data, start = .mdio mdioOpRd data mdioRxData
  | .configDone =>
    start.isMdio = true ∧ r.driveMdio = false ∧ r.mdioOp = mdioOpAddr ∧ r.writenread = false
      ∧ r.pcsDefaultConfDone = true ∧ r.pcsLoopbackConfDone = false
  | .unused => False

/-- The invariant of the main state machine. -/
structure MainInv (r : MainRegs) (start : Start) (p : Phy) (sampled : Bool) : Prop where
  op : r.mdioOp ≠ mdioOpRdIncr
  writes : p.WritesAtControl
  state : StateInv r start p sampled

theorem MainInv.congr {r r' : MainRegs} {start : Start} {p q : Phy} {sampled : Bool}
    (h : MainInv r start p sampled)
    (hr : { r' with startAccess := r.startAccess, startMdio := r.startMdio } = r)
    (haddress : q.address = p.address) (hwrites : q.writes = p.writes)
    : MainInv r' start q sampled := by
  have hop := h.op
  have hw := h.writes
  have hstate := h.state
  rw [← hr] at hop hstate
  constructor
  . apply hop
  . rw [Phy.WritesAtControl, hwrites]
    apply hw
  . simp only [StateInv, outsideMdio_iff, inMdio_iff, configuring_iff, checking_iff, Phy.AtControl,
      Phy.AtStatus, Phy.lastWrite, haddress, hwrites] at hstate ⊢
    apply hstate

/-- What the run amounts to after a step that may start an operation. -/
def Phy.next (p : Phy) : Option Start → Phy
  | none => p
  | some start => p.expect start

/-- What a step of the main state machine leads to, and by which registers an operation is started. -/
structure MainNext (r : MainRegs) (start : Start) (p : Phy) (sampled : Bool) : Prop where
  one : r.startAccess = true → r.startMdio = false ∧ r.driveMdio = false
  mdio : r.startMdio = true → r.driveMdio = true ∧ r.mdioRegAddr = devAddr
  inv : MainInv r (r.started.getD start) (p.next r.started) sampled

section Step

variable {s : Regs} {i : Inputs} {r : MainRegs} {start : Start} {p : Phy} {sampled : Bool}

theorem Phy.WritesAtControl.mdio (h : p.WritesAtControl) {op : BitVec 2} {data : BitVec 32}
    (addr : BitVec 17) (hop : op = mdioOpWr → p.AtControl)
    : (p.expect (.mdio op data addr)).WritesAtControl := by
  intro w hw
  rw [Phy.expect_mdio_writes] at hw
  split at hw
  . next hwr =>
    rcases List.mem_cons.mp hw with rfl | hw
    . exact ⟨rfl, hop hwr⟩
    . apply h w hw
  . apply h w hw

theorem MainNext.of_mdio (hstart : r.startMdio = true) (haccess : r.startAccess = false)
    (hdrive : r.driveMdio = true) (hregAddr : r.mdioRegAddr = devAddr)
    (hop : r.mdioOp ≠ mdioOpRdIncr) (hwrites : p.WritesAtControl)
    (hwr : r.mdioOp = mdioOpWr → p.AtControl)
    (hstate : StateInv r (.mdio r.mdioOp r.axiWrData r.addr)
      (p.expect (.mdio r.mdioOp r.axiWrData r.addr)) sampled)
    : MainNext r start p sampled := by
  have hstarted : r.started = some (.mdio r.mdioOp r.axiWrData r.addr) := by
    simp [MainRegs.started, hstart]
  refine ⟨by simp [haccess], by simp [hdrive, hregAddr], ?_⟩
  rw [hstarted]
  constructor
  . apply hop
  . apply hwrites.mdio r.addr hwr
  . apply hstate

theorem MainNext.of_access (hstart : r.startAccess = true) (hmdio : r.startMdio = false)
    (hdrive : r.driveMdio = false) (hop : r.mdioOp ≠ mdioOpRdIncr) (hwrites : p.WritesAtControl)
    (hp : p.expect (.access r.writenread r.addr r.axiWrData) = p)
    (hstate : StateInv r (.access r.writenread r.addr r.axiWrData) p sampled)
    : MainNext r start p sampled := by
  have hstarted : r.started = some (.access r.writenread r.addr r.axiWrData) := by
    simp [MainRegs.started, hstart, hmdio]
  refine ⟨by simp [hmdio, hdrive], by simp [hmdio], ?_⟩
  rw [hstarted]
  refine ⟨hop, ?_, ?_⟩
  . rw [Phy.next, hp]
    apply hwrites
  . rw [Phy.next, hp]
    apply hstate

theorem MainNext.of_none (haccess : r.startAccess = false) (hmdio : r.startMdio = false)
    (hinv : MainInv r start p sampled)
    : MainNext r start p sampled := by
  have hstarted : r.started = none := by simp [MainRegs.started, haccess, hmdio]
  refine ⟨by simp [haccess], by simp [hmdio], ?_⟩
  rw [hstarted]
  apply hinv

theorem MainNext.of_startWrite (hout : OutsideMdio s.main start) (hmdio : s.main.startMdio = false)
    (hwrites : p.WritesAtControl) {addr : BitVec 17} {data : BitVec 32} {next : AxiState}
    (htx : addr.setWidth 32 ≠ mdioTxData.setWidth 32)
    (hcontrol : addr.setWidth 32 ≠ mdioControl.setWidth 32)
    (hstate : OutsideMdio (s.main.startWrite addr data next) (.access true addr data)
      → StateInv (s.main.startWrite addr data next) (.access true addr data) p sampled)
    : MainNext (s.main.startWrite addr data next) start p sampled := by
  apply MainNext.of_access
  . rfl
  . apply hmdio
  . apply hout.drive
  . simp [MainRegs.startWrite, hout.op, mdioOpAddr, mdioOpRdIncr]
  . apply hwrites
  . simp [MainRegs.startWrite, Phy.expect, Phy.see, htx, hcontrol]
  . apply hstate
    exact ⟨rfl, hout.drive, hout.op, hout.default, hout.loopback⟩

theorem Configuring.next (h : Configuring s.main start p) (hinv : MainInv s.main start p sampled)
    {sampled' : Bool} (hstart : r.startMdio = true) (haccess : r.startAccess = false)
    (hdrive : r.driveMdio = true) (hregAddr : r.mdioRegAddr = devAddr)
    (hdefault : r.pcsDefaultConfDone = s.main.pcsDefaultConfDone)
    (hloopback : r.pcsLoopbackConfDone = s.main.pcsLoopbackConfDone)
    (hop : r.mdioOp = mdioOpWr ∨ r.mdioOp = mdioOpRd)
    (hstate : Configuring r (.mdio r.mdioOp r.axiWrData r.addr)
        (p.expect (.mdio r.mdioOp r.axiWrData r.addr))
      → StateInv r (.mdio r.mdioOp r.axiWrData r.addr)
        (p.expect (.mdio r.mdioOp r.axiWrData r.addr)) sampled')
    : MainNext r start p sampled' := by
  apply MainNext.of_mdio
  . apply hstart
  . apply haccess
  . apply hdrive
  . apply hregAddr
  . rcases hop with hop | hop <;> rw [hop] <;> decide
  . apply hinv.writes
  . intro _
    apply h.address
  . apply hstate
    refine ⟨⟨rfl, hdrive, hregAddr⟩, ?_, ?_, ?_⟩
    . rw [Phy.AtControl, Phy.expect_mdio_address, if_neg]
      . apply h.address
      . rcases hop with hop | hop <;> rw [hop] <;> decide
    . rw [hdefault, h.default]
    . rw [hloopback, h.loopback]

theorem InMdio.ready (h : InMdio s.main start)
    (hready : start ≠ .reset → s.mdioReady = start.isMdio)
    : s.mdioReady = true := by
  rw [hready, h.start]
  intro hreset
  have hmdio := h.start
  rw [hreset] at hmdio
  contradiction

end Step

section States

variable {s : Regs} {start : Start} {p : Phy} {sampled : Bool} (i : Inputs)

theorem mainNext_startup (hinv : MainInv s.main start p sampled) (hstate : s.main.axiState = .startup)
    (hmdio : s.main.startMdio = false)
    : MainNext (mainCase s i) start p sampled := by
  have hout := hinv.state
  simp only [StateInv, hstate] at hout
  have hcase : mainCase s i = s.main.startWrite configManagementAddr 0x45 .resetMacRx := by
    simp [mainCase, hstate]
  rw [hcase]
  apply MainNext.of_startWrite hout hmdio hinv.writes (by decide) (by decide)
  intro hout'
  exact ⟨hout', by simp⟩

theorem mainNext_resetMacRx (hinv : MainInv s.main start p sampled)
    (hstate : s.main.axiState = .resetMacRx) (hmdio : s.main.startMdio = false)
    : MainNext (mainCase s i) start p sampled := by
  have hout := hinv.state
  simp only [StateInv, hstate] at hout
  have hcase : mainCase s i = s.main.startWrite receiverAddr (receiverData i) .resetMacTx := by
    simp [mainCase, hstate]
  rw [hcase]
  apply MainNext.of_startWrite hout.1 hmdio hinv.writes (by decide) (by decide)
  intro hout'
  exact ⟨hout', by simp⟩

theorem transmitterData_low (i : Inputs)
    : (transmitterData i).setWidth 16 = (0 : BitVec 16) := by
  unfold transmitterData
  split <;> rfl

theorem mainNext_resetMacTx (hinv : MainInv s.main start p sampled)
    (hstate : s.main.axiState = .resetMacTx) (hmdio : s.main.startMdio = false)
    : MainNext (mainCase s i) start p sampled := by
  have hout := hinv.state
  simp only [StateInv, hstate] at hout
  have hcase : mainCase s i = s.main.startWrite transmitterAddr (transmitterData i) .mdioAddr1 := by
    simp [mainCase, hstate]
  rw [hcase]
  apply MainNext.of_startWrite hout.1 hmdio hinv.writes (by decide) (by decide)
  intro hout'
  exact .inl ⟨hout', by simp, transmitterData_low i⟩

theorem mainNext_mdioAddr1 (hinv : MainInv s.main start p sampled)
    (hstate : s.main.axiState = .mdioAddr1) (haccess : s.main.startAccess = false)
    (hready : start ≠ .reset → s.mdioReady = start.isMdio)
    : MainNext (mainCase s i) start p s.pcsLoopbackReg := by
  have h := hinv.state
  simp only [StateInv, hstate] at h
  rcases h with ⟨hout, hne, hdata⟩ | hconf
  . -- the first step gives the address of the control register
    have hready' : s.mdioReady = false := by rw [hready hne, hout.start]
    simp only [mainCase, hstate, hready', Bool.false_eq_true, ↓reduceIte]
    apply MainNext.of_mdio
    . rfl
    . apply haccess
    . rfl
    . rfl
    . apply hinv.op
    . apply hinv.writes
    . intro hwr
      have haddr : mdioOpAddr = mdioOpWr := hout.op.symm.trans hwr
      contradiction
    . simp only [StateInv, MainRegs.startMdioOp, hstate, hout.op]
      refine .inr ⟨⟨rfl, rfl, rfl⟩, ?_, hout.default, hout.loopback⟩
      simp [Phy.AtControl, hdata]
  . have hready' := hconf.mdio.ready hready
    cases hloop : s.pcsLoopbackReg with
    | true =>
      simp only [mainCase, hstate, hready', hloop, ↓reduceIte]
      refine hconf.next hinv rfl haccess rfl rfl rfl rfl (.inl rfl) ?_
      intro hconf'
      apply hconf'
    | false =>
      simp only [mainCase, hstate, hready', hloop, Bool.false_eq_true, ↓reduceIte]
      refine hconf.next hinv rfl haccess rfl rfl rfl rfl (.inl rfl) ?_
      intro hconf'
      refine ⟨hconf', rfl, ?_⟩
      simp [Phy.lastWrite, modeData]

theorem mainNext_mdioReadPcsReset (hinv : MainInv s.main start p sampled)
    (hstate : s.main.axiState = .mdioReadPcsReset ∨ s.main.axiState = .mdioReadPcsResetPoll
      ∨ s.main.axiState = .mdioReadPcsResetRead)
    (haccess : s.main.startAccess = false) (hready : start ≠ .reset → s.mdioReady = start.isMdio)
    : MainNext (mainCase s i) start p sampled := by
  have hconf : Configuring s.main start p := by
    have h := hinv.state
    rcases hstate with hstate | hstate | hstate <;> simpa only [StateInv, hstate] using h
  have hready' := hconf.mdio.ready hready
  rcases hstate with hstate | hstate | hstate
  . simp only [mainCase, hstate, hready', ↓reduceIte]
    exact hconf.next hinv rfl haccess rfl rfl rfl rfl (.inr rfl) (fun hconf' => hconf')
  . simp only [mainCase, hstate, hready', ↓reduceIte]
    exact hconf.next hinv rfl haccess rfl rfl rfl rfl (.inr rfl) (fun hconf' => hconf')
  . simp only [mainCase, hstate, hready', ↓reduceIte]
    exact hconf.next hinv rfl haccess rfl rfl rfl rfl (.inr rfl) (fun hconf' => ⟨hconf', rfl⟩)

theorem mainNext_mdioResetCheck (hinv : MainInv s.main start p sampled)
    (hstate : s.main.axiState = .mdioResetCheck) (haccess : s.main.startAccess = false)
    (hready : start ≠ .reset → s.mdioReady = start.isMdio)
    : MainNext (mainCase s i) start p sampled := by
  have h := hinv.state
  simp only [StateInv, hstate] at h
  obtain ⟨hconf, hop⟩ := h
  have hready' := hconf.mdio.ready hready
  simp only [mainCase, hstate, hready', ↓reduceIte]
  split
  . refine hconf.next hinv rfl haccess rfl hconf.mdio.regAddr rfl rfl (.inr hop) ?_
    intro hconf'
    apply hconf'
  . refine hconf.next hinv rfl haccess rfl hconf.mdio.regAddr rfl rfl (.inr hop) ?_
    intro hconf'
    have hstate' : s.main.startMdioOp.axiState = .mdioResetCheck := hstate
    simp only [StateInv, hstate']
    exact ⟨hconf', hop⟩

theorem mainNext_mdioAddr2 (hinv : MainInv s.main start p sampled)
    (hstate : s.main.axiState = .mdioAddr2) (haccess : s.main.startAccess = false)
    (hmdio : s.main.startMdio = false) (hready : start ≠ .reset → s.mdioReady = start.isMdio)
    : MainNext (mainCase s i) start p s.pcsLoopbackReg := by
  have hconf := hinv.state
  simp only [StateInv, hstate] at hconf
  have hready' := hconf.mdio.ready hready
  simp only [mainCase, hstate, hready', hmdio, Bool.not_false, Bool.and_self, ↓reduceIte]
  refine hconf.next hinv rfl haccess rfl rfl rfl rfl (.inl rfl) ?_
  intro hconf'
  refine ⟨hconf', rfl, ?_⟩
  simp [Phy.lastWrite, modeData]

theorem mainNext_mdioWr (hinv : MainInv s.main start p sampled)
    (hstate : s.main.axiState = .mdioWr) (haccess : s.main.startAccess = false)
    (hmdio : s.main.startMdio = false) (hready : start ≠ .reset → s.mdioReady = start.isMdio)
    : MainNext (mainCase s i) start p sampled := by
  have h := hinv.state
  simp only [StateInv, hstate] at h
  obtain ⟨hconf, _, _⟩ := h
  have hready' := hconf.mdio.ready hready
  have hcontrol (data : BitVec 32) (addr : BitVec 17)
      : (p.expect (.mdio mdioOpWr data addr)).AtControl := by
    rw [Phy.AtControl, Phy.expect_mdio_address, if_neg (by decide)]
    apply hconf.address
  simp only [mainCase, hstate, hready', hmdio, Bool.not_false, Bool.and_self, ↓reduceIte]
  split
  . refine MainNext.of_mdio rfl haccess rfl rfl ?_ ?_ ?_ ?_
    . simp [mdioOpWr, mdioOpRdIncr]
    . apply hinv.writes
    . intro _
      apply hconf.address
    . exact ⟨⟨rfl, rfl, rfl⟩, hcontrol _ _⟩
  . refine MainNext.of_mdio rfl haccess rfl rfl ?_ ?_ ?_ ?_
    . simp [mdioOpWr, mdioOpRdIncr]
    . apply hinv.writes
    . intro _
      apply hconf.address
    . exact ⟨⟨rfl, rfl, rfl⟩, hcontrol _ _⟩

theorem mainNext_mdioRd1 (hinv : MainInv s.main start p sampled)
    (hstate : s.main.axiState = .mdioRd1) (haccess : s.main.startAccess = false)
    (hmdio : s.main.startMdio = false) (hready : start ≠ .reset → s.mdioReady = start.isMdio)
    : MainNext (mainCase s i) start p sampled := by
  have h := hinv.state
  simp only [StateInv, hstate] at h
  obtain ⟨hin, haddress⟩ := h
  have hready' := hin.ready hready
  have hcontrol (data : BitVec 32) (addr : BitVec 17)
      : (p.expect (.mdio mdioOpRd data addr)).AtControl := by
    rw [Phy.AtControl, Phy.expect_mdio_address, if_neg (by decide)]
    apply haddress
  have hop : mdioOpRd ≠ mdioOpRdIncr := by decide
  simp only [mainCase, hstate, hready', hmdio, Bool.not_false, Bool.and_self, ↓reduceIte]
  split
  . -- the loopback is configured: stay here
    refine MainNext.of_mdio rfl haccess rfl rfl hop hinv.writes ?_ ?_
    . intro _
      apply haddress
    . simp only [StateInv, MainRegs.startMdioOp, hstate]
      exact ⟨⟨rfl, rfl, rfl⟩, hcontrol _ _⟩
  . split
    . next hdefault =>
      refine MainNext.of_mdio rfl haccess rfl rfl hop hinv.writes ?_ ?_
      . intro _
        apply haddress
      . exact ⟨⟨rfl, rfl, rfl⟩, hdefault, rfl⟩
    . next hdefault =>
      refine MainNext.of_mdio rfl haccess rfl rfl hop hinv.writes ?_ ?_
      . intro _
        apply haddress
      . exact .inr ⟨⟨rfl, rfl, rfl⟩, hcontrol _ _, Bool.eq_false_iff.mpr hdefault, rfl⟩

theorem mainNext_mdioAddr (hinv : MainInv s.main start p sampled)
    (hstate : s.main.axiState = .mdioAddr) (haccess : s.main.startAccess = false)
    (hready : start ≠ .reset → s.mdioReady = start.isMdio)
    : MainNext (mainCase s i) start p sampled := by
  have h := hinv.state
  simp only [StateInv, hstate] at h
  have hready' := h.mdio.ready hready
  simp only [mainCase, hstate, hready', ↓reduceIte]
  refine MainNext.of_mdio rfl haccess rfl rfl ?_ ?_ ?_ ?_
  . simp [mdioOpAddr, mdioOpRdIncr]
  . apply hinv.writes
  . intro hwr
    simp [mdioOpAddr, mdioOpWr] at hwr
  . refine ⟨⟨⟨rfl, rfl, rfl⟩, h.default, h.loopback⟩, ?_⟩
    simp [Phy.AtStatus]

theorem Phy.AtStatus.expect (haddress : p.AtStatus) (data : BitVec 32) (addr : BitVec 17)
    : (p.expect (.mdio mdioOpRd data addr)).AtStatus := by
  rw [Phy.AtStatus, Phy.expect_mdio_address, if_neg (by simp [mdioOpRd, mdioOpAddr])]
  apply haddress

theorem mainNext_mdioRd (hinv : MainInv s.main start p sampled)
    (hstate : s.main.axiState = .mdioRd) (haccess : s.main.startAccess = false)
    (hready : start ≠ .reset → s.mdioReady = start.isMdio)
    : MainNext (mainCase s i) start p sampled := by
  have h := hinv.state
  simp only [StateInv, hstate] at h
  obtain ⟨hcheck, haddress⟩ := h
  have hready' := hcheck.mdio.ready hready
  simp only [mainCase, hstate, hready', ↓reduceIte]
  refine MainNext.of_mdio rfl haccess rfl rfl ?_ ?_ ?_ ?_
  . simp [mdioOpRd, mdioOpRdIncr]
  . apply hinv.writes
  . intro hwr
    simp [mdioOpRd, mdioOpWr] at hwr
  . exact ⟨⟨⟨rfl, rfl, rfl⟩, hcheck.default, hcheck.loopback⟩, Phy.AtStatus.expect haddress _ _,
      rfl, rfl, _, rfl⟩

theorem mainNext_mdioPollCheck (hinv : MainInv s.main start p sampled)
    (hstate : s.main.axiState = .mdioPollCheck) (haccess : s.main.startAccess = false)
    (hready : start ≠ .reset → s.mdioReady = start.isMdio)
    : MainNext (mainCase s i) start p sampled := by
  have h := hinv.state
  simp only [StateInv, hstate] at h
  obtain ⟨hcheck, haddress, hop, haddr, _⟩ := h
  have hready' := hcheck.mdio.ready hready
  simp only [mainCase, hstate, hready', ↓reduceIte]
  refine MainNext.of_mdio rfl haccess rfl hcheck.mdio.regAddr hinv.op hinv.writes ?_ ?_
  . intro hwr
    have hne : mdioOpRd = mdioOpWr := hop.symm.trans hwr
    contradiction
  . simp only [StateInv, MainRegs.startMdioOp, hop, haddr]
    exact ⟨⟨⟨rfl, rfl, hcheck.mdio.regAddr⟩, hcheck.default, hcheck.loopback⟩,
      Phy.AtStatus.expect haddress _ _, trivial, trivial, _, rfl⟩

theorem mainNext_mdioCheckData (hinv : MainInv s.main start p sampled)
    (hstate : s.main.axiState = .mdioCheckData) (haccess : s.main.startAccess = false)
    (hready : start ≠ .reset → s.mdioReady = start.isMdio)
    : MainNext (mainCase s i) start p sampled := by
  have h := hinv.state
  simp only [StateInv, hstate] at h
  obtain ⟨hcheck, haddress, hop, haddr, _⟩ := h
  have hready' := hcheck.mdio.ready hready
  simp only [mainCase, hstate, hready', ↓reduceIte]
  split
  . apply MainNext.of_none rfl rfl
    constructor
    . simp [mdioOpRdIncr]
    . apply hinv.writes
    . exact ⟨hcheck.mdio.start, rfl, rfl, rfl, hcheck.default, hcheck.loopback⟩
  . refine MainNext.of_mdio rfl haccess rfl hcheck.mdio.regAddr hinv.op hinv.writes ?_ ?_
    . intro hwr
      have hne : mdioOpRd = mdioOpWr := hop.symm.trans hwr
      contradiction
    . exact ⟨⟨rfl, rfl, hcheck.mdio.regAddr⟩, hcheck.default, hcheck.loopback⟩

theorem mainNext_configDone (hinv : MainInv s.main start p sampled)
    (hstate : s.main.axiState = .configDone) (haccess : s.main.startAccess = false)
    (hmdio : s.main.startMdio = false)
    : MainNext (mainCase s i) start p sampled := by
  have h := hinv.state
  simp only [StateInv, hstate] at h
  obtain ⟨hstart, hdrive, hop, hwritenread, hdefault, hloopback⟩ := h
  cases hloop : s.pcsLoopbackReg with
  | true =>
    simp only [mainCase, hstate, hloop, ↓reduceIte]
    refine MainNext.of_access rfl hmdio hdrive hinv.op hinv.writes ?_ ?_
    . simp [hwritenread, Phy.expect]
    . exact ⟨⟨rfl, hdrive, hop, rfl, hloopback⟩, by simp⟩
  | false =>
    simp only [mainCase, hstate, hloop, Bool.false_eq_true, ↓reduceIte]
    refine MainNext.of_none haccess hmdio ?_
    constructor
    . apply hinv.op
    . apply hinv.writes
    . simp only [StateInv]
      exact ⟨hstart, hdrive, hop, hwritenread, hdefault, hloopback⟩

/-- The mode that `MDIO_ADDR_1` or `MDIO_ADDR_2` chose the data by, after a step. -/
def Regs.sample (s : Regs) (sampled : Bool) : Bool :=
  if s.main.axiState = .mdioAddr1 ∨ s.main.axiState = .mdioAddr2 then s.pcsLoopbackReg else sampled

theorem mainNext (hinv : MainInv s.main start p sampled) (haccess : s.main.startAccess = false)
    (hmdio : s.main.startMdio = false) (hready : start ≠ .reset → s.mdioReady = start.isMdio)
    : MainNext (mainCase s i) start p (s.sample sampled) := by
  cases hstate : s.main.axiState with
  | startup =>
    simp only [Regs.sample, hstate, reduceCtorEq, or_self, ↓reduceIte]
    apply mainNext_startup i hinv hstate hmdio
  | resetMacRx =>
    simp only [Regs.sample, hstate, reduceCtorEq, or_self, ↓reduceIte]
    apply mainNext_resetMacRx i hinv hstate hmdio
  | resetMacTx =>
    simp only [Regs.sample, hstate, reduceCtorEq, or_self, ↓reduceIte]
    apply mainNext_resetMacTx i hinv hstate hmdio
  | mdioAddr1 =>
    simp only [Regs.sample, hstate, true_or, ↓reduceIte]
    apply mainNext_mdioAddr1 i hinv hstate haccess hready
  | mdioReadPcsReset =>
    simp only [Regs.sample, hstate, reduceCtorEq, or_self, ↓reduceIte]
    apply mainNext_mdioReadPcsReset i hinv (.inl hstate) haccess hready
  | mdioReadPcsResetPoll =>
    simp only [Regs.sample, hstate, reduceCtorEq, or_self, ↓reduceIte]
    apply mainNext_mdioReadPcsReset i hinv (.inr (.inl hstate)) haccess hready
  | mdioReadPcsResetRead =>
    simp only [Regs.sample, hstate, reduceCtorEq, or_self, ↓reduceIte]
    apply mainNext_mdioReadPcsReset i hinv (.inr (.inr hstate)) haccess hready
  | mdioResetCheck =>
    simp only [Regs.sample, hstate, reduceCtorEq, or_self, ↓reduceIte]
    apply mainNext_mdioResetCheck i hinv hstate haccess hready
  | mdioAddr2 =>
    simp only [Regs.sample, hstate, or_true, ↓reduceIte]
    apply mainNext_mdioAddr2 i hinv hstate haccess hmdio hready
  | mdioWr =>
    simp only [Regs.sample, hstate, reduceCtorEq, or_self, ↓reduceIte]
    apply mainNext_mdioWr i hinv hstate haccess hmdio hready
  | mdioRd1 =>
    simp only [Regs.sample, hstate, reduceCtorEq, or_self, ↓reduceIte]
    apply mainNext_mdioRd1 i hinv hstate haccess hmdio hready
  | mdioAddr =>
    simp only [Regs.sample, hstate, reduceCtorEq, or_self, ↓reduceIte]
    apply mainNext_mdioAddr i hinv hstate haccess hready
  | mdioRd =>
    simp only [Regs.sample, hstate, reduceCtorEq, or_self, ↓reduceIte]
    apply mainNext_mdioRd i hinv hstate haccess hready
  | mdioPollCheck =>
    simp only [Regs.sample, hstate, reduceCtorEq, or_self, ↓reduceIte]
    apply mainNext_mdioPollCheck i hinv hstate haccess hready
  | mdioCheckData =>
    simp only [Regs.sample, hstate, reduceCtorEq, or_self, ↓reduceIte]
    apply mainNext_mdioCheckData i hinv hstate haccess hready
  | configDone =>
    simp only [Regs.sample, hstate, reduceCtorEq, or_self, ↓reduceIte]
    apply mainNext_configDone i hinv hstate haccess hmdio
  | unused =>
    have h := hinv.state
    simp [StateInv, hstate] at h

end States

end Ethernet
