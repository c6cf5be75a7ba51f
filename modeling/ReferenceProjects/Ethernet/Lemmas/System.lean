import ReferenceProjects.Ethernet.Lemmas.Main
import ReferenceProjects.Lib.Run

/-!
This module contains the invariant of every run of `ethernet_flow_cntrl` after a reset.
-/

namespace Ethernet

/-- The main state machine takes its next step, or waits for the operation that it started. -/
inductive OpInv (s : Regs) (m : Monitor) : Prop where
  | ready (h : Ready s m)
  | mdio (op : MdioOp s m) (phase : MdioPhase s m)
  | access (op : AccessOp s m) (phase : AccessPhase s m)

/-- The invariant of a run. -/
structure Sys.Inv (s : Sys) : Prop where
  op : OpInv s.regs s.mon
  main : MainInv s.regs.main s.mon.op.start s.mon.settled s.mon.sampled
  past : ∀ o ∈ s.mon.past, o.Complete

section Initial

variable {s : Regs}

theorem AfterReset.regs (h : AfterReset s)
    : s.main = .reset ∧ s.axiAccessSm = .idle ∧ s.mdioAccessSm = .idle ∧ s.WriteRest ∧ s.ReadRest := by
  obtain ⟨s₀, i, j, hi, hj, rfl⟩ := h
  have haxi : (clock s₀ i).axiAccessSm = .idle := by simp [clock, axiBlock, hi]
  refine ⟨?_, ?_, ?_, ?_, ?_⟩
  . simp [clock, mainBlock, hj]
  . simp [clock, axiBlock, hj]
  . simp [clock, mdioBlock, hj]
  . apply clock_writeRest
    simp [haxi]
  . apply clock_readRest
    simp [haxi]

theorem AfterReset.ready (h : AfterReset s)
    : Ready s .init := by
  obtain ⟨hmain, haxi, hmdio, hw, hr⟩ := h.regs
  constructor
  . apply haxi
  . apply hmdio
  . rw [hmain]
    rfl
  . rw [hmain]
    rfl
  . exact ⟨Quiet.of_rest hw hr, ⟨rfl, rfl⟩⟩
  . simp [Op.Complete, Monitor.init]
  . intro hne
    simp [Monitor.init] at hne
  . intro hstart
    simp [Monitor.init, Start.isMdio] at hstart

theorem mainInv_reset
    : MainInv .reset .reset .init false := by
  constructor
  . decide
  . intro w hw
    simp [Phy.init] at hw
  . exact ⟨rfl, rfl, rfl, rfl, rfl⟩

theorem Sys.Initial.inv {s : Sys} (h : s.Initial)
    : s.Inv := by
  obtain ⟨hreset, hmon⟩ := h
  constructor
  . rw [hmon]
    exact .ready hreset.ready
  . rw [hreset.regs.1, hmon]
    apply mainInv_reset
  . rw [hmon]
    intro o ho
    simp [Monitor.init] at ho

end Initial

section Step

variable {s : Regs} {m : Monitor} {i : Inputs}

theorem Ready.canStep (h : Ready s m)
    : s.canStep = true := by
  simp [Regs.canStep, h.axi, h.mdio, h.startAccess, h.startMdio]

theorem Ready.clock_main (h : Ready s m) (hresetN : i.resetN = true)
    : (clock s i).main = mainCase s i := by
  simp [clock, mainBlock, hresetN, h.canStep]

theorem Ready.clock_op_of_none (h : Ready s m) (hresetN : i.resetN = true)
    (hstarted : (mainCase s i).started = none)
    : (m.clock s i).op = m.op ∧ (m.clock s i).past = m.past := by
  simp [Monitor.clock, h.clock_main hresetN, hstarted, h.between.quiet.seen h.between.whole]

theorem Ready.clock_op_of_some (h : Ready s m) (hresetN : i.resetN = true) {start : Start}
    (hstarted : (mainCase s i).started = some start)
    : (m.clock s i).op = ⟨start, []⟩ ∧ (m.clock s i).past = m.op :: m.past := by
  simp [Monitor.clock, h.clock_main hresetN, hstarted, h.between.quiet.seen h.between.whole]

theorem Ready.clock_sampled (h : Ready s m)
    : (m.clock s i).sampled = s.sample m.sampled := by
  simp [Monitor.clock, h.canStep, Regs.sample]

theorem clock_sampled_of_stall (hstep : s.canStep = false)
    : (m.clock s i).sampled = m.sampled := by
  simp [Monitor.clock, hstep]

theorem Ready.mainNext (h : Ready s m) (hmain : MainInv s.main m.op.start m.settled m.sampled)
    : MainNext (mainCase s i) m.op.start m.phy (s.sample m.sampled) := by
  have hphy := Monitor.phy_sameButRead h.complete
  apply Ethernet.mainNext
  . apply hmain.congr rfl hphy.address hphy.writes
  . apply h.startAccess
  . apply h.startMdio
  . apply h.ready

theorem Ready.clock_mainInv (h : Ready s m) (hresetN : i.resetN = true)
    (hmain : MainInv s.main m.op.start m.settled m.sampled)
    : MainInv (clock s i).main (m.clock s i).op.start (m.clock s i).settled (m.clock s i).sampled := by
  have hnext := (h.mainNext (i := i) hmain).inv
  rw [h.clock_main hresetN, h.clock_sampled]
  cases hstarted : (mainCase s i).started with
  | none =>
    obtain ⟨hop, hpast⟩ := h.clock_op_of_none hresetN hstarted
    have hphy := Monitor.phy_sameButRead h.complete
    rw [hstarted] at hnext
    rw [Monitor.settled, hop, hpast]
    apply hnext.congr rfl hphy.address.symm hphy.writes.symm
  | some start =>
    obtain ⟨hop, hpast⟩ := h.clock_op_of_some hresetN hstarted
    rw [hstarted] at hnext
    rw [Monitor.settled, hop, hpast]
    apply hnext

theorem stall_mainInv (hresetN : i.resetN = true) (hstep : s.canStep = false)
    (hmain : MainInv s.main m.op.start m.settled m.sampled)
    : MainInv (clock s i).main (m.clock s i).op.start (m.clock s i).settled (m.clock s i).sampled := by
  rw [Monitor.settled, clock_sampled_of_stall hstep, clock_op_of_stall hresetN hstep,
    clock_past_of_stall hresetN hstep, clock_main_of_stall hresetN hstep]
  exact hmain.congr rfl rfl rfl

theorem Ready.step (h : Ready s m) (hresetN : i.resetN = true)
    (hmain : MainInv s.main m.op.start m.settled m.sampled)
    : OpInv (clock s i) (m.clock s i) := by
  have hnext := h.mainNext (i := i) hmain
  have hclock := h.clock_main hresetN
  have hbetween : Between (clock s i) (m.clock s i) := h.between.step (.inl h.axi)
  have haxi : (clock s i).axiAccessSm = .idle := by
    simp [clock, axiBlock, hresetN, h.axi, h.mdio, h.startAccess, h.startMdio]
  have hmdio : (clock s i).mdioAccessSm = .idle := by
    simp [clock, mdioBlock, hresetN, h.axi, h.mdio, h.startMdio]
  have hregs : readRegsBlock s i = (s.mdioReady, s.axiRdData) := by
    simp [readRegsBlock, h.axi, h.startAccess, h.startMdio]
  cases hm : (mainCase s i).startMdio with
  | true =>
    have hstarted : (mainCase s i).started
        = some (.mdio (mainCase s i).mdioOp (mainCase s i).axiWrData (mainCase s i).addr) := by
      simp [MainRegs.started, hm]
    obtain ⟨hop, _⟩ := h.clock_op_of_some hresetN hstarted
    have hregs' := hnext.mdio hm
    refine .mdio ?_ (.started haxi hmdio (by rw [hclock, hm]) hbetween (by rw [hop]))
    constructor
    . rw [hclock]
      cases ha : (mainCase s i).startAccess with
      | false => rfl
      | true =>
        rw [(hnext.one ha).1] at hm
        contradiction
    . rw [hclock, hregs'.1]
    . rw [hclock, hregs'.2]
    . rw [hclock]
      apply hnext.inv.op
    . rw [hop, hclock]
  | false =>
    cases ha : (mainCase s i).startAccess with
    | true =>
      have hstarted : (mainCase s i).started
          = some (.access (mainCase s i).writenread (mainCase s i).addr (mainCase s i).axiWrData) := by
        simp [MainRegs.started, hm, ha]
      obtain ⟨hop, _⟩ := h.clock_op_of_some hresetN hstarted
      refine .access ?_ (.started haxi (by rw [hclock, ha]) hbetween (by rw [hop]))
      constructor
      . rw [hclock, hm]
      . apply hmdio
      . rw [hclock, (hnext.one ha).2]
      . rw [hop, hclock]
    | false =>
      have hstarted : (mainCase s i).started = none := by simp [MainRegs.started, hm, ha]
      obtain ⟨hop, _⟩ := h.clock_op_of_none hresetN hstarted
      apply OpInv.ready
      constructor
      . apply haxi
      . apply hmdio
      . rw [hclock, ha]
      . rw [hclock, hm]
      . apply hbetween
      . rw [hop]
        apply h.complete
      . rw [hop]
        simpa [clock, hregs] using h.ready
      . rw [hop]
        simpa [clock, hregs] using h.lastRead

end Step

section Inv

variable {s s' : Sys} {i : Inputs}

theorem Sys.step_eq (h : s.step i = some s')
    : i.resetN = true ∧ s' = ⟨clock s.regs i, s.mon.clock s.regs i⟩ := by
  unfold Sys.step at h
  split at h
  . next hresetN =>
    refine ⟨hresetN, ?_⟩
    simpa using h.symm
  . contradiction

theorem OpInv.ready_of_canStep {s : Regs} {m : Monitor} (h : OpInv s m) (hstep : s.canStep = true)
    : Ready s m := by
  cases h with
  | ready h => apply h
  | mdio op phase =>
    rw [phase.canStep] at hstep
    contradiction
  | access op phase =>
    rw [phase.canStep] at hstep
    contradiction

theorem OpInv.begun {s : Regs} {m : Monitor} (h : OpInv s m)
    : m.op.Begun := by
  cases h with
  | ready h => exact .inl h.complete
  | mdio op phase => apply phase.begun op
  | access op phase => apply phase.begun op

theorem Sys.Inv.step (hinv : s.Inv) (h : s.step i = some s')
    : s'.Inv := by
  obtain ⟨hresetN, rfl⟩ := Sys.step_eq h
  cases hop : hinv.op with
  | ready hready =>
    refine ⟨hready.step hresetN hinv.main, hready.clock_mainInv hresetN hinv.main, ?_⟩
    intro o ho
    cases hstarted : (mainCase s.regs i).started with
    | none =>
      rw [(hready.clock_op_of_none hresetN hstarted).2] at ho
      apply hinv.past o ho
    | some start =>
      rw [(hready.clock_op_of_some hresetN hstarted).2] at ho
      rcases List.mem_cons.mp ho with rfl | ho
      . apply hready.complete
      . apply hinv.past o ho
  | mdio op phase =>
    have hstep := phase.canStep
    refine ⟨?_, stall_mainInv hresetN hstep hinv.main, ?_⟩
    . rcases phase.step op hresetN with hphase | hready
      . exact .mdio (op.step hresetN hstep) hphase
      . exact .ready hready
    . rw [clock_past_of_stall hresetN hstep]
      apply hinv.past
  | access op phase =>
    have hstep := phase.canStep
    refine ⟨?_, stall_mainInv hresetN hstep hinv.main, ?_⟩
    . rcases phase.step op hresetN with hphase | hready
      . exact .access (op.step hresetN hstep) hphase
      . exact .ready hready
    . rw [clock_past_of_stall hresetN hstep]
      apply hinv.past

end Inv

/-- A port that is configured; the last read of the status register said so. -/
def configured : Regs where
  main := { MainRegs.reset with
    axiState := .configDone, blockLock := true, axiWrData := 0x20, pcsDefaultConfDone := true }
  pcsLoopbackReg := false
  mdioAccessSm := .idle
  mdioWrData := mdioCommand mdioOpRd devAddr
  axiAccessSm := .idle
  ar := ⟨0, false, false⟩
  r := ⟨(), false, false⟩
  mdioReady := true
  axiRdData := 0x11005
  aw := ⟨0, false, false⟩
  w := ⟨0, false, false⟩
  b := ⟨(), false, false⟩

/-- A slave that is never ready. -/
def Inputs.quiet (resetN pcsLoopback : Bool) : Inputs where
  resetN := resetN
  pcsLoopback := pcsLoopback
  enableVlan := false
  enableCustomPreamble := false
  awready := false
  wready := false
  bvalid := false
  arready := false
  rdata := 0
  rvalid := false

/-- A slave that is always ready, and answers every read with both ready bits. -/
def Inputs.fast (pcsLoopback : Bool) : Inputs where
  resetN := true
  pcsLoopback := pcsLoopback
  enableVlan := false
  enableCustomPreamble := false
  awready := true
  wready := true
  bvalid := true
  arready := true
  rdata := 0x10080
  rvalid := true

/-- That port when it is reset. -/
def resetSys : Sys :=
  ⟨clock (clock configured (.quiet false false)) (.quiet false false), .init⟩

theorem resetSys_initial
    : resetSys.Initial := by
  refine ⟨⟨configured, _, _, rfl, rfl, rfl⟩, rfl⟩

end Ethernet
