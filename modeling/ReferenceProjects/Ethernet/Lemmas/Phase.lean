import ReferenceProjects.Ethernet.Lemmas.Access

/-!
This module contains the phases of an operation, from the pulse that starts it to the clock in which
the main state machine can take its next step, and that each clock leads from one to the next.
-/

namespace Ethernet

open Handshake (Channel Halves)

/-- The data that the last access of an operation returned. -/
def Op.lastRead (o : Op) : Option (BitVec 32) :=
  match o.accesses with
  | .read _ rdata :: _ => some rdata
  | _ => none

/-- Between two accesses. -/
structure Between (s : Regs) (m : Monitor) : Prop where
  quiet : Quiet s
  whole : m.Whole

/-- A write is under way, of which `rest` precedes. -/
structure WritePhase (s : Regs) (m : Monitor) (rest : List BusAccess) : Prop where
  writing : Writing s
  halves : WriteHalves s m
  accesses : m.op.accesses = s.written ++ rest

/-- A read is under way. -/
structure ReadPhase (s : Regs) (m : Monitor) (rest : List BusAccess) : Prop where
  reading : Reading s
  halves : ReadHalves s m
  accesses : m.op.accesses = s.wasRead ++ rest

/-- The operation is over: the main state machine takes a step in the next clock. -/
structure Ready (s : Regs) (m : Monitor) : Prop where
  axi : s.axiAccessSm = .idle
  mdio : s.mdioAccessSm = .idle
  startAccess : s.main.startAccess = false
  startMdio : s.main.startMdio = false
  between : Between s m
  complete : m.op.Complete
  ready : m.op.start ≠ .reset → s.mdioReady = m.op.start.isMdio
  lastRead : m.op.start.isMdio = true → m.op.lastRead = some s.axiRdData

/-- The registers by which an MDIO operation is given to the MAC. -/
structure MdioOp (s : Regs) (m : Monitor) : Prop where
  startAccess : s.main.startAccess = false
  drive : s.main.driveMdio = true
  regAddr : s.main.mdioRegAddr = devAddr
  op : s.main.mdioOp ≠ mdioOpRdIncr
  start : m.op.start = .mdio s.main.mdioOp s.main.axiWrData s.main.addr

/-- The first write of an MDIO operation. -/
def txData (s : Regs) : BusAccess := .write (mdioTxData.setWidth 32) s.main.axiWrData

/-- Where an MDIO operation is. -/
inductive MdioPhase (s : Regs) (m : Monitor) : Prop where
  | started (axi : s.axiAccessSm = .idle) (mdio : s.mdioAccessSm = .idle)
      (start : s.main.startMdio = true) (between : Between s m) (accesses : m.op.accesses = [])
  | setData (mdio : s.mdioAccessSm = .setData) (start : s.main.startMdio = false)
      (data : s.mdioWrData = s.main.axiWrData) (ready : s.mdioReady = false)
      (access : WritePhase s m [])
  | dataSet (axi : s.axiAccessSm = .done) (mdio : s.mdioAccessSm = .setData)
      (start : s.main.startMdio = false) (between : Between s m) (ready : s.mdioReady = false)
      (accesses : m.op.accesses = [txData s])
  | init (axi : s.axiAccessSm = .idle) (mdio : s.mdioAccessSm = .init)
      (start : s.main.startMdio = false) (between : Between s m) (ready : s.mdioReady = false)
      (data : s.mdioWrData = mdioCommand s.main.mdioOp devAddr)
      (accesses : m.op.accesses = [txData s])
  | initiate (mdio : s.mdioAccessSm = .poll) (start : s.main.startMdio = false)
      (ready : s.mdioReady = false) (data : s.mdioWrData = mdioCommand s.main.mdioOp devAddr)
      (access : WritePhase s m [txData s])
  | polled (axi : s.axiAccessSm = .done ∨ s.axiAccessSm = .idle) (mdio : s.mdioAccessSm = .poll)
      (start : s.main.startMdio = false) (between : Between s m) (ready : s.mdioReady = false)
      (accesses : Polled s.main.mdioOp s.main.axiWrData s.main.addr m.op.accesses)
  -- the MDIO machine may leave `POLL` before the read is over
  | poll (rest : List BusAccess)
      (mdio : s.mdioAccessSm = .poll ∨ s.mdioAccessSm = .idle ∧ s.mdioReady = true)
      (start : s.main.startMdio = false) (access : ReadPhase s m rest)
      (accesses : Polled s.main.mdioOp s.main.axiWrData s.main.addr rest)
  | ended (axi : s.axiAccessSm = .done) (mdio : s.mdioAccessSm = .idle)
      (start : s.main.startMdio = false) (between : Between s m) (ready : s.mdioReady = true)
      (accesses : MdioFrame s.main.mdioOp s.main.axiWrData s.main.addr s.axiRdData m.op.accesses)

/-- The registers by which an access that is not an MDIO operation takes place. -/
structure AccessOp (s : Regs) (m : Monitor) : Prop where
  startMdio : s.main.startMdio = false
  mdio : s.mdioAccessSm = .idle
  drive : s.main.driveMdio = false
  start : m.op.start = .access s.main.writenread s.main.addr s.main.axiWrData

/-- Where an access is that is not an MDIO operation. -/
inductive AccessPhase (s : Regs) (m : Monitor) : Prop where
  | started (axi : s.axiAccessSm = .idle) (start : s.main.startAccess = true) (between : Between s m)
      (accesses : m.op.accesses = [])
  | write (start : s.main.startAccess = false) (ready : s.mdioReady = false)
      (access : WritePhase s m []) (writenread : s.main.writenread = true)
  | read (start : s.main.startAccess = false) (access : ReadPhase s m [])
      (writenread : s.main.writenread = false)
  | ended (axi : s.axiAccessSm = .done) (start : s.main.startAccess = false) (between : Between s m)
      (ready : s.mdioReady = false) (complete : m.op.Complete)

section Stall

variable {s : Regs} {m : Monitor} {i : Inputs}

theorem clock_main_of_stall (hresetN : i.resetN = true) (hstep : s.canStep = false)
    : (clock s i).main = { s.main with startAccess := false, startMdio := false } := by
  simp [clock, mainBlock, hresetN, hstep]

theorem clock_op_of_stall (hresetN : i.resetN = true) (hstep : s.canStep = false)
    : (m.clock s i).op = { m.op with accesses := m.seen s i ++ m.op.accesses } := by
  simp [Monitor.clock, MainRegs.started, clock_main_of_stall hresetN hstep]

theorem clock_past_of_stall (hresetN : i.resetN = true) (hstep : s.canStep = false)
    : (m.clock s i).past = m.past := by
  simp [Monitor.clock, MainRegs.started, clock_main_of_stall hresetN hstep]

theorem MdioOp.step (h : MdioOp s m) (hresetN : i.resetN = true) (hstep : s.canStep = false)
    : MdioOp (clock s i) (m.clock s i) := by
  have hmain := clock_main_of_stall hresetN hstep
  constructor
  . rw [hmain]
  . rw [hmain]
    apply h.drive
  . rw [hmain]
    apply h.regAddr
  . rw [hmain]
    apply h.op
  . rw [hmain, clock_op_of_stall hresetN hstep]
    apply h.start

theorem Between.step (h : Between s m) (haxi : s.axiAccessSm = .idle ∨ s.axiAccessSm = .done)
    : Between (clock s i) (m.clock s i) := by
  constructor
  . apply Quiet.of_rest
    . apply clock_writeRest
      rcases haxi with haxi | haxi <;> simp [haxi]
    . apply clock_readRest
      rcases haxi with haxi | haxi <;> simp [haxi]
  . apply h.quiet.whole h.whole

theorem Between.clock_op (h : Between s m) (hresetN : i.resetN = true) (hstep : s.canStep = false)
    : (m.clock s i).op = m.op := by
  rw [clock_op_of_stall hresetN hstep, h.quiet.seen h.whole]
  rfl

theorem Between.write (h : Between s m) (hresetN : i.resetN = true) (hstep : s.canStep = false)
    (haxi : s.axiAccessSm = .idle) (haxi' : (clock s i).axiAccessSm = .write)
    : WritePhase (clock s i) (m.clock s i) m.op.accesses := by
  have hw : (clock s i).WriteRest := clock_writeRest (by simp [haxi])
  have hr : (clock s i).ReadRest := clock_readRest (by simp [haxi])
  constructor
  . apply Writing.of_rest haxi' hw hr
  . apply hw.halves (h.quiet.whole h.whole)
  . rw [h.clock_op hresetN hstep, hw.written, List.nil_append]

theorem Between.read (h : Between s m) (hresetN : i.resetN = true) (hstep : s.canStep = false)
    (haxi : s.axiAccessSm = .idle) (haxi' : (clock s i).axiAccessSm = .read)
    (hready : (clock s i).mdioReady = false)
    : ReadPhase (clock s i) (m.clock s i) m.op.accesses := by
  have hw : (clock s i).WriteRest := clock_writeRest (by simp [haxi])
  have hr : (clock s i).ReadRest := clock_readRest (by simp [haxi])
  constructor
  . apply Reading.of_rest haxi' hw hr hready
  . apply hr.halves (h.quiet.whole h.whole)
  . rw [h.clock_op hresetN hstep, hr.wasRead, List.nil_append]

theorem WritePhase.step {rest : List BusAccess} (h : WritePhase s m rest) (hresetN : i.resetN = true)
    (haddr : (clock s i).writeAddr = s.writeAddr) (hdata : (clock s i).writeData = s.writeData)
    : WritePhase (clock s i) (m.clock s i) rest
        ∨ (clock s i).axiAccessSm = .done ∧ Between (clock s i) (m.clock s i)
          ∧ (m.clock s i).op.accesses = .write s.writeAddr s.writeData :: rest := by
  have hstep : s.canStep = false := by simp [Regs.canStep, h.writing.axi]
  have hop := clock_op_of_stall (m := m) hresetN hstep
  have hseen := h.writing.seen (i := i) h.halves haddr hdata
  cases hstatus : s.aw.status && s.w.status && s.b.status with
  | false =>
    refine .inl ⟨h.writing.step hresetN haddr hdata hstatus, h.writing.halves h.halves haddr hdata, ?_⟩
    rw [hop, h.accesses, ← hseen, List.append_assoc]
  | true =>
    have hdone := h.writing.done hresetN hstatus
    refine .inr ⟨hdone.1, ⟨hdone.2.1, h.writing.whole h.halves hstatus⟩, ?_⟩
    have hwritten : (clock s i).written = [.write s.writeAddr s.writeData] := by
      simp only [Bool.and_eq_true] at hstatus
      simp [Regs.written, h.writing.clock_aw, h.writing.clock_w, Channel.clock_status, hstatus, haddr,
        hdata]
    simp only [hop, h.accesses, ← List.append_assoc, hseen, hwritten]
    rfl

theorem ReadPhase.step {rest : List BusAccess} (h : ReadPhase s m rest) (hresetN : i.resetN = true)
    : ReadPhase (clock s i) (m.clock s i) rest
        ∨ (s.ar.status && s.r.status) = true ∧ (clock s i).axiAccessSm = .done
          ∧ Between (clock s i) (m.clock s i)
          ∧ (clock s i).axiRdData = s.axiRdData
          ∧ (clock s i).mdioReady = s.mdioReady
          ∧ (m.clock s i).op.accesses = .read (s.main.addr.setWidth 32) s.axiRdData :: rest := by
  have hstep : s.canStep = false := by simp [Regs.canStep, h.reading.axi]
  have hmain := clock_main_of_stall hresetN hstep
  have hop := clock_op_of_stall (m := m) hresetN hstep
  have haddr : (clock s i).main.addr = s.main.addr := by rw [hmain]
  have hdrive : (clock s i).main.driveMdio = s.main.driveMdio := by rw [hmain]
  have hseen := h.reading.seen (i := i) h.halves haddr
  cases hstatus : s.ar.status && s.r.status with
  | false =>
    refine .inl ⟨h.reading.step hresetN haddr hdrive hstatus, h.reading.halves h.halves haddr, ?_⟩
    rw [hop, h.accesses, ← hseen, List.append_assoc]
  | true =>
    have hdone := h.reading.done hresetN hstatus
    simp only [Bool.and_eq_true] at hstatus
    have hfires := h.reading.r.not_fires i.rvalid hstatus.2
    refine .inr ⟨rfl, hdone.1, ⟨hdone.2.1, h.reading.whole h.halves (by simp [hstatus])⟩,
      hdone.2.2.2, ?_, ?_⟩
    . simp [Ethernet.clock, h.reading.clock_regs, hfires]
    . have hread : (clock s i).wasRead = [.read (s.main.addr.setWidth 32) s.axiRdData] := by
        simp [Regs.wasRead, h.reading.clock_ar, h.reading.clock_r, Channel.clock_status, hstatus, haddr,
          hdone.2.2.2]
      simp only [hop, h.accesses, ← List.append_assoc, hseen, hread]
      rfl

end Stall

section Mdio

variable {s : Regs} {m : Monitor} {i : Inputs}

theorem MdioPhase.canStep (h : MdioPhase s m)
    : s.canStep = false := by
  cases h with
  | started axi mdio start => simp [Regs.canStep, start]
  | setData mdio start data ready access => simp [Regs.canStep, access.writing.axi]
  | dataSet axi => simp [Regs.canStep, axi]
  | init axi mdio => simp [Regs.canStep, mdio]
  | initiate mdio start ready data access => simp [Regs.canStep, access.writing.axi]
  | polled axi mdio => simp [Regs.canStep, mdio]
  | poll rest mdio start access => simp [Regs.canStep, access.reading.axi]
  | ended axi => simp [Regs.canStep, axi]

theorem clock_operands (hresetN : i.resetN = true) (hstep : s.canStep = false)
    : (clock s i).main.startMdio = false ∧ (clock s i).main.mdioOp = s.main.mdioOp
        ∧ (clock s i).main.axiWrData = s.main.axiWrData ∧ (clock s i).main.addr = s.main.addr := by
  rw [clock_main_of_stall hresetN hstep]
  exact ⟨rfl, rfl, rfl, rfl⟩

theorem MdioOp.started (h : MdioOp s m) (hresetN : i.resetN = true)
    (haxi : s.axiAccessSm = .idle) (hmdio : s.mdioAccessSm = .idle) (hstart : s.main.startMdio = true)
    (hbetween : Between s m) (haccesses : m.op.accesses = [])
    : MdioPhase (clock s i) (m.clock s i) := by
  have hstep : s.canStep = false := by simp [Regs.canStep, hstart]
  have hmain := clock_operands hresetN hstep
  have hop : s.main.mdioOp = mdioOpAddr ∨ s.main.mdioOp = mdioOpWr ∨ s.main.mdioOp = mdioOpRd := by
    have hne := h.op
    generalize s.main.mdioOp = op at hne
    revert op
    decide
  have hmdio' : mdioBlock s i = (.setData, s.main.axiWrData) := by
    simp [mdioBlock, hresetN, haxi, hmdio, hstart, hop]
  apply MdioPhase.setData
  . simp [clock, hmdio']
  . apply hmain.1
  . rw [hmain.2.2.1]
    simp [clock, hmdio']
  . simp [clock, readRegsBlock, haxi, hstart]
  . rw [← haccesses]
    apply hbetween.write hresetN hstep haxi
    simp [clock, axiBlock, hresetN, haxi, hmdio, hstart]

theorem mdioBlock_of_write (hresetN : i.resetN = true) (haxi : s.axiAccessSm = .write)
    (hready : s.mdioReady = false)
    : mdioBlock s i = (s.mdioAccessSm, s.mdioWrData) := by
  simp [mdioBlock, hresetN, haxi, hready]

theorem clock_ready_of_write (haxi : s.axiAccessSm = .write)
    : (clock s i).mdioReady = s.mdioReady := by
  simp [clock, readRegsBlock, haxi]

theorem clock_write_eq (hresetN : i.resetN = true) (haxi : s.axiAccessSm = .write)
    (hready : s.mdioReady = false)
    : (clock s i).writeAddr = s.writeAddr ∧ (clock s i).writeData = s.writeData := by
  have hstep : s.canStep = false := by simp [Regs.canStep, haxi]
  have hmdio := mdioBlock_of_write (i := i) hresetN haxi hready
  have hmain := clock_main_of_stall hresetN hstep
  constructor
  . simp only [Regs.writeAddr, hmain]
    simp [clock, hmdio]
  . simp only [Regs.writeData, hmain]
    simp [clock, hmdio]

theorem MdioOp.setData (h : MdioOp s m) (hresetN : i.resetN = true)
    (hmdio : s.mdioAccessSm = .setData) (hdata : s.mdioWrData = s.main.axiWrData)
    (hready : s.mdioReady = false) (haccess : WritePhase s m [])
    : MdioPhase (clock s i) (m.clock s i) := by
  have haxi := haccess.writing.axi
  have hstep : s.canStep = false := by simp [Regs.canStep, haxi]
  have hmain := clock_operands hresetN hstep
  have hwrite := clock_write_eq hresetN haxi hready
  have hmdio' := mdioBlock_of_write (i := i) hresetN haxi hready
  have hready' := clock_ready_of_write (i := i) haxi
  rcases haccess.step hresetN hwrite.1 hwrite.2 with hgo | ⟨hdone, hbetween, haccesses⟩
  . apply MdioPhase.setData
    . simp [clock, hmdio', hmdio]
    . apply hmain.1
    . rw [hmain.2.2.1]
      simp [clock, hmdio', hdata]
    . rw [hready', hready]
    . apply hgo
  . apply MdioPhase.dataSet
    . apply hdone
    . simp [clock, hmdio', hmdio]
    . apply hmain.1
    . apply hbetween
    . rw [hready', hready]
    . rw [haccesses, txData, hmain.2.2.1]
      simp [Regs.writeAddr, Regs.writeData, h.drive, hmdio, hdata]

theorem MdioOp.dataSet (h : MdioOp s m) (hresetN : i.resetN = true)
    (haxi : s.axiAccessSm = .done) (hmdio : s.mdioAccessSm = .setData)
    (hbetween : Between s m) (hready : s.mdioReady = false) (haccesses : m.op.accesses = [txData s])
    : MdioPhase (clock s i) (m.clock s i) := by
  have hstep : s.canStep = false := by simp [Regs.canStep, haxi]
  have hmain := clock_operands hresetN hstep
  have hmdio' : mdioBlock s i = (.init, mdioCommand s.main.mdioOp s.main.mdioRegAddr) := by
    simp [mdioBlock, hresetN, haxi, hmdio]
  apply MdioPhase.init
  . simp [clock, axiBlock, hresetN, haxi]
  . simp [clock, hmdio']
  . apply hmain.1
  . apply hbetween.step (.inr haxi)
  . simp [clock, readRegsBlock, haxi, hready]
  . rw [hmain.2.1, ← h.regAddr]
    simp [clock, hmdio']
  . rw [hbetween.clock_op hresetN hstep, haccesses, txData, txData, hmain.2.2.1]

theorem MdioOp.init (h : MdioOp s m) (hresetN : i.resetN = true)
    (haxi : s.axiAccessSm = .idle) (hmdio : s.mdioAccessSm = .init) (hstart : s.main.startMdio = false)
    (hbetween : Between s m) (hready : s.mdioReady = false)
    (hdata : s.mdioWrData = mdioCommand s.main.mdioOp devAddr) (haccesses : m.op.accesses = [txData s])
    : MdioPhase (clock s i) (m.clock s i) := by
  have hstep : s.canStep = false := by simp [Regs.canStep, hmdio]
  have hmain := clock_operands hresetN hstep
  have hmdio' : mdioBlock s i = (.poll, s.mdioWrData) := by
    simp [mdioBlock, hresetN, haxi, hmdio]
  have htx : txData (clock s i) = txData s := by rw [txData, txData, hmain.2.2.1]
  apply MdioPhase.initiate
  . simp [clock, hmdio']
  . apply hmain.1
  . simp [clock, readRegsBlock, haxi, hstart, h.startAccess, hready]
  . rw [hmain.2.1]
    simp [clock, hmdio', hdata]
  . rw [htx, ← haccesses]
    apply hbetween.write hresetN hstep haxi
    simp [clock, axiBlock, hresetN, haxi, hmdio]

theorem MdioOp.initiate (h : MdioOp s m) (hresetN : i.resetN = true)
    (hmdio : s.mdioAccessSm = .poll) (hready : s.mdioReady = false)
    (hdata : s.mdioWrData = mdioCommand s.main.mdioOp devAddr) (haccess : WritePhase s m [txData s])
    : MdioPhase (clock s i) (m.clock s i) := by
  have haxi := haccess.writing.axi
  have hstep : s.canStep = false := by simp [Regs.canStep, haxi]
  have hmain := clock_operands hresetN hstep
  have hwrite := clock_write_eq hresetN haxi hready
  have hmdio' := mdioBlock_of_write (i := i) hresetN haxi hready
  have hready' := clock_ready_of_write (i := i) haxi
  have htx : txData (clock s i) = txData s := by rw [txData, txData, hmain.2.2.1]
  rcases haccess.step hresetN hwrite.1 hwrite.2 with hgo | ⟨hdone, hbetween, haccesses⟩
  . apply MdioPhase.initiate
    . simp [clock, hmdio', hmdio]
    . apply hmain.1
    . rw [hready', hready]
    . rw [hmain.2.1]
      simp [clock, hmdio', hdata]
    . rw [htx]
      apply hgo
  . apply MdioPhase.polled
    . exact .inl hdone
    . simp [clock, hmdio', hmdio]
    . apply hmain.1
    . apply hbetween
    . rw [hready', hready]
    . rw [haccesses, txData, hmain.2.1, hmain.2.2.1]
      simp [Polled, Regs.writeAddr, Regs.writeData, h.drive, hmdio, hdata]

theorem MdioOp.polled (h : MdioOp s m) (hresetN : i.resetN = true)
    (haxi : s.axiAccessSm = .done ∨ s.axiAccessSm = .idle) (hmdio : s.mdioAccessSm = .poll)
    (hstart : s.main.startMdio = false) (hbetween : Between s m) (hready : s.mdioReady = false)
    (haccesses : Polled s.main.mdioOp s.main.axiWrData s.main.addr m.op.accesses)
    : MdioPhase (clock s i) (m.clock s i) := by
  have hstep : s.canStep = false := by simp [Regs.canStep, hmdio]
  have hmain := clock_operands hresetN hstep
  have hop := hbetween.clock_op hresetN hstep
  have hmdio' : mdioBlock s i = (.poll, s.mdioWrData) := by
    rcases haxi with haxi | haxi <;> simp [mdioBlock, hresetN, haxi, hmdio, hready]
  have hready' : (clock s i).mdioReady = false := by
    rcases haxi with haxi | haxi <;>
      simp [clock, readRegsBlock, haxi, hready, hstart, h.startAccess]
  rcases haxi with haxi | haxi
  . apply MdioPhase.polled
    . right
      simp [clock, axiBlock, hresetN, haxi]
    . simp [clock, hmdio']
    . apply hmain.1
    . apply hbetween.step (.inr haxi)
    . apply hready'
    . rw [hop, hmain.2.1, hmain.2.2.1, hmain.2.2.2]
      apply haccesses
  . apply MdioPhase.poll m.op.accesses
    . left
      simp [clock, hmdio']
    . apply hmain.1
    . apply hbetween.read hresetN hstep haxi
      . simp [clock, axiBlock, hresetN, haxi, hmdio]
      . apply hready'
    . rw [hmain.2.1, hmain.2.2.1, hmain.2.2.2]
      apply haccesses

theorem MdioOp.poll (h : MdioOp s m) (hresetN : i.resetN = true) {rest : List BusAccess}
    (hmdio : s.mdioAccessSm = .poll ∨ s.mdioAccessSm = .idle ∧ s.mdioReady = true)
    (haccess : ReadPhase s m rest)
    (haccesses : Polled s.main.mdioOp s.main.axiWrData s.main.addr rest)
    : MdioPhase (clock s i) (m.clock s i) := by
  have haxi := haccess.reading.axi
  have hstep : s.canStep = false := by simp [Regs.canStep, haxi]
  have hmain := clock_operands hresetN hstep
  have hmdio' : (mdioBlock s i).1 = if s.mdioReady then .idle else .poll := by
    rcases hmdio with hmdio | ⟨hmdio, hready⟩
    . cases hready : s.mdioReady <;> simp [mdioBlock, hresetN, haxi, hmdio, hready]
    . simp [mdioBlock, hresetN, haxi, hmdio, hready]
  rcases haccess.step hresetN with hgo | ⟨hstatus, hdone, hbetween, hdata, hready, haccesses'⟩
  . apply MdioPhase.poll rest
    . cases hready : s.mdioReady with
      | true =>
        right
        constructor
        . simp [clock, hmdio', hready]
        . simp only [clock, haccess.reading.clock_regs, hready]
          split <;> simp
      | false =>
        left
        simp [clock, hmdio', hready]
    . apply hmain.1
    . apply hgo
    . rw [hmain.2.1, hmain.2.2.1, hmain.2.2.2]
      apply haccesses
  . have hbit := haccess.reading.ready
    simp only [Bool.and_eq_true] at hstatus
    simp only [h.drive, hstatus.2, Bool.and_self, Bool.true_and] at hbit
    cases hr : s.mdioReady with
    | true =>
      apply MdioPhase.ended
      . apply hdone
      . simp [clock, hmdio', hr]
      . apply hmain.1
      . apply hbetween
      . rw [hready, hr]
      . rw [haccesses', hmain.2.1, hmain.2.2.1, hmain.2.2.2, hdata]
        exact ⟨rfl, rfl, by rw [← hbit, hr], haccesses⟩
    | false =>
      apply MdioPhase.polled
      . exact .inl hdone
      . simp [clock, hmdio', hr]
      . apply hmain.1
      . apply hbetween
      . rw [hready, hr]
      . rw [haccesses', hmain.2.1, hmain.2.2.1, hmain.2.2.2]
        exact ⟨rfl, by rw [← hbit, hr], haccesses⟩

theorem MdioFrame.lastRead {op : BitVec 2} {data rdata : BitVec 32} {addr : BitVec 17} {o : Op}
    (h : MdioFrame op data addr rdata o.accesses)
    : o.lastRead = some rdata := by
  unfold MdioFrame at h
  split at h
  . next haccesses => simp [Op.lastRead, haccesses, h.2.1]
  . contradiction

theorem MdioOp.ended (h : MdioOp s m) (hresetN : i.resetN = true)
    (haxi : s.axiAccessSm = .done) (hmdio : s.mdioAccessSm = .idle) (hstart : s.main.startMdio = false)
    (hbetween : Between s m) (hready : s.mdioReady = true)
    (haccesses : MdioFrame s.main.mdioOp s.main.axiWrData s.main.addr s.axiRdData m.op.accesses)
    : Ready (clock s i) (m.clock s i) := by
  have hstep : s.canStep = false := by simp [Regs.canStep, haxi]
  have hmain := clock_operands hresetN hstep
  have hop := hbetween.clock_op (i := i) hresetN hstep
  have hregs : readRegsBlock s i = (s.mdioReady, s.axiRdData) := by simp [readRegsBlock, haxi]
  constructor
  . simp [clock, axiBlock, hresetN, haxi]
  . simp [clock, mdioBlock, hresetN, haxi, hmdio, hstart]
  . simp [clock_main_of_stall hresetN hstep]
  . apply hmain.1
  . apply hbetween.step (.inr haxi)
  . rw [hop, Op.Complete, h.start]
    exact ⟨s.axiRdData, haccesses⟩
  . intro _
    simp [clock, hregs, hready, hop, h.start, Start.isMdio]
  . intro _
    simp [clock, hregs, hop, haccesses.lastRead]

theorem MdioPhase.step (h : MdioPhase s m) (hop : MdioOp s m) (hresetN : i.resetN = true)
    : MdioPhase (clock s i) (m.clock s i) ∨ Ready (clock s i) (m.clock s i) := by
  cases h with
  | started axi mdio start between accesses =>
    exact .inl (hop.started hresetN axi mdio start between accesses)
  | setData mdio start data ready access =>
    exact .inl (hop.setData hresetN mdio data ready access)
  | dataSet axi mdio start between ready accesses =>
    exact .inl (hop.dataSet hresetN axi mdio between ready accesses)
  | init axi mdio start between ready data accesses =>
    exact .inl (hop.init hresetN axi mdio start between ready data accesses)
  | initiate mdio start ready data access =>
    exact .inl (hop.initiate hresetN mdio ready data access)
  | polled axi mdio start between ready accesses =>
    exact .inl (hop.polled hresetN axi mdio start between ready accesses)
  | poll rest mdio start access accesses =>
    exact .inl (hop.poll hresetN mdio access accesses)
  | ended axi mdio start between ready accesses =>
    exact .inr (hop.ended hresetN axi mdio start between ready accesses)

end Mdio

section Access

variable {s : Regs} {m : Monitor} {i : Inputs}

theorem AccessPhase.canStep (h : AccessPhase s m)
    : s.canStep = false := by
  cases h with
  | started axi start => simp [Regs.canStep, start]
  | write start ready access => simp [Regs.canStep, access.writing.axi]
  | read start access => simp [Regs.canStep, access.reading.axi]
  | ended axi => simp [Regs.canStep, axi]

theorem AccessOp.mdioBlock (h : AccessOp s m) (hresetN : i.resetN = true)
    : (mdioBlock s i).1 = .idle := by
  simp [Ethernet.mdioBlock, hresetN, h.mdio, h.startMdio]

theorem AccessOp.step (h : AccessOp s m) (hresetN : i.resetN = true) (hstep : s.canStep = false)
    : AccessOp (clock s i) (m.clock s i) := by
  have hmain := clock_main_of_stall hresetN hstep
  constructor
  . rw [hmain]
  . simp [clock, h.mdioBlock hresetN]
  . rw [hmain]
    apply h.drive
  . rw [hmain, clock_op_of_stall hresetN hstep]
    apply h.start

theorem clock_startAccess (hresetN : i.resetN = true) (hstep : s.canStep = false)
    : (clock s i).main.startAccess = false := by
  rw [clock_main_of_stall hresetN hstep]

theorem clock_writenread (hresetN : i.resetN = true) (hstep : s.canStep = false)
    : (clock s i).main.writenread = s.main.writenread := by
  rw [clock_main_of_stall hresetN hstep]

theorem AccessOp.started (h : AccessOp s m) (hresetN : i.resetN = true)
    (haxi : s.axiAccessSm = .idle) (hstart : s.main.startAccess = true) (hbetween : Between s m)
    (haccesses : m.op.accesses = [])
    : AccessPhase (clock s i) (m.clock s i) := by
  have hstep : s.canStep = false := by simp [Regs.canStep, hstart]
  have hready : (clock s i).mdioReady = false := by simp [clock, readRegsBlock, haxi, hstart]
  cases hwritenread : s.main.writenread with
  | true =>
    apply AccessPhase.write
    . apply clock_startAccess hresetN hstep
    . apply hready
    . rw [← haccesses]
      apply hbetween.write hresetN hstep haxi
      simp [clock, axiBlock, hresetN, haxi, h.mdio, hstart, hwritenread]
    . rw [clock_writenread hresetN hstep, hwritenread]
  | false =>
    apply AccessPhase.read
    . apply clock_startAccess hresetN hstep
    . rw [← haccesses]
      apply hbetween.read hresetN hstep haxi
      . simp [clock, axiBlock, hresetN, haxi, h.mdio, hstart, hwritenread, h.startMdio]
      . apply hready
    . rw [clock_writenread hresetN hstep, hwritenread]

theorem AccessOp.write (h : AccessOp s m) (hresetN : i.resetN = true) (hready : s.mdioReady = false)
    (haccess : WritePhase s m []) (hwritenread : s.main.writenread = true)
    : AccessPhase (clock s i) (m.clock s i) := by
  have haxi := haccess.writing.axi
  have hstep : s.canStep = false := by simp [Regs.canStep, haxi]
  have hwrite := clock_write_eq hresetN haxi hready
  have hready' := clock_ready_of_write (i := i) haxi
  have hop := h.step hresetN hstep
  rcases haccess.step hresetN hwrite.1 hwrite.2 with hgo | ⟨hdone, hbetween, haccesses⟩
  . apply AccessPhase.write
    . apply clock_startAccess hresetN hstep
    . rw [hready', hready]
    . apply hgo
    . rw [clock_writenread hresetN hstep, hwritenread]
  . apply AccessPhase.ended
    . apply hdone
    . apply clock_startAccess hresetN hstep
    . apply hbetween
    . rw [hready', hready]
    . rw [Op.Complete, hop.start, clock_writenread hresetN hstep, hwritenread, haccesses,
        clock_main_of_stall hresetN hstep]
      simp [Regs.writeAddr, Regs.writeData, h.drive]

theorem AccessOp.read (h : AccessOp s m) (hresetN : i.resetN = true)
    (haccess : ReadPhase s m []) (hwritenread : s.main.writenread = false)
    : AccessPhase (clock s i) (m.clock s i) := by
  have haxi := haccess.reading.axi
  have hstep : s.canStep = false := by simp [Regs.canStep, haxi]
  have hop := h.step hresetN hstep
  have hready : s.mdioReady = false := by simp [haccess.reading.ready, h.drive]
  rcases haccess.step hresetN with hgo | ⟨_, hdone, hbetween, _, hready', haccesses⟩
  . apply AccessPhase.read
    . apply clock_startAccess hresetN hstep
    . apply hgo
    . rw [clock_writenread hresetN hstep, hwritenread]
  . apply AccessPhase.ended
    . apply hdone
    . apply clock_startAccess hresetN hstep
    . apply hbetween
    . rw [hready', hready]
    . rw [Op.Complete, hop.start, clock_writenread hresetN hstep, hwritenread, haccesses,
        clock_main_of_stall hresetN hstep]
      exact ⟨s.axiRdData, rfl⟩

theorem AccessOp.ended (h : AccessOp s m) (hresetN : i.resetN = true)
    (haxi : s.axiAccessSm = .done) (hbetween : Between s m) (hready : s.mdioReady = false)
    (hcomplete : m.op.Complete)
    : Ready (clock s i) (m.clock s i) := by
  have hstep : s.canStep = false := by simp [Regs.canStep, haxi]
  have hop := hbetween.clock_op (i := i) hresetN hstep
  constructor
  . simp [clock, axiBlock, hresetN, haxi]
  . simp [clock, h.mdioBlock hresetN]
  . apply clock_startAccess hresetN hstep
  . apply (clock_operands hresetN hstep).1
  . apply hbetween.step (.inr haxi)
  . rw [hop]
    apply hcomplete
  . intro _
    simp [clock, readRegsBlock, haxi, hready, hop, h.start, Start.isMdio]
  . intro hmdio
    simp [hop, h.start, Start.isMdio] at hmdio

theorem AccessPhase.step (h : AccessPhase s m) (hop : AccessOp s m) (hresetN : i.resetN = true)
    : AccessPhase (clock s i) (m.clock s i) ∨ Ready (clock s i) (m.clock s i) := by
  cases h with
  | started axi start between accesses => exact .inl (hop.started hresetN axi start between accesses)
  | write start ready access writenread => exact .inl (hop.write hresetN ready access writenread)
  | read start access writenread => exact .inl (hop.read hresetN access writenread)
  | ended axi start between ready complete => exact .inr (hop.ended hresetN axi between ready complete)

end Access

section Begun

variable {s : Regs} {m : Monitor}

theorem Op.Begun.of_txData {o : Op} {op : BitVec 2} {data : BitVec 32} {addr : BitVec 17}
    (hstart : o.start = .mdio op data addr)
    (haccesses : o.accesses = [.write (mdioTxData.setWidth 32) data])
    : o.Begun := by
  rw [Op.Begun, hstart]
  exact .inr (.inr (.inl haccesses))

theorem Op.Begun.of_polled {o : Op} {op : BitVec 2} {data : BitVec 32} {addr : BitVec 17}
    (hstart : o.start = .mdio op data addr) (haccesses : Polled op data addr o.accesses)
    : o.Begun := by
  rw [Op.Begun, hstart]
  exact .inr (.inr (.inr haccesses))

theorem Op.Begun.of_frame {o : Op} {op : BitVec 2} {data rdata : BitVec 32} {addr : BitVec 17}
    (hstart : o.start = .mdio op data addr) (haccesses : MdioFrame op data addr rdata o.accesses)
    : o.Begun := by
  rw [Op.Begun, Op.Complete, hstart]
  exact .inl ⟨rdata, haccesses⟩

theorem MdioPhase.begun (h : MdioPhase s m) (hop : MdioOp s m)
    : m.op.Begun := by
  cases h with
  | started axi mdio start between accesses => exact .inr (.inl accesses)
  | setData mdio start data ready access =>
    have haccesses := access.accesses
    simp only [Regs.written, Regs.writeAddr, Regs.writeData, hop.drive, mdio, data, ↓reduceIte,
      List.append_nil] at haccesses
    split at haccesses
    . apply Op.Begun.of_txData hop.start haccesses
    . exact .inr (.inl haccesses)
  | dataSet axi mdio start between ready accesses => apply Op.Begun.of_txData hop.start accesses
  | init axi mdio start between ready data accesses => apply Op.Begun.of_txData hop.start accesses
  | initiate mdio start ready data access =>
    have haccesses := access.accesses
    simp only [Regs.written, Regs.writeAddr, Regs.writeData, hop.drive, mdio, data, ↓reduceIte,
      reduceCtorEq] at haccesses
    split at haccesses
    . apply Op.Begun.of_polled hop.start
      rw [haccesses]
      simp [Polled, txData]
    . apply Op.Begun.of_txData hop.start haccesses
  | polled axi mdio start between ready accesses => apply Op.Begun.of_polled hop.start accesses
  | poll rest mdio start access accesses =>
    have haccesses := access.accesses
    unfold Regs.wasRead at haccesses
    split at haccesses
    . cases hbit : readyBit s.main.addr s.axiRdData with
      | true =>
        apply Op.Begun.of_frame hop.start
        rw [haccesses]
        exact ⟨rfl, rfl, hbit, accesses⟩
      | false =>
        apply Op.Begun.of_polled hop.start
        rw [haccesses]
        exact ⟨rfl, hbit, accesses⟩
    . apply Op.Begun.of_polled hop.start
      rw [haccesses]
      apply accesses
  | ended axi mdio start between ready accesses => apply Op.Begun.of_frame hop.start accesses

theorem AccessPhase.begun (h : AccessPhase s m) (hop : AccessOp s m)
    : m.op.Begun := by
  cases h with
  | started axi start between accesses => exact .inr (.inl accesses)
  | write start ready access writenread =>
    have haccesses := access.accesses
    simp only [Regs.written, Regs.writeAddr, Regs.writeData, hop.drive, Bool.false_eq_true, ↓reduceIte,
      List.append_nil] at haccesses
    split at haccesses
    . left
      rw [Op.Complete, hop.start, writenread]
      apply haccesses
    . exact .inr (.inl haccesses)
  | read start access writenread =>
    have haccesses := access.accesses
    simp only [Regs.wasRead, List.append_nil] at haccesses
    split at haccesses
    . left
      rw [Op.Complete, hop.start, writenread]
      exact ⟨s.axiRdData, haccesses⟩
    . exact .inr (.inl haccesses)
  | ended axi start between ready complete => exact .inl complete

end Begun

end Ethernet
