import ReferenceProjects.Ethernet.Lemmas.System

/-!
This module contains that the operations of the main state machine come over the AXI-Lite bus one after
the other, each with the accesses it consists of, and what `mdio_ready` says about them.
-/

namespace Ethernet

/-- The operations before the current one are complete, and it has begun with its own accesses. -/
structure Sys.InFrames (s : Sys) : Prop where
  past : ∀ o ∈ s.mon.past, o.Complete
  op : s.mon.op.Begun

/--
Where the main state machine is about to take a step with `mdio_ready`, the operation it started last
is an MDIO operation that is complete, and `axi_rd_data` is what its last read returned.
-/
def Sys.ReadyIsMdio (s : Sys) : Prop :=
  s.regs.canStep = true → s.regs.mdioReady = true →
    ∃ op data addr, s.mon.op.start = .mdio op data addr
      ∧ MdioFrame op data addr s.regs.axiRdData s.mon.op.accesses

section Sys

variable {s : Sys} {es : List Inputs}

theorem MdioFrame.of_lastRead {op : BitVec 2} {data rdata rdata' : BitVec 32} {addr : BitVec 17}
    {o : Op} (h : MdioFrame op data addr rdata o.accesses) (hread : o.lastRead = some rdata')
    : MdioFrame op data addr rdata' o.accesses := by
  rw [h.lastRead] at hread
  cases hread
  apply h

theorem MainInv.start_ne_reset {r : MainRegs} {start : Start} {p : Phy} {sampled : Bool}
    (h : MainInv r start p sampled) (hstate : r.axiState ≠ .startup)
    : start ≠ .reset := by
  have hinv := h.state
  rintro rfl
  unfold StateInv at hinv
  split at hinv
  . contradiction
  . exact hinv.2 rfl
  . exact hinv.2 rfl
  . rcases hinv with hout | hconf
    . exact hout.2.1 rfl
    . cases hconf.mdio.start
  . cases hinv.mdio.start
  . cases hinv.mdio.start
  . cases hinv.mdio.start
  . cases hinv.mdio.start
  . cases hinv.1.mdio.start
  . cases hinv.1.mdio.start
  . cases hinv.1.start
  . cases hinv.mdio.start
  . cases hinv.1.mdio.start
  . cases hinv.1.mdio.start
  . cases hinv.1.mdio.start
  . cases hinv.1
  . contradiction

theorem Ready.frame {s : Regs} {m : Monitor} (h : Ready s m) (hne : m.op.start ≠ .reset)
    (hready : s.mdioReady = true)
    : ∃ op data addr, m.op.start = .mdio op data addr
        ∧ MdioFrame op data addr s.axiRdData m.op.accesses := by
  have hmdio : m.op.start.isMdio = true := by rw [← h.ready hne, hready]
  have hcomplete := h.complete
  cases hstart : m.op.start with
  | reset => contradiction
  | access writenread addr data =>
    rw [hstart] at hmdio
    contradiction
  | mdio op data addr =>
    rw [Op.Complete, hstart] at hcomplete
    rcases hcomplete with ⟨rdata, hframe⟩
    exact ⟨op, data, addr, rfl, hframe.of_lastRead (h.lastRead hmdio)⟩

theorem Sys.Inv.frames (h : s.Inv)
    : s.InFrames ∧ (s.regs.main.axiState ≠ .startup → s.ReadyIsMdio) := by
  refine ⟨⟨h.past, h.op.begun⟩, ?_⟩
  intro hstate hstep hready
  apply (h.op.ready_of_canStep hstep).frame (h.main.start_ne_reset hstate) hready

end Sys

/--
In every run after a reset every operation consists of its own accesses, and `mdio_ready` tells every
state but `STARTUP` that the operation before was an MDIO operation.
-/
theorem inFrames (s : Sys) (es : List Inputs) (hinit : s.Initial)
    : Transition.StatesHold Sys.step
        (fun s => s.InFrames ∧ (s.regs.main.axiState ≠ .startup → s.ReadyIsMdio)) s es := by
  apply Transition.statesHold_of_inductive (fun _ hinv => Sys.Inv.frames hinv)
    (fun _ _ _ hinv hstep => Sys.Inv.step hinv hstep) hinit.inv

/-- `mdio_ready` is not reset: `STARTUP` finds the one of an operation before the reset. -/
theorem not_readyIsMdio_reset
    : ∃ s : Sys, s.Initial ∧ ¬ Transition.StatesHold Sys.step
        (fun s => s.InFrames ∧ s.ReadyIsMdio) s [] := by
  refine ⟨resetSys, resetSys_initial, ?_⟩
  intro h
  obtain ⟨op, data, addr, hstart, _⟩ := h.2 rfl rfl
  cases hstart

/-- The first operations after a reset. -/
theorem inFrames_reset
    : Transition.StatesHold Sys.step
        (fun s => s.InFrames ∧ (s.regs.main.axiState ≠ .startup → s.ReadyIsMdio))
        resetSys (List.replicate 40 (.fast false)) :=
  inFrames _ _ resetSys_initial

end Ethernet
