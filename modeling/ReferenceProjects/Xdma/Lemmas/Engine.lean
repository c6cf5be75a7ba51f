import ReferenceProjects.Xdma.Impl.Engine

/-!
This module contains what starting and stopping an engine does to the state of the driver.
-/

namespace Xdma

theorem engineStatusRead_dump (s : Driver) (hw : HwRegs)
    : engineStatusRead s hw false true
        =
      if hw.identifier &&& blockIdMask ≠ blockIdHead then
        .error .einval
      else
        .ok { s with engine.status := hw.status } := by
  unfold engineStatusRead engineRegDump
  simp only [↓reduceIte]
  split <;> rfl

variable (p : ModuleParam)

theorem xdmaEngineStop_eq (s : Driver)
    : xdmaEngineStop p s
        =
      { s with
          engine := { s.engine with running := false, regs := (xdmaEngineStop p s).engine.regs }
          hist := { s.hist with controlWrites := ctrlCommon p :: s.hist.controlWrites }
      } := rfl

@[simp]
theorem xdmaEngineStop_running (s : Driver)
    : (xdmaEngineStop p s).engine.running = false := rfl

theorem engineStart_none_iff (s : Driver) (hw : HwRegs)
    : engineStart p s hw = none ↔ s.engine.running = true ∨ s.engine.transferList = [] := by
  unfold engineStart
  split
  . next h => simp [h]
  . next h =>
    split
    . next hlist => simp [hlist]
    . next hlist => simp [h, hlist]

variable {p}

/--
`engine_start()` runs on the head of the queue of an idle engine. It writes the registers, marks the
engine running and no longer shut down, and starts to count dequeued descriptors anew.
-/
theorem engineStart_eq {s s' : Driver} {hw : HwRegs} (hstart : engineStart p s hw = some s')
    : s.engine.running = false ∧ ∃ t rest, s.engine.transferList = t :: rest
        ∧ s' = { s with
            engine := { s.engine with
              shutdown := ⟨false, false⟩
              descDequeued := 0
              status := hw.status
              running := true
              regs := s'.engine.regs
            }
            hist := { s.hist with
              starts := t :: s.hist.starts
              controlWrites := s'.hist.controlWrites
              credits := s'.hist.credits
            }
          } := by
  unfold engineStart at hstart
  split at hstart
  . contradiction
  . next hrun =>
    split at hstart
    . contradiction
    . next t rest hlist =>
      refine ⟨by simpa using hrun, t, rest, hlist, ?_⟩
      simp only [engineStartModeConfig, Driver.writeControl, Option.some.injEq] at hstart
      rw [← hstart]
      split <;> split <;> rfl

theorem engineStart_credits {s s' : Driver} {hw : HwRegs} (hstart : engineStart p s hw = some s')
    : s'.hist.credits = s.hist.credits
        ∨ s'.hist.credits = (s.engine.descUsed, s.liveDescs) :: s.hist.credits := by
  unfold engineStart at hstart
  split at hstart
  . contradiction
  . split at hstart
    . contradiction
    . simp only [engineStartModeConfig, Driver.writeControl, Option.some.injEq] at hstart
      rw [← hstart]
      split <;> split <;> first | exact Or.inl rfl | exact Or.inr rfl

theorem engineStart_regs {s s' : Driver} {hw : HwRegs} {t : XferPtr} {rest : List XferPtr}
    (hlist : s.engine.transferList = t :: rest) (hstart : engineStart p s hw = some s')
    : s'.engine.regs.firstDescLo = pciDmaL (s.xfer t).descBus
        ∧ s'.engine.regs.firstDescHi = pciDmaH (s.xfer t).descBus
        ∧ s'.engine.regs.firstDescAdjacent
            = xdmaGetNextAdj (s.xfer t).descAdjacent (pciDmaL (s.xfer t).descBus) := by
  unfold engineStart at hstart
  split at hstart
  . contradiction
  . rw [hlist] at hstart
    simp only [engineStartModeConfig, Driver.writeControl, Option.some.injEq] at hstart
    rw [← hstart]
    split <;> split <;> exact ⟨rfl, rfl, rfl⟩

end Xdma
