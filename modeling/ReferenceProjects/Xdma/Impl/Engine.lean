import ReferenceProjects.Xdma.Impl.Desc

/-!
This module contains the state of the driver for one engine and the functions that read its status,
stop it and start it.
-/

namespace Xdma

/--
What the driver did so far. No function of the driver reads it:
- `starts`: the transfers that `engine_start()` was run on, the latest first.
- `controlWrites`: the words written to the control register, the latest first.
- `credits`: the credits that `engine_start()` wrote, with the number of descriptors of initialised
  transfers at that time, the latest first.
- `wakeups`: the transfers whose waiters were woken, the latest first.
- `live`: the transfers that are initialised and not yet destroyed.
- `freed`: the requests that were freed, each with the transfer list at that time, the latest first.
-/
structure History where
  starts : List XferPtr
  controlWrites : List (BitVec 32)
  credits : List (Int × Nat)
  wakeups : List XferPtr
  live : List XferPtr
  freed : List (Nat × List XferPtr)
  deriving DecidableEq, Repr

/--
The state of the driver as far as one engine is concerned: the engine, `XDEV_FLAG_OFFLINE`, and the
memory that pointers to transfers, requests and scatter tables lead to.
-/
structure Driver where
  engine : XdmaEngine
  offline : Bool
  xfer : XferPtr → XdmaTransfer
  req : Nat → XdmaRequestCb
  sgt : Nat → SgTable
  hist : History

def Driver.setXfer (s : Driver) (t : XferPtr) (xfer : XdmaTransfer) : Driver :=
  { s with xfer := Function.update s.xfer t xfer }

/-- The number of descriptors of the initialised transfers. -/
def Driver.liveDescs (s : Driver) : Nat := (s.hist.live.map (fun t => (s.xfer t).descNum)).sum

/--
An engine as `engine_create()` leaves it: idle, with an empty queue and an unused descriptor ring.
-/
def XdmaEngine.init (dir : DmaDataDirection) (streaming : Bool) (descBus cyclicResultBus : BitVec 64)
    : XdmaEngine where
  dir := dir
  streaming := streaming
  nonIncrAddr := false
  eopFlush := false
  shutdown := ⟨false, false⟩
  running := false
  descDequeued := 0
  status := 0
  transferList := []
  cyclicResult := fun _ => ⟨0, 0⟩
  cyclicResultBus := cyclicResultBus
  descBus := descBus
  desc := fun _ => .zero
  descIdx := 0
  descUsed := 0
  xdmaPerf := none
  regs := ⟨0, 0, 0, 0, 0, 0⟩

/-- The driver with an engine and no request yet. -/
def Driver.init (e : XdmaEngine) : Driver where
  engine := e
  offline := false
  xfer := fun _ => .zero e.dir
  req := fun _ => ⟨0, 0, []⟩
  sgt := fun _ => ⟨0, 0⟩
  hist := ⟨[], [], [], [], [], []⟩

/-- `engine_reg_dump()`, as far as it can fail. -/
def engineRegDump (hw : HwRegs) : Except Errno Unit :=
  if hw.identifier &&& blockIdMask ≠ blockIdHead then
    .error .einval
  else
    .ok ()

/-- `engine_status_read()`: read the status of the engine, optionally reset it. -/
def engineStatusRead (s : Driver) (hw : HwRegs) (clear dump : Bool) : Except Errno Driver := do
  if dump then
    engineRegDump hw
  return { s with engine.status := if clear then hw.statusRc else hw.status }

variable (p : ModuleParam)

/-- The interrupt enables that the control word has while the engine runs and while it does not. -/
def ctrlCommon : BitVec 32 :=
  let w := xdmaCtrlIeDescAlignMismatch ||| xdmaCtrlIeMagicStopped ||| xdmaCtrlIeReadError
    ||| xdmaCtrlIeDescError
  if p.pollMode then
    w ||| xdmaCtrlPollModeWb
  else
    w ||| xdmaCtrlIeDescStopped ||| xdmaCtrlIeDescCompleted

def Driver.writeControl (s : Driver) (w : BitVec 32) : Driver :=
  { s with engine.regs.control := w, hist.controlWrites := w :: s.hist.controlWrites }

/-- `xdma_engine_stop()` -/
def xdmaEngineStop (s : Driver) : Driver :=
  -- write zero to the credit counter of a Streaming mode C2H engine
  let credits := if p.enableCreditMp && s.engine.streamC2h then 0 else s.engine.regs.credits
  let s := { s with engine.regs.credits := credits }
  let s := s.writeControl (ctrlCommon p)
  { s with engine.running := false }

/-- `engine_start_mode_config()` -/
def engineStartModeConfig (s : Driver) : Driver :=
  -- if a perf test is running, enable the engine interrupts
  let s :=
    if s.engine.xdmaPerf.isSome then
      { s with
          engine.regs.interruptEnableMask :=
            xdmaCtrlIeDescStopped ||| xdmaCtrlIeDescCompleted ||| xdmaCtrlIeDescAlignMismatch
              ||| xdmaCtrlIeMagicStopped ||| xdmaCtrlIeIdleStopped ||| xdmaCtrlIeReadError
              ||| xdmaCtrlIeDescError
      }
    else
      s
  let w := xdmaCtrlRunStop ||| ctrlCommon p
  -- set non-incremental addressing mode
  let w := if s.engine.nonIncrAddr then w ||| xdmaCtrlNonIncrAddr else w
  s.writeControl w

/--
`engine_start()`: start an idle engine with the first transfer on its queue; `none` when it returns
`NULL`, which it does before it changed anything.
-/
def engineStart (s : Driver) (hw : HwRegs) : Option Driver :=
  if s.engine.running then
    none
  else
    match s.engine.transferList with
    | [] => none
    | t :: _ =>
      let xfer := s.xfer t
      -- engine is no longer shutdown
      let s := { s with engine.shutdown := ⟨false, false⟩ }
      -- add credits for Streaming mode C2H
      let s :=
        if p.enableCreditMp && s.engine.streamC2h then
          { s with
              engine.regs.credits := s.engine.descUsed
              hist.credits := (s.engine.descUsed, s.liveDescs) :: s.hist.credits
          }
        else
          s
      let s := { s with
        engine.descDequeued := 0
        engine.regs.firstDescLo := pciDmaL xfer.descBus
        engine.regs.firstDescHi := pciDmaH xfer.descBus
        engine.regs.firstDescAdjacent := xdmaGetNextAdj xfer.descAdjacent (pciDmaL xfer.descBus)
      }
      let s := engineStartModeConfig p s
      -- the status read cannot fail, it does not dump
      let s := { s with engine.status := hw.status }
      some { s with engine.running := true, hist.starts := t :: s.hist.starts }

end Xdma
