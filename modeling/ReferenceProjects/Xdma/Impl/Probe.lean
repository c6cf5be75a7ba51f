import ReferenceProjects.Lib.Ledger
import ReferenceProjects.Xdma.Defs
import Mathlib.Logic.Function.Basic

/-!
This module contains how the engines of a device are found, set up and given back: `probe_engines()` and
`remove_engines()` with what they call.
-/

namespace Xdma

/-- An engine of the device, by its direction and its channel. -/
structure EngineId where
  dir : DmaDataDirection
  channel : Nat
  deriving DecidableEq, Repr

/-- The buffers of an engine that are allocated by `dma_alloc_coherent()`. -/
inductive EngineBuf where
  | desc
  | pollModeAddrVirt
  | cyclicResult
  deriving DecidableEq, Repr

/-- What an engine holds: its buffers, and its place on the work list of a completion thread. -/
inductive EngineRes where
  | buf (id : EngineId) (buf : EngineBuf)
  | work (id : EngineId)
  deriving DecidableEq, Repr

abbrev EngineCall := Ledger.Call EngineRes

/--
`struct xdma_engine`, what `engine_init()` settles: `regs` is the offset of the registers in the config BAR,
and a pointer is there or not.
-/
structure EngineSlot where
  magic : Bool
  channel : Nat
  irqBitmask : BitVec 32
  bypassOffset : Nat
  regs : Nat
  streaming : Bool
  dir : DmaDataDirection
  addrAlign : BitVec 8
  lenGranularity : BitVec 8
  addrBits : BitVec 8
  interruptEnableMaskValue : BitVec 32
  buf : EngineBuf → Bool
  cmplthp : Bool

/-- An engine that was cleared; `DMA_BIDIRECTIONAL` is 0, the direction means nothing. -/
def EngineSlot.zero : EngineSlot where
  magic := false
  channel := 0
  irqBitmask := 0
  bypassOffset := 0
  regs := 0
  streaming := false
  dir := .toDevice
  addrAlign := 0
  lenGranularity := 0
  addrBits := 0
  interruptEnableMaskValue := 0
  buf := fun _ => false
  cmplthp := false

/--
What the driver finds when it probes a device: the parameters of the module, the registers by their offset
in the config BAR, and for which buffers there is memory.
-/
structure ProbeEnv where
  pollMode : Bool
  enableCreditMp : Bool
  identifier : Nat → BitVec 32
  alignments : Nat → BitVec 32
  dmaAllocCoherent : EngineId → EngineBuf → Bool

/--
`struct xdma_dev`, what probing settles, with the interrupt enable masks of the engines by the offset of
their registers, `credit_mode_enable`, and the calls so far, the latest first.
-/
structure ProbedDev where
  engine : EngineId → EngineSlot
  h2cChannelMax : Nat
  c2hChannelMax : Nat
  maskIrqH2c : BitVec 32
  maskIrqC2h : BitVec 32
  enginesNum : Nat
  interruptEnableMask : Nat → BitVec 32
  creditModeEnable : BitVec 32
  calls : List EngineCall

/-- A device before it is probed for so many channels. -/
def ProbedDev.init (h2cChannelMax c2hChannelMax : Nat) : ProbedDev where
  engine := fun _ => .zero
  h2cChannelMax := h2cChannelMax
  c2hChannelMax := c2hChannelMax
  maskIrqH2c := 0
  maskIrqC2h := 0
  enginesNum := 0
  interruptEnableMask := fun _ => 0
  creditModeEnable := 0
  calls := []

def ProbedDev.setEngine (d : ProbedDev) (id : EngineId) (e : EngineSlot) : ProbedDev :=
  { d with engine := Function.update d.engine id e }

def xdmaIdH2c : BitVec 32 := 0x1fc0

def xdmaIdC2h : BitVec 32 := 0x1fc1

/-- `get_engine_id()` -/
def getEngineId (identifier : BitVec 32) : BitVec 32 := (identifier &&& 0xffff0000) >>> 16

/-- `get_engine_channel_id()` -/
def getEngineChannelId (identifier : BitVec 32) : BitVec 32 := (identifier &&& 0x00000f00) >>> 8

/-- `engine_alignments()` -/
def engineAlignments (w : BitVec 32) (e : EngineSlot) : EngineSlot :=
  if w ≠ 0 then
    { e with
        addrAlign := ((w &&& 0x00ff0000) >>> 16).setWidth 8
        lenGranularity := ((w &&& 0x0000ff00) >>> 8).setWidth 8
        addrBits := (w &&& 0x000000ff).setWidth 8
    }
  else
    -- some default values if alignments are unspecified
    { e with addrAlign := 1, lenGranularity := 1, addrBits := 64 }

/-- `dma_free_coherent()` of a buffer, if there is one. -/
def freeBuf (d : ProbedDev) (id : EngineId) (b : EngineBuf) : ProbedDev :=
  let e := d.engine id
  if e.buf b then
    { d.setEngine id { e with buf := Function.update e.buf b false } with
        calls := .release (.buf id b) :: d.calls }
  else
    d

/-- `engine_free_resource()` -/
def engineFreeResource (d : ProbedDev) (id : EngineId) : ProbedDev :=
  freeBuf (freeBuf (freeBuf d id .pollModeAddrVirt) id .desc) id .cyclicResult

variable (env : ProbeEnv)

/-- `dma_alloc_coherent()` of a buffer. -/
def allocBuf (d : ProbedDev) (id : EngineId) (b : EngineBuf) : ProbedDev :=
  let e := d.engine id
  let ok := env.dmaAllocCoherent id b
  { d.setEngine id { e with buf := Function.update e.buf b ok } with
      calls := .acquire (.buf id b) ok :: d.calls }

/-- The buffers that an engine needs. -/
def neededBufs (e : EngineSlot) : List EngineBuf :=
  .desc :: ((if env.pollMode then [.pollModeAddrVirt] else [])
    ++ if e.streaming ∧ e.dir = .fromDevice then [.cyclicResult] else [])

/-- The allocations of `engine_alloc_resource()`, up to the first that fails. -/
def allocBufs (id : EngineId) : List EngineBuf → ProbedDev → ProbedDev × Option Errno
  | [], d => (d, none)
  | b :: bs, d =>
    let d := allocBuf env d id b
    if (d.engine id).buf b then
      allocBufs id bs d
    else
      (engineFreeResource d id, some .enomem)

/-- `engine_alloc_resource()` -/
def engineAllocResource (d : ProbedDev) (id : EngineId) : ProbedDev × Option Errno :=
  allocBufs env id (neededBufs env (d.engine id)) d

/-- The interrupt bit of the engine that is set up as number `n`. -/
def irqBit (n : Nat) : BitVec 32 := (1 : BitVec 32) <<< n

/-- The bit of a channel in the registers of the credit mode. -/
def creditBit (channel : Nat) : BitVec 32 := (1 : BitVec 32) <<< channel <<< 16

/-- The credit mode is for C2H streams only. -/
def usesCredit (e : EngineSlot) : Bool := env.enableCreditMp && e.streaming && e.dir == .fromDevice

/-- The interrupts of an engine that are enabled. -/
def interruptEnableValue : BitVec 32 :=
  let regValue := xdmaCtrlIeDescAlignMismatch ||| xdmaCtrlIeMagicStopped ||| xdmaCtrlIeReadError
    ||| xdmaCtrlIeDescError
  if env.pollMode then regValue else regValue ||| xdmaCtrlIeDescStopped ||| xdmaCtrlIeDescCompleted

/-- `engine_init_regs()`: the set-up of the writeback in poll mode cannot fail. -/
def ProbedDev.engineInitRegs (d : ProbedDev) (id : EngineId) : ProbedDev :=
  let e := engineAlignments (env.alignments (d.engine id).regs) (d.engine id)
  let e := { e with interruptEnableMaskValue := interruptEnableValue env }
  let d := { d.setEngine id e with
    interruptEnableMask := Function.update d.interruptEnableMask e.regs e.interruptEnableMaskValue }
  if usesCredit env e then
    { d with creditModeEnable := d.creditModeEnable ||| creditBit e.channel }
  else
    d

/-- `engine_init()` up to `engine_alloc_resource()`. -/
def engineCreate (d : ProbedDev) (offset : Nat) (id : EngineId) : ProbedDev :=
  let e := d.engine id
  let e := { e with
    magic := true
    channel := id.channel
    irqBitmask := irqBit d.enginesNum
    bypassOffset := d.enginesNum * 0x100
    regs := offset
    streaming := e.streaming || env.identifier offset &&& 0x8000 != 0
    dir := id.dir
  }
  let d := d.setEngine id e
  match id.dir with
  | .toDevice =>
    { d with maskIrqH2c := d.maskIrqH2c ||| e.irqBitmask, enginesNum := d.enginesNum + 1 }
  | .fromDevice =>
    { d with maskIrqC2h := d.maskIrqC2h ||| e.irqBitmask, enginesNum := d.enginesNum + 1 }

/-- `xdma_thread_add_work()` -/
def addWork (d : ProbedDev) (id : EngineId) : ProbedDev :=
  { d.setEngine id { d.engine id with cmplthp := true } with calls := .acquire (.work id) true :: d.calls }

/-- `xdma_thread_remove_work()` -/
def removeWork (d : ProbedDev) (id : EngineId) : ProbedDev :=
  if (d.engine id).cmplthp then
    { d.setEngine id { d.engine id with cmplthp := false } with calls := .release (.work id) :: d.calls }
  else
    d

/-- `engine_init()` -/
def engineInit (d : ProbedDev) (offset : Nat) (id : EngineId) : ProbedDev × Option Errno :=
  match engineAllocResource env (engineCreate env d offset id) id with
  | (d, some err) => (d, some err)
  | (d, none) =>
    let d := d.engineInitRegs env id
    (if env.pollMode then addWork d id else d, none)

/-- The offset of the registers of an engine, and the identifier that it is to have. -/
def engineOffset (id : EngineId) : Nat :=
  match id.dir with
  | .toDevice => id.channel * 0x100
  | .fromDevice => id.channel * 0x100 + 0x1000

def engineIdExpected : DmaDataDirection → BitVec 32
  | .toDevice => xdmaIdH2c
  | .fromDevice => xdmaIdC2h

/-- `probe_for_engine()` -/
def probeForEngine (d : ProbedDev) (id : EngineId) : ProbedDev × Option Errno :=
  let identifier := env.identifier (engineOffset id)
  if getEngineId identifier ≠ engineIdExpected id.dir
      ∨ (getEngineChannelId identifier).toNat ≠ id.channel then
    (d, some .einval)
  else
    engineInit env d (engineOffset id) id

/--
A loop of `probe_engines()` over `n` channels, from channel `i` on: what it leaves `i` at, where a probe that
fails ends it.
-/
def probeLoop (dir : DmaDataDirection) : (n i : Nat) → ProbedDev → ProbedDev × Nat
  | 0, i, d => (d, i)
  | n + 1, i, d =>
    match probeForEngine env d ⟨dir, i⟩ with
    | (d, some _) => (d, i)
    | (d, none) => probeLoop dir n (i + 1) d

/-- `probe_engines()` -/
def ProbedDev.probeEngines (d : ProbedDev) : ProbedDev :=
  let (d, i) := probeLoop env .toDevice d.h2cChannelMax 0 d
  let d := { d with h2cChannelMax := i }
  let (d, i) := probeLoop env .fromDevice d.c2hChannelMax 0 d
  { d with c2hChannelMax := i }

/-- `engine_destroy()` -/
def engineDestroy (d : ProbedDev) (id : EngineId) : ProbedDev :=
  let e := d.engine id
  let d := { d with interruptEnableMask := Function.update d.interruptEnableMask e.regs 0 }
  let d :=
    if usesCredit env e then
      { d with creditModeEnable := d.creditModeEnable &&& ~~~creditBit e.channel }
    else
      d
  let d := if env.pollMode then removeWork d id else d
  let d := engineFreeResource d id
  { d.setEngine id .zero with enginesNum := d.enginesNum - 1 }

/-- A loop of `remove_engines()` over `n` channels, from channel `i` on. -/
def removeLoop (dir : DmaDataDirection) : (n i : Nat) → ProbedDev → ProbedDev
  | 0, _, d => d
  | n + 1, i, d =>
    removeLoop dir n (i + 1)
      (if (d.engine ⟨dir, i⟩).magic then engineDestroy env d ⟨dir, i⟩ else d)

/-- `remove_engines()` -/
def ProbedDev.removeEngines (d : ProbedDev) : ProbedDev :=
  removeLoop env .fromDevice d.c2hChannelMax 0 (removeLoop env .toDevice d.h2cChannelMax 0 d)

end Xdma
