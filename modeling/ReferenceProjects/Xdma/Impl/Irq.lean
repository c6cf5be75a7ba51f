import ReferenceProjects.Lib.Ledger
import ReferenceProjects.Lib.Run
import ReferenceProjects.Xdma.Defs

/-!
This module contains the interrupts of a device: which vectors `irq_setup()` requests and
`irq_teardown()` frees, and the four entry points that call them.
-/

namespace Xdma

def maxUserIrq : Nat := 16

def xdmaChannelNumMax : Nat := 4

/-- `dev_id`: what the handler of an interrupt is called with. -/
inductive IrqDevId where
  | engineH2c (i : Nat)
  | engineC2h (i : Nat)
  | userIrq (i : Nat)
  | xdev
  deriving DecidableEq, Repr

structure IrqPair where
  vector : Nat
  devId : IrqDevId
  deriving DecidableEq, Repr

/-- `request_irq()` and `free_irq()` -/
abbrev IrqCall := Ledger.Call IrqPair

/-- What `request_irq()` returns for a pair during one call of `irq_setup()`; `none` is 0. -/
abbrev RequestIrq := IrqPair → Option Errno

/-- `struct pci_dev`, with `pci_irq_vector()`. The vectors of MSI-X are positive numbers. -/
structure PciDev where
  irq : Nat
  interruptPin : Nat
  irqVector : Nat → Nat
  irqVector_pos : ∀ i, 0 < irqVector i

/-- `struct xdma_dev`, what `xdma_device_open()` settles about the interrupts. -/
structure IrqConfig where
  pdev : PciDev
  h2cChannelMax : Nat
  c2hChannelMax : Nat
  userMax : Nat
  msixEnabled : Bool
  msiEnabled : Bool
  userMax_pos : 0 < userMax

/-- `xdev->irq_line` and the `msix_irq_line` of the engines, with the calls so far, the latest first. -/
structure IrqState where
  irqLine : Int
  h2cMsixIrqLine : Nat → Nat
  c2hMsixIrqLine : Nat → Nat
  calls : List IrqCall

section Setup

/-- A loop of `irq_msix_channel_teardown()` over `n` engines, from number `i` on. -/
def channelTeardownLoop (line : Nat → Nat) (devId : Nat → IrqDevId)
    : (n i : Nat) → List IrqCall → List IrqCall
  | 0, _, calls => calls
  | n + 1, i, calls =>
    if line i = 0 then
      calls
    else
      channelTeardownLoop line devId n (i + 1) (.release ⟨line i, devId i⟩ :: calls)

/-- `irq_msix_channel_teardown()` -/
def irqMsixChannelTeardown (c : IrqConfig) (s : IrqState) : IrqState :=
  if !c.msixEnabled then
    s
  else
    let calls := channelTeardownLoop s.h2cMsixIrqLine .engineH2c c.h2cChannelMax 0 s.calls
    { s with calls := channelTeardownLoop s.c2hMsixIrqLine .engineC2h c.c2hChannelMax 0 calls }

/--
A loop of `irq_msix_channel_setup()` over `n` engines, from number `i` on: the `msix_irq_line` of the
engines, the calls, and what it returns early.
-/
def channelSetupLoop (req : RequestIrq) (vector : Nat → Nat) (devId : Nat → IrqDevId)
    : (n i : Nat) → (line : Nat → Nat) → List IrqCall → (Nat → Nat) × List IrqCall × Option Errno
  | 0, _, line, calls => (line, calls, none)
  | n + 1, i, line, calls =>
    let pair := ⟨vector i, devId i⟩
    match req pair with
    | some err => (line, .acquire pair false :: calls, some err)
    | none =>
      channelSetupLoop req vector devId n (i + 1) (Function.update line i (vector i))
        (.acquire pair true :: calls)

/-- `irq_msix_channel_setup()` -/
def irqMsixChannelSetup (c : IrqConfig) (req : RequestIrq) (s : IrqState)
    : IrqState × Option Errno :=
  if !c.msixEnabled then
    (s, none)
  else
    let (h2c, calls, rv) :=
      channelSetupLoop req c.pdev.irqVector .engineH2c c.h2cChannelMax 0 s.h2cMsixIrqLine s.calls
    let s := { s with h2cMsixIrqLine := h2c, calls := calls }
    match rv with
    | some err => (s, some err)
    | none =>
      let (c2h, calls, rv) :=
        channelSetupLoop req (fun i => c.pdev.irqVector (c.h2cChannelMax + i)) .engineC2h
          c.c2hChannelMax 0 s.c2hMsixIrqLine s.calls
      ({ s with c2hMsixIrqLine := c2h, calls := calls }, rv)

/-- The pair of user interrupt `i`. -/
def userPair (c : IrqConfig) (i : Nat) : IrqPair :=
  ⟨c.pdev.irqVector (c.h2cChannelMax + c.c2hChannelMax + i), .userIrq i⟩

/-- The loop of `irq_msix_user_teardown()` over `n` user interrupts, from number `i` on. -/
def userTeardownLoop (c : IrqConfig) : (n i : Nat) → List IrqCall → List IrqCall
  | 0, _, calls => calls
  | n + 1, i, calls => userTeardownLoop c n (i + 1) (.release (userPair c i) :: calls)

/-- `irq_msix_user_teardown()` -/
def irqMsixUserTeardown (c : IrqConfig) (s : IrqState) : IrqState :=
  if !c.msixEnabled then s else { s with calls := userTeardownLoop c c.userMax 0 s.calls }

/--
The first loop of `irq_msix_user_setup()`, over `n` user interrupts from number `i` on: where it ends,
the calls, and the error that ends it early.
-/
def userSetupLoop (c : IrqConfig) (req : RequestIrq)
    : (n i : Nat) → List IrqCall → Nat × List IrqCall × Option Errno
  | 0, i, calls => (i, calls, none)
  | n + 1, i, calls =>
    match req (userPair c i) with
    | some err => (i, .acquire (userPair c i) false :: calls, some err)
    | none => userSetupLoop c req n (i + 1) (.acquire (userPair c i) true :: calls)

/-- Free the user interrupts below `i` that were requested, the last one first. -/
def userUnwindLoop (c : IrqConfig) : (i : Nat) → List IrqCall → List IrqCall
  | 0, calls => calls
  | i + 1, calls => userUnwindLoop c i (.release (userPair c i) :: calls)

/-- `irq_msix_user_setup()` -/
def irqMsixUserSetup (c : IrqConfig) (req : RequestIrq) (s : IrqState) : IrqState × Option Errno :=
  let (i, calls, rv) := userSetupLoop c req c.userMax 0 s.calls
  -- if any errors occur, free IRQs that were successfully requested
  let calls := if rv.isSome then userUnwindLoop c i calls else calls
  ({ s with calls := calls }, rv)

/-- `request_irq(pdev->irq, xdma_isr, ..)`, with which both of the following end. -/
def requestIsr (c : IrqConfig) (req : RequestIrq) (s : IrqState) : IrqState × Option Errno :=
  let pair : IrqPair := ⟨c.pdev.irq, .xdev⟩
  ({ s with irqLine := c.pdev.irq, calls := .acquire pair (req pair).isNone :: s.calls }, req pair)

/-- `irq_msi_setup()` -/
def irqMsiSetup (c : IrqConfig) (req : RequestIrq) (s : IrqState) : IrqState × Option Errno :=
  requestIsr c req s

/-- `irq_legacy_setup()` -/
def irqLegacySetup (c : IrqConfig) (req : RequestIrq) (s : IrqState) : IrqState × Option Errno :=
  if c.pdev.interruptPin = 0 then (s, some .einval) else requestIsr c req s

/-- `irq_teardown()` -/
def irqTeardown (c : IrqConfig) (s : IrqState) : IrqState :=
  if c.msixEnabled then
    irqMsixUserTeardown c (irqMsixChannelTeardown c s)
  else if s.irqLine ≠ -1 then
    { s with calls := .release ⟨s.irqLine.toNat, .xdev⟩ :: s.calls }
  else
    s

/-- `irq_setup()` -/
def irqSetup (c : IrqConfig) (req : RequestIrq) (s : IrqState) : IrqState × Option Errno :=
  if c.msixEnabled then
    match irqMsixChannelSetup c req s with
    | (s, some err) => (s, some err)
    | (s, none) => irqMsixUserSetup c req s
  else if c.msiEnabled then
    irqMsiSetup c req s
  else
    irqLegacySetup c req s

end Setup

section Device

/-- The interrupt mode that is asked for, what the device is capable of, and whether enabling fails. -/
structure MsiSupport where
  interruptMode : Nat
  msixCapable : Bool
  msiCapable : Bool
  error : Option Errno

/-- `enable_msi_msix()`: `msix_enabled`, `msi_enabled` and what it returns. -/
def enableMsiMsix (m : MsiSupport) : Bool × Bool × Option Errno :=
  if (m.interruptMode = 3 ∨ m.interruptMode = 0) ∧ m.msixCapable then
    (true, false, m.error)
  else if (m.interruptMode = 1 ∨ m.interruptMode = 0) ∧ m.msiCapable then
    (false, true, m.error)
  else
    (false, false, none)

/-- A number of channels or user interrupts; 0 stands for all that there can be. -/
def channelMax (max n : Nat) : Nat := if n = 0 ∨ n > max then max else n

theorem channelMax_pos {max : Nat} (hmax : 0 < max) (n : Nat)
    : 0 < channelMax max n := by
  unfold channelMax
  split <;> omega

theorem channelMax_le (max n : Nat)
    : channelMax max n ≤ max := by
  unfold channelMax
  split <;> omega

/--
What `xdma_device_open()` is called with and finds: the device, the numbers that are asked for, which
engines are there, and the error of any step before `enable_msi_msix()`.
-/
structure OpenArgs where
  pdev : PciDev
  userMax : Nat
  h2cChannelMax : Nat
  c2hChannelMax : Nat
  h2cEngine : Nat → Bool
  c2hEngine : Nat → Bool
  msi : MsiSupport
  error : Option Errno

/-- `probe_engines()`: the engines up to the first that is missing. -/
def probeEngines (engine : Nat → Bool) (max : Nat) : Nat :=
  ((List.range max).takeWhile engine).length

/-- The interrupt configuration that `xdma_device_open()` arrives at. -/
def OpenArgs.config (o : OpenArgs) : IrqConfig where
  pdev := o.pdev
  h2cChannelMax := probeEngines o.h2cEngine (channelMax xdmaChannelNumMax o.h2cChannelMax)
  c2hChannelMax := probeEngines o.c2hEngine (channelMax xdmaChannelNumMax o.c2hChannelMax)
  userMax := channelMax maxUserIrq o.userMax
  msixEnabled := (enableMsiMsix o.msi).1
  msiEnabled := (enableMsiMsix o.msi).2.1
  userMax_pos := channelMax_pos (by decide) o.userMax

/-- A device that is open or not, and its interrupts. -/
structure IrqSys where
  dev : Option IrqConfig
  irq : IrqState

def IrqSys.init : IrqSys := ⟨none, ⟨-1, fun _ => 0, fun _ => 0, []⟩⟩

inductive IrqEvent where
  | open (o : OpenArgs) (req : RequestIrq)
  | offline
  /-- `poll_mode` can be written at any time -/
  | online (pollMode : Bool) (req : RequestIrq)
  | close

/-- `xdma_device_open()`; a device that was not opened is freed. -/
def xdmaDeviceOpen (o : OpenArgs) (req : RequestIrq) (calls : List IrqCall) : IrqSys :=
  -- allocate zeroed device book keeping structure
  let s : IrqState := ⟨-1, fun _ => 0, fun _ => 0, calls⟩
  if o.error.isSome ∨ (enableMsiMsix o.msi).2.2.isSome then
    ⟨none, s⟩
  else
    match irqSetup o.config req s with
    | (s, some _) => ⟨none, s⟩
    | (s, none) => ⟨some o.config, s⟩

/-- `xdma_device_offline()`, what it does to the interrupts. -/
def xdmaDeviceOffline (c : IrqConfig) (s : IrqState) : IrqState := irqTeardown c s

/-- `xdma_device_online()`: what `irq_setup()` returns is not looked at. -/
def xdmaDeviceOnline (c : IrqConfig) (pollMode : Bool) (req : RequestIrq) (s : IrqState) : IrqState :=
  if !pollMode then (irqSetup c req s).1 else s

/-- `xdma_device_close()` -/
def xdmaDeviceClose (c : IrqConfig) (s : IrqState) : IrqSys := ⟨none, irqTeardown c s⟩

/-- One call; a device is opened once, and the others need it open. -/
def IrqSys.step (s : IrqSys) : IrqEvent → Option IrqSys
  | .open o req =>
    match s.dev with
    | none => some (xdmaDeviceOpen o req s.irq.calls)
    | some _ => none
  | .offline => s.dev.map (fun c => ⟨some c, xdmaDeviceOffline c s.irq⟩)
  | .online pollMode req => s.dev.map (fun c => ⟨some c, xdmaDeviceOnline c pollMode req s.irq⟩)
  | .close => s.dev.map (fun c => xdmaDeviceClose c s.irq)

end Device

end Xdma
