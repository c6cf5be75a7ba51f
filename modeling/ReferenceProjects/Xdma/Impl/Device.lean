import ReferenceProjects.Lib.Table
import ReferenceProjects.Xdma.Impl.Bars
import ReferenceProjects.Xdma.Impl.Irq
import ReferenceProjects.Xdma.Impl.Probe
import ReferenceProjects.Xdma.Impl.Thread

/-!
This module contains the devices of the driver from `xdma_device_open()` to `xdma_device_close()`: their list,
what each of them takes from the PCI layer, and how it is given back on the way out of both.
-/

namespace Xdma

/-- What a device gets from the PCI layer; the vectors are those of MSI-X or MSI. -/
inductive PciRes where
  | enabled
  | regions
  | vectors
  deriving DecidableEq, Repr

abbrev PciCall := Ledger.Call PciRes

/-- Where a device is: on the list, set up, or given back but for its place on the list. -/
inductive XdevPhase where
  | listed
  | opened
  | unwound
  deriving DecidableEq, Repr

/--
`struct xdma_dev`. The PCI devices and the allocations are numbered; `calls` has those to the PCI layer, the
latest first.
-/
structure Xdev where
  slot : Nat
  addr : Nat
  pdev : PciDev
  idx : Nat
  userMax : Nat
  userMax_pos : 0 < userMax
  gotRegions : Bool
  regionsInUse : Bool
  msixEnabled : Bool
  msiEnabled : Bool
  bars : Bars
  probed : ProbedDev
  irq : IrqState
  calls : List PciCall
  phase : XdevPhase

/-- The numbers that `xdma_device_open()` is called with. -/
structure ChannelArgs where
  userMax : Nat
  h2cChannelMax : Nat
  c2hChannelMax : Nat

/-- `xdma_device_open()` up to `xdev_list_add()`; 0 stands for all that there can be. -/
def Xdev.alloc (slot addr : Nat) (pdev : PciDev) (a : ChannelArgs) : Xdev where
  slot := slot
  addr := addr
  pdev := pdev
  idx := 0
  userMax := channelMax maxUserIrq a.userMax
  userMax_pos := channelMax_pos (by decide) a.userMax
  gotRegions := false
  regionsInUse := false
  msixEnabled := false
  msiEnabled := false
  bars := .init
  probed := .init (channelMax xdmaChannelNumMax a.h2cChannelMax) (channelMax xdmaChannelNumMax a.c2hChannelMax)
  irq := ⟨-1, fun _ => 0, fun _ => 0, []⟩
  calls := []
  phase := .listed

def Xdev.irqConfig (x : Xdev) : IrqConfig :=
  ⟨x.pdev, x.probed.h2cChannelMax, x.probed.c2hChannelMax, x.userMax, x.msixEnabled, x.msiEnabled, x.userMax_pos⟩

/-- The number of an engine among those of all devices, at most eight each. -/
def engineNo (addr : Nat) (id : EngineId) : Nat :=
  addr * 8 + (match id.dir with | .toDevice => 0 | .fromDevice => 4) + id.channel

/-- The engines up to the last channel, in the order in which they are gone through. -/
def ProbedDev.engines (d : ProbedDev) : List EngineId :=
  (List.range d.h2cChannelMax).map (fun i => ⟨.toDevice, i⟩)
    ++ (List.range d.c2hChannelMax).map (fun i => ⟨.fromDevice, i⟩)

section Steps

/-- `xdma_thread_add_work()` for each engine of a device, as `engine_init()` calls it in poll mode. -/
def Kthreads.addEngines (env : ProbeEnv) (addr : Nat) (d : ProbedDev) (k : Kthreads) : Kthreads :=
  if env.pollMode then
    d.engines.foldl (fun k id => xdmaThreadAddWork k (engineNo addr id)) k
  else
    k

/-- `xdma_thread_remove_work()` for each engine that is there, as `engine_destroy()` calls it in poll mode. -/
def Kthreads.removeEngines (env : ProbeEnv) (addr : Nat) (d : ProbedDev) (k : Kthreads) : Kthreads :=
  if env.pollMode then
    (d.engines.filter (fun id => (d.engine id).magic)).foldl
      (fun k id => xdmaThreadRemoveWork k (engineNo addr id)) k
  else
    k

/-- `probe_engines()` -/
def Xdev.probeEngines (env : ProbeEnv) (x : Xdev) (k : Kthreads) : Xdev × Kthreads :=
  let d := x.probed.probeEngines env
  ({ x with probed := d }, k.addEngines env x.addr d)

/-- `remove_engines()` -/
def Xdev.removeEngines (env : ProbeEnv) (x : Xdev) (k : Kthreads) : Xdev × Kthreads :=
  ({ x with probed := x.probed.removeEngines env }, k.removeEngines env x.addr x.probed)

/-- `request_regions()`; where that fails the device is assumed to be in use, so that it is not disabled later. -/
def Xdev.requestRegions (rv : Option Errno) (x : Xdev) : Xdev :=
  if rv.isSome then
    { x with regionsInUse := true, calls := .acquire .regions false :: x.calls }
  else
    { x with gotRegions := true, calls := .acquire .regions true :: x.calls }

/-- `set_dma_mask()` -/
def setDmaMask (dmaMask : Nat → Bool) : Option Errno :=
  if dmaMask 64 then none else if dmaMask 32 then none else some .einval

/-- `enable_msi_msix()` -/
def Xdev.enableMsiMsix (m : MsiSupport) (x : Xdev) : Xdev :=
  let (msix, msi, rv) := Xdma.enableMsiMsix m
  let calls := if msix || msi then .acquire .vectors rv.isNone :: x.calls else x.calls
  { x with msixEnabled := msix, msiEnabled := msi, calls := calls }

/-- `disable_msi_msix()` -/
def Xdev.disableMsiMsix (x : Xdev) : Xdev :=
  if x.msixEnabled then
    { x with msixEnabled := false, calls := .release .vectors :: x.calls }
  else if x.msiEnabled then
    { x with msiEnabled := false, calls := .release .vectors :: x.calls }
  else
    x

end Steps

section Unwind

/-- From the label `err_regions` on. -/
def Xdev.errRegions (x : Xdev) : Xdev :=
  if x.regionsInUse then x else { x with calls := .release .enabled :: x.calls }

/-- From the label `err_map` on. -/
def Xdev.errMap (x : Xdev) : Xdev :=
  (if x.gotRegions then { x with calls := .release .regions :: x.calls } else x).errRegions

/-- From the label `err_mask` on. -/
def Xdev.errMask (x : Xdev) : Xdev := { x with bars := unmapBars x.bars }.errMap

/-- From the label `err_engines` on. -/
def Xdev.errEngines (env : ProbeEnv) (x : Xdev) (k : Kthreads) : Xdev × Kthreads :=
  let (x, k) := x.removeEngines env k
  (x.errMask, k)

/-- From the label `err_msix` on. -/
def Xdev.errMsix (env : ProbeEnv) (x : Xdev) (k : Kthreads) : Xdev × Kthreads :=
  x.disableMsiMsix.errEngines env k

end Unwind

/-- What `xdma_device_open()` finds after `xdev_list_add()`. -/
structure SetUpEnv where
  enableDevice : Option Errno
  requestRegions : Option Errno
  bars : PciBars
  dmaMask : Nat → Bool
  probe : ProbeEnv
  msi : MsiSupport
  requestIrq : RequestIrq

section Open

variable (e : SetUpEnv)

/-- `xdma_device_open()` from `enable_msi_msix()` on. -/
def Xdev.setUpIrq (x : Xdev) (k : Kthreads) : (Xdev × Kthreads) × Option Errno :=
  let x := x.enableMsiMsix e.msi
  match (Xdma.enableMsiMsix e.msi).2.2 with
  | some err => (x.errEngines e.probe k, some err)
  | none =>
    match irqSetup x.irqConfig e.requestIrq x.irq with
    | (irq, some err) => ({ x with irq := irq }.errMsix e.probe k, some err)
    | (irq, none) => (({ x with irq := irq, phase := .opened }, k), none)

/-- `xdma_device_open()` between `xdev_list_add()` and `xdev_list_remove()`. -/
def Xdev.setUp (x : Xdev) (k : Kthreads) : (Xdev × Kthreads) × Option Errno :=
  match e.enableDevice with
  | some err => (({ x with calls := .acquire .enabled false :: x.calls }, k), some err)
  | none =>
    let x := { x with calls := .acquire .enabled true :: x.calls }.requestRegions e.requestRegions
    match e.requestRegions with
    | some err => ((x.errRegions, k), some err)
    | none =>
      match mapBars e.bars x.bars with
      | (bars, some err) => (({ x with bars := bars }.errMap, k), some err)
      | (bars, none) =>
        let x := { x with bars := bars }
        match setDmaMask e.dmaMask with
        | some err => ((x.errMask, k), some err)
        | none =>
          let (x, k) := x.probeEngines e.probe k
          x.setUpIrq e k

/-- `xdma_device_close()` before `xdev_list_remove()`. -/
def Xdev.close (env : ProbeEnv) (x : Xdev) (k : Kthreads) : Xdev × Kthreads :=
  { x with irq := irqTeardown x.irqConfig x.irq }.errMsix env k

end Open

section List

/-- The list of the devices, the completion threads, and the devices that were freed, the latest first. -/
structure Xdevs where
  xdevList : List Xdev
  kthreads : Kthreads
  allocated : Nat
  freed : List Xdev

def Xdevs.init : Xdevs := ⟨[], .init, 0, []⟩

/-- `xdev_list_add()`; a device that is not added is freed. -/
def Xdevs.listAdd (pollMode : Bool) (c : CreateEnv) (x : Xdev) (s : Xdevs) : Xdevs :=
  match s.xdevList.getLast? with
  | none =>
    let x := { x with idx := 0 }
    if pollMode then
      let (k, rv) := xdmaThreadsCreate c (x.probed.h2cChannelMax + x.probed.c2hChannelMax) s.kthreads
      if rv < 0 then
        { s with kthreads := k, freed := { x with phase := .unwound } :: s.freed }
      else
        { s with kthreads := k, xdevList := s.xdevList ++ [x] }
    else
      { s with xdevList := s.xdevList ++ [x] }
  | some last => { s with xdevList := s.xdevList ++ [{ x with idx := last.idx + 1 }] }

/-- `xdev_list_remove()`, after which the device is freed; `rv` is what `kthread_stop()` returns. -/
def Xdevs.listRemove (pollMode : Bool) (rv : Nat → Int) (x : Xdev) (s : Xdevs) : Xdevs :=
  let list := Table.remove Xdev.addr x.addr s.xdevList
  { s with
      xdevList := list
      kthreads := if pollMode && list.isEmpty then xdmaThreadsDestroy rv s.kthreads else s.kthreads
      freed := x :: s.freed
  }

/-- The device of a PCI device. -/
def Xdevs.find (s : Xdevs) (slot : Nat) (phase : XdevPhase) : Option Xdev :=
  s.xdevList.find? (fun x => x.slot == slot && x.phase == phase)

def Xdevs.setXdev (s : Xdevs) (x : Xdev) : Xdevs :=
  { s with xdevList := Table.replace Xdev.addr x s.xdevList }

/--
A step of the driver, for a PCI device: `xdma_device_open()` up to and including `xdev_list_add()` and from there
on, `xdma_device_offline()`, `xdma_device_online()`, `xdma_device_close()` before `xdev_list_remove()`, and that.
-/
inductive XdevEvent where
  | add (pdev : PciDev) (a : ChannelArgs) (kzalloc pollMode : Bool) (c : CreateEnv)
  | setUp (e : SetUpEnv)
  | offline
  | online (pollMode : Bool) (req : RequestIrq)
  | close (env : ProbeEnv)
  | remove (pollMode : Bool) (rv : Nat → Int)

/-- A PCI device has one device at a time. -/
def Xdevs.step (s : Xdevs) : Nat × XdevEvent → Option Xdevs
  | (slot, .add pdev a kzalloc pollMode c) =>
    if s.xdevList.any (fun x => x.slot == slot) then
      none
    else if !kzalloc then
      some s
    else
      some ({ s with allocated := s.allocated + 1 }.listAdd pollMode c (.alloc slot s.allocated pdev a))
  | (slot, .setUp e) =>
    (s.find slot .listed).map (fun x =>
      let ((x, k), rv) := x.setUp e s.kthreads
      { s with kthreads := k }.setXdev (if rv.isSome then { x with phase := .unwound } else x))
  | (slot, .offline) =>
    (s.find slot .opened).map (fun x => s.setXdev { x with irq := xdmaDeviceOffline x.irqConfig x.irq })
  | (slot, .online pollMode req) =>
    (s.find slot .opened).map (fun x =>
      s.setXdev { x with irq := xdmaDeviceOnline x.irqConfig pollMode req x.irq })
  | (slot, .close env) =>
    (s.find slot .opened).map (fun x =>
      let (x, k) := x.close env s.kthreads
      { s with kthreads := k }.setXdev { x with phase := .unwound })
  | (slot, .remove pollMode rv) =>
    (s.find slot .unwound).map (fun x => s.listRemove pollMode rv x)

end List

end Xdma
