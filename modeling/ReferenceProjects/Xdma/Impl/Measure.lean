import ReferenceProjects.Lib.Ledger
import ReferenceProjects.Xdma.Impl.Perf

/-!
This module contains the performance measurement with its memory and its error exits:
`xdma_performance_submit()`, `engine_cyclic_stop()`, and the ioctls `IOCTL_XDMA_PERF_START`,
`IOCTL_XDMA_PERF_STOP` and `IOCTL_XDMA_PERF_GET`.
-/

namespace Xdma

/--
An engine with the pointers that a measurement sets, `engine->desc` and `engine->perf_buf_virt`; `none`
is `NULL`.
-/
structure Measurement where
  drv : Driver
  desc : Option (BitVec 64)
  perfBufVirt : Option (BitVec 64)
  perfBufBus : BitVec 64

/-- What `xdma_performance_submit()` allocates. -/
inductive PerfRes where
  | perfBuf
  | transfer
  | desc
  deriving DecidableEq, Repr

abbrev PerfCall := Ledger.Call PerfRes

/--
What the kernel answers the allocations of one `xdma_performance_submit()`: a buffer and a ring with the
addresses that the CPU and the bus have for them, and whether there is memory for the transfer.
-/
structure PerfAlloc where
  perfBuf : Option (BitVec 64 × BitVec 64)
  transfer : Bool
  desc : Option (BitVec 64 × BitVec 64)
  deriving DecidableEq, Repr

/--
What `xdma_performance_submit()` returns and leaves behind; `strayDel` says that it called `list_del()`
on an entry that is in no list.
-/
structure PerfResult where
  ret : Except Errno Unit
  m : Measurement
  calls : List PerfCall
  strayDel : Bool

/-- The label `err_engine_transfer`. -/
def errEngineTransfer (err : Errno) (m : Measurement) (calls : List PerfCall) (strayDel : Bool)
    : PerfResult :=
  let calls := if m.perfBufVirt.isSome then .release .perfBuf :: calls else calls
  ⟨.error err, { m with perfBufVirt := none }, calls, strayDel⟩

/-- The label `err_engine_desc`. -/
def errEngineDesc (t : XferPtr) (err : Errno) (m : Measurement) (calls : List PerfCall) : PerfResult :=
  let strayDel := decide (t ∉ m.drv.engine.transferList)
  let drv := { m.drv with
    engine.transferList := m.drv.engine.transferList.erase t
    hist.live := m.drv.hist.live.filter (fun u => u ≠ t)
  }
  errEngineTransfer err { m with drv := drv } (.release .transfer :: calls) strayDel

/-- The label `err_dma_desc`. -/
def errDmaDesc (freeDesc : Bool) (t : XferPtr) (err : Errno) (m : Measurement) (calls : List PerfCall)
    : PerfResult :=
  let calls := if freeDesc && m.desc.isSome then .release .desc :: calls else calls
  errEngineDesc t err { m with desc := none } calls

/-- The descriptor list of a measurement and `free_desc`; `none` where it cannot be allocated. -/
def perfRing (a : PerfAlloc) (m : Measurement) : Option (Measurement × Bool) :=
  if m.desc.isSome then
    some (m, false)
  else
    match a.desc with
    | none => none
    | some (virt, bus) =>
      let drv := { m.drv with engine.desc := fun _ => .zero, engine.descBus := bus }
      some ({ m with drv := drv, desc := some virt }, true)

/--
`xdma_performance_submit()` from `transfer_desc_init()` up to `transfer_queue()`, with the driver that it
leaves behind in either case.
-/
def performanceBuild (s : Driver) (t : XferPtr) (perfBufBus : BitVec 64) (sizeInDesc num : Nat)
    : Driver × Except Errno Unit :=
  let xfer := { XdmaTransfer.zero s.engine.dir with descNum := num, descBus := s.engine.descBus }
  let s := { s with xfer := Function.update s.xfer t xfer, hist.live := t :: s.hist.live }
  match transferDescInit s.engine.desc 0 s.engine.descBus num with
  | .error err => (s, .error err)
  | .ok desc =>
    let desc := Loop.rewrite (fun _ d => xdmaDescSet d perfBufBus 0 sizeInDesc s.engine.dir) 0 desc num
    -- stop engine and request interrupt on last descriptor
    match xdmaDescControlSet (desc 0) 0 with
    | .error err => ({ s with engine.desc := desc }, .error err)
    | .ok first =>
      let desc := Function.update desc 0 first
      -- create a linked loop
      let desc := Function.update desc (num - 1) (xdmaDescLink (desc (num - 1)) (some s.engine.descBus))
      let xfer := { xfer with cyclic := true }
      ({ s with engine.desc := desc, xfer := Function.update s.xfer t xfer }, .ok ())

variable (p : ModuleParam)

/-- `xdma_performance_submit()`; `t` is the transfer that it allocates. -/
def xdmaPerformanceSubmit (a : PerfAlloc) (t : XferPtr) (m : Measurement) (sizeInDesc : Nat) (hw : HwRegs)
    : PerfResult :=
  match perfDescNum sizeInDesc with
  | none => ⟨.error .einval, m, [], false⟩
  | some num =>
    match a.perfBuf with
    | none => ⟨.error .enomem, { m with perfBufVirt := none }, [.acquire .perfBuf false], false⟩
    | some (virt, bus) =>
      let m := { m with perfBufVirt := some virt, perfBufBus := bus }
      let calls := [.acquire .perfBuf true]
      if !a.transfer then
        errEngineTransfer .enomem m (.acquire .transfer false :: calls) false
      else
        let calls := .acquire .transfer true :: calls
        match perfRing a m with
        | none => errEngineDesc t .enomem m (.acquire .desc false :: calls)
        | some (m, freeDesc) =>
          let calls := if freeDesc then .acquire .desc true :: calls else calls
          match performanceBuild m.drv t bus sizeInDesc num with
          | (drv, .error err) => errDmaDesc freeDesc t err { m with drv := drv } calls
          | (drv, .ok ()) =>
            match transferQueue p drv t hw with
            | .error err => errDmaDesc freeDesc t err { m with drv := drv } calls
            | .ok drv => ⟨.ok (), { m with drv := drv }, calls, false⟩

/-- `engine_cyclic_stop()`, with the transfer that it returns. -/
def engineCyclicStop (m : Measurement) : Measurement × Option XferPtr :=
  match m.drv.engine.transferList with
  | [] => (m, none)
  | t :: rest =>
    let drv := xdmaEngineStop p m.drv
    if (drv.xfer t).cyclic then
      ({ m with drv := { drv with engine.transferList := rest }, perfBufVirt := none }, some t)
    else
      ({ m with drv := drv }, some t)

/-- `IOCTL_XDMA_PERF_V1` -/
def ioctlXdmaPerfV1 : BitVec 32 := 1

/--
A call of `ioctl_do_perf_start()`: whether there is memory for the parameters, what is in them after
`copy_from_user()`, and what the submission needs.
-/
structure PerfStart where
  kzalloc : Bool
  version : BitVec 32
  perf : XdmaPerformanceIoctl
  alloc : PerfAlloc
  run : Nat
  hw : HwRegs
  deriving Repr

/-- `ioctl_do_perf_start()` -/
def ioctlDoPerfStart (c : PerfStart) (m : Measurement) : Except Errno Nat × Measurement :=
  -- performance measurement already running on this engine?
  if m.drv.engine.xdmaPerf.isSome then
    (.error .ebusy, m)
  else if !c.kzalloc then
    (.error .enomem, m)
  else
    let m := { m with drv := { m.drv with engine.xdmaPerf := some c.perf } }
    -- what `copy_from_user()` returns is never negative
    if c.version ≠ ioctlXdmaPerfV1 then
      (.error .einval, m)
    else
      let r := xdmaPerformanceSubmit p c.alloc (.perf c.run) m c.perf.transferSize c.hw
      (r.ret.map (fun _ => 0), r.m)

/-- `get_perf_stats()`, as far as the engine functions use it. -/
def getPerfStats (m : Measurement) (completedDescCount : BitVec 32) : Measurement :=
  { m with drv := { m.drv with
      engine.xdmaPerf := m.drv.engine.xdmaPerf.map
        (fun perf => { perf with iterations := completedDescCount }) } }

/--
`ioctl_do_perf_stop()`; `notCopied` is what `copy_to_user()` returns. There is no step where the transfer
it frees is a part of a request.
-/
def ioctlDoPerfStop (notCopied : Nat) (completedDescCount : BitVec 32) (m : Measurement)
    : Option (Except Errno Nat × Measurement) :=
  if m.drv.engine.xdmaPerf.isNone then
    some (.error .einval, m)
  else
    match engineCyclicStop p m with
    | (m, none) => some (.error .einval, m)
    | (_, some (.tfer _ _)) => none
    | (m, some (.perf run)) =>
      let m := getPerfStats m completedDescCount
      if notCopied ≠ 0 then
        some (.ok notCopied, m)
      else
        some (.ok 0, { m with drv := { m.drv with
          engine.xdmaPerf := none
          hist.live := m.drv.hist.live.filter (fun u => u ≠ .perf run) } })

inductive MeasureEvent where
  | start (c : PerfStart)
  | stop (notCopied : Nat) (completedDescCount : BitVec 32)
  | get (completedDescCount : BitVec 32)
  /-- an interrupt or a write back of the hardware is serviced -/
  | service (descWriteback : BitVec 32) (hw : HwRegs)
  /-- the device goes offline or comes back, the engine is asked to shut down or not -/
  | device (offline : Bool) (shutdown : ShutdownState)
  deriving Repr

/-- One step; the address of a new transfer is not in use. -/
def Measurement.step (m : Measurement) : MeasureEvent → Option Measurement
  | .start c =>
    if XferPtr.perf c.run ∈ m.drv.engine.transferList then
      none
    else
      some (ioctlDoPerfStart p c m).2
  | .stop notCopied completedDescCount =>
    (ioctlDoPerfStop p notCopied completedDescCount m).map Prod.snd
  | .get completedDescCount => some (getPerfStats m completedDescCount)
  | .service descWriteback hw => some { m with drv := engineService p m.drv descWriteback hw }
  | .device offline shutdown =>
    some { m with drv := { m.drv with offline := offline, engine.shutdown := shutdown } }

end Xdma
