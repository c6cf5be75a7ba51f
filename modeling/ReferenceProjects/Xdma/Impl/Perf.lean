import ReferenceProjects.Xdma.Impl.System

/-!
This module contains the performance measurement of an engine, a cyclic transfer over the start of
the descriptor ring: `xdma_performance_submit()` and `engine_cyclic_stop()`, as the ioctls of the
character device call them, next to the submissions.
-/

namespace Xdma

/-- `XDMA_PERF_NUM_DESC` -/
def xdmaPerfNumDesc : Nat := 128

/-- The number of descriptors in the loop of a performance run; `none` for a size that is refused. -/
def perfDescNum (transferSize : Nat) : Option Nat :=
  let maxConsistentSize := xdmaPerfNumDesc * 32 * 1024
  if transferSize > maxConsistentSize then
    none
  else if transferSize * xdmaPerfNumDesc > maxConsistentSize then
    some (maxConsistentSize / transferSize)
  else
    some xdmaPerfNumDesc

/-- The descriptors of a performance run, a linked loop at the start of the ring. -/
def perfDesc (e : XdmaEngine) (perfBufBus : BitVec 64) (sizeInDesc num : Nat) : Nat → XdmaDesc :=
  let desc := keepOnError (transferDescInit e.desc 0 e.descBus num) e.desc
  let desc := Loop.rewrite (fun _ d => xdmaDescSet d perfBufBus 0 sizeInDesc e.dir) 0 desc num
  let desc := Function.update desc 0 (keepOnError (xdmaDescControlSet (desc 0) 0) (desc 0))
  Function.update desc (num - 1) (xdmaDescLink (desc (num - 1)) (some e.descBus))

/-- `xdma_performance_submit()` up to `transfer_queue()`, for the new transfer `t`. -/
def performanceInit (s : Driver) (t : XferPtr) (perfBufBus : BitVec 64) (sizeInDesc num : Nat)
    : Driver :=
  { s with
      engine.desc := perfDesc s.engine perfBufBus sizeInDesc num
      xfer := Function.update s.xfer t
        { XdmaTransfer.zero s.engine.dir with
            descNum := num, descBus := s.engine.descBus, cyclic := true }
      hist.live := t :: s.hist.live
  }

/-- The submissions and the measurement, with the transfer that it built and did not queue yet. -/
structure PerfSys where
  sys : Sys
  built : Option XferPtr

inductive PerfEvent where
  /-- what the submissions do, and the servicing of the engine -/
  | sys (e : Event)
  /-- a measurement is started; `perfBufBus` is `none` where an allocation fails -/
  | start (run : Nat) (perf : XdmaPerformanceIoctl) (perfBufBus : Option (BitVec 64))
  | queue (hw : HwRegs)
  | stop
  deriving Repr

variable (p : ModuleParam)

/--
`engine_cyclic_stop()` and the release of the transfer it returns, the first of the queue. Where that
is a part of a request, releasing it corrupts the kernel's memory: there is no step.
-/
def performanceStop (s : Driver) : Option Driver :=
  match s.engine.xdmaPerf, s.engine.transferList with
  | none, _ | some _, [] => some s
  | some _, .tfer _ _ :: _ => none
  | some _, .perf run :: rest =>
    let s := xdmaEngineStop p s
    let list := if (s.xfer (.perf run)).cyclic then rest else .perf run :: rest
    some { s with
      engine.transferList := list
      engine.xdmaPerf := none
      hist.live := s.hist.live.filter (fun u => u ≠ .perf run)
    }

/--
One step. A measurement that `transfer_queue()` refuses unlinks a transfer that was never linked,
which the kernel does not survive: there is no step.
-/
def PerfSys.step (s : PerfSys) : PerfEvent → Option PerfSys
  | .sys e => (s.sys.step p e).map (fun sys => { s with sys := sys })
  | .start run perf perfBufBus =>
    let t := XferPtr.perf run
    if s.sys.drv.engine.xdmaPerf.isSome then
      some s
    else if t ∈ s.sys.drv.hist.live ∨ t ∈ s.sys.drv.engine.transferList then
      -- the address of a new transfer is not in use
      none
    else
      let drv := { s.sys.drv with engine.xdmaPerf := some perf }
      match perfDescNum perf.transferSize, perfBufBus with
      | some num, some bus =>
        let drv := performanceInit drv t bus perf.transferSize num
        some ⟨{ s.sys with drv := drv }, some t⟩
      | _, _ => some { s with sys.drv := drv }
  | .queue hw =>
    match s.built with
    | none => none
    | some t =>
      match transferQueue p s.sys.drv t hw with
      | .error _ => none
      | .ok drv => some ⟨{ s.sys with drv := drv }, none⟩
  | .stop => (performanceStop p s.sys.drv).map (fun drv => { s with sys.drv := drv })

end Xdma
