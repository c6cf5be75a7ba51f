import ReferenceProjects.Xdma.Impl.Measure
import ReferenceProjects.Xdma.Lemmas.Queue

/-!
This module contains the error exits of `xdma_performance_submit()`: where it fails, what it gives back,
and what of the engine is as it was before.
-/

namespace Xdma

/-- Where `xdma_performance_submit()` fails. -/
inductive PerfFailure where
  | size
  | perfBuf
  | transfer
  | desc
  | refused
  deriving DecidableEq, Repr

/-- The first step that fails: the size, an allocation, or a device that takes no transfers. -/
def perfFailure (a : PerfAlloc) (m : Measurement) (sizeInDesc : Nat) : Option PerfFailure :=
  if (perfDescNum sizeInDesc).isNone then
    some .size
  else if a.perfBuf.isNone then
    some .perfBuf
  else if !a.transfer then
    some .transfer
  else if m.desc.isNone && a.desc.isNone then
    some .desc
  else if m.drv.offline || m.drv.engine.shutdown.request then
    some .refused
  else
    none

/--
The submission returned an error, the engine has the descriptor ring, the queue and the buffer that it
had, and no entry was unlinked that was not linked.
-/
structure PerfUndone (m : Measurement) (r : PerfResult) : Prop where
  error : ∃ err, r.ret = .error err
  desc : r.m.desc = m.desc
  descBus : r.m.drv.engine.descBus = m.drv.engine.descBus
  transferList : r.m.drv.engine.transferList = m.drv.engine.transferList
  perfBufVirt : r.m.perfBufVirt = m.perfBufVirt
  linked : r.strayDel = false

section Build

theorem xdmaDescControlSet_zero (d : XdmaDesc)
    : ∃ d', xdmaDescControlSet d 0 = .ok d' := by
  unfold xdmaDescControlSet
  simp

theorem perfDescNum_bounds {sizeInDesc num : Nat} (h : perfDescNum sizeInDesc = some num)
    : 0 < num ∧ num ≤ xdmaPerfNumDesc := by
  unfold perfDescNum xdmaPerfNumDesc at *
  dsimp only at h
  split at h
  . contradiction
  . next hle =>
    split at h
    . next hlong =>
      rw [Option.some.injEq] at h
      have hpos : 0 < sizeInDesc := by omega
      subst h
      constructor
      . apply Nat.div_pos (by omega) hpos
      . apply Nat.le_of_lt_succ
        rw [Nat.div_lt_iff_lt_mul hpos]
        omega
    . rw [Option.some.injEq] at h
      omega

theorem performanceBuild_eq (s : Driver) (t : XferPtr) (perfBufBus : BitVec 64) (sizeInDesc : Nat)
    {num : Nat} (hnum : num ≤ xdmaTransferMaxDesc)
    : performanceBuild s t perfBufBus sizeInDesc num
        = (performanceInit s t perfBufBus sizeInDesc num, .ok ()) := by
  unfold performanceBuild performanceInit perfDesc
  have hinit : ∃ desc, transferDescInit s.engine.desc 0 s.engine.descBus num = .ok desc := by
    unfold transferDescInit
    rw [if_neg (by omega)]
    exact ⟨_, rfl⟩
  obtain ⟨desc, hdesc⟩ := hinit
  dsimp only
  rw [hdesc]
  dsimp only [keepOnError]
  obtain ⟨first, hfirst⟩ := xdmaDescControlSet_zero
    (Loop.rewrite (fun _ d => xdmaDescSet d perfBufBus 0 sizeInDesc s.engine.dir) 0 desc num 0)
  rw [hfirst]
  dsimp only
  rw [Function.update_idem]

end Build

section Submit

variable (p : ModuleParam) {a : PerfAlloc} {t : XferPtr} {m : Measurement} {sizeInDesc : Nat} (hw : HwRegs)

/-- A transfer with descriptors is refused exactly by a device that is offline or an engine that is
being shut down. -/
theorem transferQueue_isOk_iff (s : Driver) (t : XferPtr) (hw : HwRegs) (hnum : (s.xfer t).descNum ≠ 0)
    : (∃ q, transferQueue p s t hw = .ok q) ↔ (s.offline || s.engine.shutdown.request) = false := by
  rw [Bool.or_eq_false_iff]
  constructor
  . rintro ⟨q, hq⟩
    have hok := transferQueue_ok hq
    exact ⟨hok.2.1, (transferQueueLocked_cases hok.2.2).1⟩
  . rintro ⟨honline, hopen⟩
    obtain ⟨q, hq⟩ := transferQueueLocked_isOk p hopen t hw
    refine ⟨q, ?_⟩
    simp only [transferQueue, (transferQueueCheck_ok_iff s t).mpr ⟨hnum, honline⟩, bind, Except.bind]
    exact hq

structure PerfLeaves (f : PerfFailure) (m : Measurement) (r : PerfResult) : Prop where
  error : ∃ err, r.ret = .error err
  transferList : r.m.drv.engine.transferList = m.drv.engine.transferList
  xdmaPerf : r.m.drv.engine.xdmaPerf = m.drv.engine.xdmaPerf
  perfBufVirt : r.m.perfBufVirt = if f = .size then m.perfBufVirt else none
  strayDel : r.strayDel = true ↔ f = .desc ∨ f = .refused
  ring : r.strayDel = false → r.m.desc = m.desc ∧ r.m.drv.engine.descBus = m.drv.engine.descBus
  held : Ledger.held r.calls = []

theorem errEngineDesc_leaves {f : PerfFailure} (hf : f = .desc ∨ f = .refused) {err : Errno}
    (m' : Measurement) (hlist : m'.drv.engine.transferList = m.drv.engine.transferList)
    (hperf : m'.drv.engine.xdmaPerf = m.drv.engine.xdmaPerf)
    (ht : t ∉ m.drv.engine.transferList) (hbuf : m'.perfBufVirt.isSome = true) {calls : List PerfCall}
    (hcalls : Ledger.held calls = [.transfer, .perfBuf])
    : PerfLeaves f m (errEngineDesc t err m' calls) := by
  have hstray : (errEngineDesc t err m' calls).strayDel = true := by
    simp only [errEngineDesc, errEngineTransfer, hlist, ht, not_false_eq_true, decide_true]
  constructor
  . exact ⟨err, rfl⟩
  . simp only [errEngineDesc, errEngineTransfer, hlist, List.erase_of_not_mem ht]
  . exact hperf
  . rw [if_neg (by rintro rfl; cases hf <;> contradiction)]
    rfl
  . exact ⟨fun _ => hf, fun _ => hstray⟩
  . rw [hstray]
    intro h
    contradiction
  . simp only [errEngineDesc, errEngineTransfer, hbuf, ↓reduceIte, Ledger.held, hcalls,
      List.erase_cons_head]

theorem errDmaDesc_leaves {err : Errno} {freeDesc : Bool} (m' : Measurement)
    (hlist : m'.drv.engine.transferList = m.drv.engine.transferList)
    (hperf : m'.drv.engine.xdmaPerf = m.drv.engine.xdmaPerf)
    (ht : t ∉ m.drv.engine.transferList) (hbuf : m'.perfBufVirt.isSome = true)
    (hdesc : m'.desc.isSome = true)
    : let calls := [.acquire .transfer true, .acquire .perfBuf true]
      PerfLeaves .refused m
        (errDmaDesc freeDesc t err m' (if freeDesc then .acquire .desc true :: calls else calls)) := by
  intro calls
  unfold errDmaDesc
  apply errEngineDesc_leaves (.inr rfl) { m' with desc := none } hlist hperf ht hbuf
  cases freeDesc with
  | true => simp only [hdesc, Bool.and_self, ↓reduceIte, Ledger.held, List.erase_cons_head, calls]
  | false => rfl

/-- The measurement with its buffer, from the label of the descriptor list on. -/
def Measurement.withBuf (m : Measurement) (virt bus : BitVec 64) : Measurement :=
  { m with perfBufVirt := some virt, perfBufBus := bus }

theorem perfRing_none (h : (m.desc.isNone && a.desc.isNone) = true)
    : perfRing a m = none := by
  rw [Bool.and_eq_true, Option.isNone_iff_eq_none, Option.isNone_iff_eq_none] at h
  unfold perfRing
  rw [h.1, h.2]
  rfl

/-- The ring that a submission works with: the one there was, or a new one. -/
structure PerfRing (m m' : Measurement) : Prop where
  desc : m'.desc.isSome = true
  transferList : m'.drv.engine.transferList = m.drv.engine.transferList
  xdmaPerf : m'.drv.engine.xdmaPerf = m.drv.engine.xdmaPerf
  perfBufVirt : m'.perfBufVirt = m.perfBufVirt
  gate : (m'.drv.offline || m'.drv.engine.shutdown.request)
    = (m.drv.offline || m.drv.engine.shutdown.request)

theorem perfRing_some (h : (m.desc.isNone && a.desc.isNone) = false)
    : ∃ m' freeDesc, perfRing a m = some (m', freeDesc) ∧ PerfRing m m' := by
  unfold perfRing
  cases hdesc : m.desc with
  | some ring => exact ⟨m, false, rfl, by rw [hdesc]; rfl, rfl, rfl, rfl, rfl⟩
  | none =>
    cases hnew : a.desc with
    | none =>
      rw [hdesc, hnew] at h
      contradiction
    | some ring => exact ⟨_, true, rfl, rfl, rfl, rfl, rfl, rfl⟩

section Ring

variable {num : Nat} {virt bus : BitVec 64} (hnum : perfDescNum sizeInDesc = some num)
variable (hbuf : a.perfBuf = some (virt, bus)) (htransfer : a.transfer = true)

include hnum hbuf htransfer

theorem perfFailure_ring
    : perfFailure a m sizeInDesc
        =
      if m.desc.isNone && a.desc.isNone then
        some .desc
      else if m.drv.offline || m.drv.engine.shutdown.request then
        some .refused
      else
        none := by
  unfold perfFailure
  simp only [hnum, hbuf, htransfer, Option.isNone_some, Bool.not_true, Bool.false_eq_true, ↓reduceIte]

/--
With a buffer and a transfer it is left to find a ring and to queue the transfer.
-/
theorem xdmaPerformanceSubmit_ring
    : let calls := [.acquire .transfer true, .acquire .perfBuf true]
      xdmaPerformanceSubmit p a t m sizeInDesc hw
        =
      match perfRing a (m.withBuf virt bus) with
      | none => errEngineDesc t .enomem (m.withBuf virt bus) (.acquire .desc false :: calls)
      | some (m, freeDesc) =>
        let calls := if freeDesc then .acquire .desc true :: calls else calls
        let drv := performanceInit m.drv t bus sizeInDesc num
        match transferQueue p drv t hw with
        | .error err => errDmaDesc freeDesc t err { m with drv := drv } calls
        | .ok drv => ⟨.ok (), { m with drv := drv }, calls, false⟩ := by
  have hbounds := perfDescNum_bounds hnum
  have hbuild := fun s t bus => performanceBuild_eq s t bus sizeInDesc
    (show num ≤ xdmaTransferMaxDesc by unfold xdmaPerfNumDesc xdmaTransferMaxDesc at *; omega)
  unfold xdmaPerformanceSubmit
  simp only [hnum, hbuf, htransfer, Bool.not_true, Bool.false_eq_true, ↓reduceIte, hbuild]
  rfl

omit hbuf htransfer

theorem performanceInit_queue_iff {m' : Measurement} (hring : PerfRing (m.withBuf virt bus) m')
    : (∃ q, transferQueue p (performanceInit m'.drv t bus sizeInDesc num) t hw = .ok q)
        ↔ (m.drv.offline || m.drv.engine.shutdown.request) = false := by
  have hbounds := perfDescNum_bounds hnum
  have hgate : (m.drv.offline || m.drv.engine.shutdown.request)
      = (m'.drv.offline || m'.drv.engine.shutdown.request) := hring.gate.symm
  rw [hgate]
  apply transferQueue_isOk_iff
  simp only [performanceInit, Function.update_self]
  omega

end Ring

/--
What every failure leaves: the queue always as it was, the ring where no entry was unlinked that was not
linked, the buffer only where the size is refused.
-/
theorem xdmaPerformanceSubmit_leaves (ht : t ∉ m.drv.engine.transferList) {f : PerfFailure}
    (h : perfFailure a m sizeInDesc = some f)
    : PerfLeaves f m (xdmaPerformanceSubmit p a t m sizeInDesc hw) := by
  cases hnum : perfDescNum sizeInDesc with
  | none =>
    simp only [perfFailure, hnum, Option.isNone_none, ↓reduceIte, Option.some.injEq] at h
    unfold xdmaPerformanceSubmit
    rw [hnum]
    subst h
    exact ⟨⟨_, rfl⟩, rfl, rfl, rfl, by simp, fun _ => ⟨rfl, rfl⟩, rfl⟩
  | some num =>
    cases hbuf : a.perfBuf with
    | none =>
      simp only [perfFailure, hnum, hbuf, Option.isNone_some, Option.isNone_none, Bool.false_eq_true,
        ↓reduceIte, Option.some.injEq] at h
      unfold xdmaPerformanceSubmit
      rw [hnum, hbuf]
      subst h
      exact ⟨⟨_, rfl⟩, rfl, rfl, rfl, by simp, fun _ => ⟨rfl, rfl⟩, rfl⟩
    | some buf =>
      cases htransfer : a.transfer with
      | false =>
        simp only [perfFailure, hnum, hbuf, htransfer, Option.isNone_some, Bool.false_eq_true,
          Bool.not_false, ↓reduceIte, Option.some.injEq] at h
        unfold xdmaPerformanceSubmit
        rw [hnum, hbuf]
        simp only [htransfer, Bool.not_false, ↓reduceIte]
        subst h
        exact ⟨⟨_, rfl⟩, rfl, rfl, rfl, by simp [errEngineTransfer], fun _ => ⟨rfl, rfl⟩, rfl⟩
      | true =>
        rw [perfFailure_ring hnum hbuf htransfer] at h
        rw [xdmaPerformanceSubmit_ring p hw hnum hbuf htransfer]
        cases hdesc : m.desc.isNone && a.desc.isNone with
        | true =>
          simp only [hdesc, ↓reduceIte, Option.some.injEq] at h
          rw [perfRing_none (m := m.withBuf buf.1 buf.2) hdesc]
          subst h
          apply errEngineDesc_leaves (m := m) (.inl rfl) (m.withBuf buf.1 buf.2) rfl rfl ht rfl
          rfl
        | false =>
          obtain ⟨m', freeDesc, hsome, hring⟩ := perfRing_some (m := m.withBuf buf.1 buf.2) hdesc
          simp only [hdesc, Bool.false_eq_true, ↓reduceIte] at h
          rw [hsome]
          dsimp only
          split at h
          . next hgate =>
            rw [Option.some.injEq] at h
            subst h
            have hqueue := performanceInit_queue_iff p (t := t) hw hnum hring
            split
            . have hbuf' : m'.perfBufVirt.isSome = true := by
                rw [hring.perfBufVirt]
                rfl
              apply errDmaDesc_leaves (m := m)
                { m' with drv := performanceInit m'.drv t buf.2 sizeInDesc num } hring.transferList
                hring.xdmaPerf ht hbuf' hring.desc
            . next q hq =>
              have hopen := hqueue.mp ⟨q, hq⟩
              rw [hgate] at hopen
              contradiction
          . contradiction

/-- What a submission that does not fail leaves: its transfer is the last of the queue. -/
structure PerfQueued (t : XferPtr) (m : Measurement) (r : PerfResult) : Prop where
  ok : r.ret = .ok ()
  transferList : r.m.drv.engine.transferList = m.drv.engine.transferList ++ [t]
  xdmaPerf : r.m.drv.engine.xdmaPerf = m.drv.engine.xdmaPerf
  cyclic : (r.m.drv.xfer t).cyclic = true
  blocking : (r.m.drv.xfer t).cb = none

theorem xdmaPerformanceSubmit_queued (h : perfFailure a m sizeInDesc = none)
    : PerfQueued t m (xdmaPerformanceSubmit p a t m sizeInDesc hw) := by
  cases hnum : perfDescNum sizeInDesc with
  | none => simp [perfFailure, hnum] at h
  | some num =>
    cases hbuf : a.perfBuf with
    | none => simp [perfFailure, hnum, hbuf] at h
    | some buf =>
      cases htransfer : a.transfer with
      | false => simp [perfFailure, hnum, hbuf, htransfer] at h
      | true =>
        rw [perfFailure_ring hnum hbuf htransfer] at h
        split at h
        . contradiction
        . next hdesc =>
          rw [Bool.not_eq_true] at hdesc
          split at h
          . contradiction
          . next hgate =>
            rw [Bool.not_eq_true] at hgate
            obtain ⟨m', freeDesc, hsome, hring⟩ := perfRing_some (m := m.withBuf buf.1 buf.2) hdesc
            obtain ⟨q, hq⟩ := (performanceInit_queue_iff p (t := t) hw hnum
              hring).mpr hgate
            have heq := transferQueueLocked_eq (transferQueue_ok hq).2.2
            rw [xdmaPerformanceSubmit_ring p hw hnum hbuf htransfer, hsome]
            dsimp only
            rw [hq, heq]
            constructor
            . rfl
            . exact congrArg (· ++ [t]) hring.transferList
            . exact hring.xdmaPerf
            . simp only [Driver.enqueue, performanceInit, Function.update_self]
            . simp only [Driver.enqueue, performanceInit, Function.update_self, XdmaTransfer.zero]

end Submit

/--
The failures that are undone: a size that is refused, and an allocation of the buffer or the transfer
that fails while the engine has no buffer.
-/
def PerfUndoes (a : PerfAlloc) (m : Measurement) (sizeInDesc : Nat) : Prop :=
  match perfFailure a m sizeInDesc with
  | none | some .size => True
  | some .perfBuf | some .transfer => m.perfBufVirt = none
  | some .desc | some .refused => False

/--
A submission returns an error exactly where one of its steps fails, and it undoes what it did exactly
where that is the size, or the allocation of the buffer or of the transfer on an engine without a buffer.
-/
theorem xdmaPerformanceSubmit_undone_iff (p : ModuleParam) (a : PerfAlloc) (t : XferPtr)
    (m : Measurement) (sizeInDesc : Nat) (hw : HwRegs) (ht : t ∉ m.drv.engine.transferList)
    : let r := xdmaPerformanceSubmit p a t m sizeInDesc hw
      (r.ret = .ok () ↔ perfFailure a m sizeInDesc = none)
        ∧ ((r.ret ≠ .ok () → PerfUndone m r) ↔ PerfUndoes a m sizeInDesc) := by
  dsimp only
  unfold PerfUndoes
  cases hf : perfFailure a m sizeInDesc with
  | none =>
    have hok := (xdmaPerformanceSubmit_queued p (t := t) hw hf).ok
    exact ⟨⟨fun _ => rfl, fun _ => hok⟩, ⟨fun _ => trivial, fun _ h => absurd hok h⟩⟩
  | some f =>
    have hleaves := xdmaPerformanceSubmit_leaves p hw ht hf
    generalize xdmaPerformanceSubmit p a t m sizeInDesc hw = r at *
    obtain ⟨err, herr⟩ := hleaves.error
    have hne : r.ret ≠ .ok () := by
      rw [herr]
      intro h
      contradiction
    have hundone : PerfUndone m r
        ↔ (if f = .size then m.perfBufVirt else none) = m.perfBufVirt ∧ ¬ (f = .desc ∨ f = .refused) := by
      rw [← hleaves.strayDel, ← hleaves.perfBufVirt, Bool.not_eq_true]
      constructor
      . intro h
        exact ⟨h.perfBufVirt, h.linked⟩
      . rintro ⟨hbuf, hlinked⟩
        have hring := hleaves.ring hlinked
        exact ⟨hleaves.error, hring.1, hring.2, hleaves.transferList, hbuf, hlinked⟩
    refine ⟨⟨fun h => absurd h hne, fun h => by contradiction⟩, ?_⟩
    rw [forall_prop_of_true hne, hundone]
    cases f with
    | size => simp
    | perfBuf => simp [eq_comm]
    | transfer => simp [eq_comm]
    | desc => simp
    | refused => simp

/-- An idle engine with the ring that it got when it was created. -/
def idleMeasurement (offline : Bool) : Measurement :=
  ⟨{ Driver.init (XdmaEngine.init .toDevice false 0x100000 0) with offline := offline }, some 0x5000, none, 0⟩

theorem xdmaPerformanceSubmit_undone_iff_oom
    : let r := xdmaPerformanceSubmit ⟨false, false, 4⟩ ⟨none, true, none⟩ (.perf 0) (idleMeasurement false)
        64 ⟨0, 0, 0, 0⟩
      (r.ret = .ok () ↔ perfFailure ⟨none, true, none⟩ (idleMeasurement false) 64 = none)
        ∧ ((r.ret ≠ .ok () → PerfUndone (idleMeasurement false) r)
            ↔ PerfUndoes ⟨none, true, none⟩ (idleMeasurement false) 64) :=
  xdmaPerformanceSubmit_undone_iff ⟨false, false, 4⟩ ⟨none, true, none⟩ (.perf 0) (idleMeasurement false) 64
    ⟨0, 0, 0, 0⟩ List.not_mem_nil

/--
On a device that is offline the submission fails with every allocation made: the ring of the engine is
gone, though it was not allocated here, and the transfer is unlinked, though it was not linked.
-/
theorem xdmaPerformanceSubmit_not_undone
    : let r := xdmaPerformanceSubmit ⟨false, false, 4⟩ ⟨some (0x7000, 0x200000), true, none⟩ (.perf 0)
        (idleMeasurement true) 64 ⟨0, 0, 0, 0⟩
      r.ret = .error .ebusy ∧ (idleMeasurement true).desc = some 0x5000 ∧ r.m.desc = none
        ∧ r.strayDel = true ∧ ¬ PerfUndone (idleMeasurement true) r := by
  refine ⟨rfl, rfl, rfl, by decide, ?_⟩
  intro h
  have hdesc := h.desc
  contradiction

end Xdma
