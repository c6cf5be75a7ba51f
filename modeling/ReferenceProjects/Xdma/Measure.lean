import ReferenceProjects.Lib.Run
import ReferenceProjects.Xdma.Eop
import ReferenceProjects.Xdma.Fault
import ReferenceProjects.Xdma.Undo

/-!
This module contains the runs of the performance measurement: `engine->xdma_perf`, which is its busy flag
and its parameters, over every sequence of its ioctls and everything the hardware does between them.
-/

namespace Xdma

/-- The queue of the engine holds a performance transfer. -/
def PerfInProgress (s : Driver) : Prop := ∃ t ∈ s.engine.transferList, (s.xfer t).cyclic = true

/-- `engine->xdma_perf` is set exactly while a measurement is in progress. -/
def Measurement.Consistent (m : Measurement) : Prop :=
  m.drv.engine.xdmaPerf.isSome = true ↔ PerfInProgress m.drv

/--
What a step of the ioctls has to do: a start is refused as busy only during a measurement, and leaves
`engine->xdma_perf` as `NULL` where it fails otherwise; a stop of a measurement releases it.
-/
def MeasureEvent.Meets (p : ModuleParam) (m : Measurement) (e : MeasureEvent) (m' : Measurement) : Prop :=
  match e with
  | .start c =>
    (m.drv.engine.xdmaPerf.isSome = true → PerfInProgress m.drv)
      ∧ ∀ err, (ioctlDoPerfStart p c m).1 = .error err → m.drv.engine.xdmaPerf = none →
          m'.drv.engine.xdmaPerf = none
  | .stop notCopied completedDescCount =>
    m.drv.engine.xdmaPerf.isSome = true →
      (ioctlDoPerfStop p notCopied completedDescCount m).map Prod.fst = some (.ok 0)
        ∧ m'.drv.engine.xdmaPerf = none ∧ m'.perfBufVirt = none
  | _ => True

/--
A service takes the head off the queue: the engine runs and completed descriptors or has an error, and
it is not the case that the engine waits for an end of packet that did not come.
-/
def HeadEnds (s : Driver) (t : XferPtr) (descWriteback : BitVec 32) (hw : HwRegs) : Prop :=
  let status :=
    if descWriteback &&& wbCountMask = 0 ∨ descWriteback &&& wbErrMask ≠ 0 then hw.statusRc
    else s.engine.status
  let count := serviceCount descWriteback hw
  s.engine.running = true ∧ count ≠ 0
    ∧ (status &&& errMask s.engine.dir ≠ 0
      ∨ ¬ count - s.engine.descDequeued < BitVec.ofNat 32 (s.xfer t).descNum
      ∨ s.engine.eopFlush = false
      ∨ eopFlags s.engine (s.xfer t) (count - s.engine.descDequeued).toNat
          &&& xferFlagStC2hEopRcved ≠ 0)

/--
The steps after which `engine->xdma_perf` still says whether there is a measurement: a start that finds no
memory for the parameters, or whose version is the one there is and whose submission does not fail; a stop
that can copy the result to the user; a service that leaves the measurement on the queue.
-/
def MeasureEvent.Allowed (m : Measurement) : MeasureEvent → Prop
  | .start c =>
    m.drv.engine.xdmaPerf.isSome = true ∨ c.kzalloc = false
      ∨ c.version = ioctlXdmaPerfV1 ∧ perfFailure c.alloc m c.perf.transferSize = none
  | .stop notCopied _ => m.drv.engine.xdmaPerf = none ∨ notCopied = 0
  | .service descWriteback hw =>
    ∀ t, m.drv.engine.transferList.head? = some t → ¬ HeadEnds m.drv t descWriteback hw
  | _ => True

section Service

variable (p : ModuleParam) (hw : HwRegs) {t : XferPtr}

/-- A step of the service that leaves the queue, and the transfer `t` a measurement. -/
structure MeasureFrame (t : XferPtr) (s s' : Driver) : Prop where
  transferList : s'.engine.transferList = s.engine.transferList
  measuring : s'.engine.xdmaPerf.isSome = s.engine.xdmaPerf.isSome
  cyclic : (s'.xfer t).cyclic = (s.xfer t).cyclic
  blocking : (s'.xfer t).cb = (s.xfer t).cb

theorem MeasureFrame.refl (s : Driver)
    : MeasureFrame t s s := ⟨rfl, rfl, rfl, rfl⟩

theorem MeasureFrame.trans {s s' s'' : Driver} (h : MeasureFrame t s s') (h' : MeasureFrame t s' s'')
    : MeasureFrame t s s'' where
  transferList := h'.transferList.trans h.transferList
  measuring := h'.measuring.trans h.measuring
  cyclic := h'.cyclic.trans h.cyclic
  blocking := h'.blocking.trans h.blocking

theorem engineServiceStatus_frame (s : Driver) (descWriteback : BitVec 32)
    : MeasureFrame t s (engineServiceStatus p s descWriteback hw) := by
  unfold engineServiceStatus engineServiceShutdown
  dsimp only
  split <;> split <;> exact ⟨rfl, rfl, rfl, rfl⟩

theorem engineServicePerf_frame (s : Driver) (descCompleted : BitVec 32)
    : MeasureFrame t s (engineServicePerf s descCompleted) := by
  unfold engineServicePerf
  split
  . apply MeasureFrame.refl
  . next h => exact ⟨rfl, by rw [h]; rfl, rfl, rfl⟩

theorem engineServiceResume_frame (s : Driver)
    : MeasureFrame t s (engineServiceResume p s hw) := by
  unfold engineServiceResume
  split
  . split
    . cases hstart : engineStart p s hw with
      | none => apply MeasureFrame.refl
      | some s' =>
        obtain ⟨_, u, rest, _, heq⟩ := engineStart_eq hstart
        rw [Option.getD_some, heq]
        exact ⟨rfl, rfl, rfl, rfl⟩
    . split <;> exact ⟨rfl, rfl, rfl, rfl⟩
  . split <;> exact ⟨rfl, rfl, rfl, rfl⟩

theorem xdmaEngineStop_measure (s : Driver)
    : MeasureFrame t s (xdmaEngineStop p s) := ⟨rfl, rfl, rfl, rfl⟩

theorem MeasureFrame.setXfer {s s' : Driver} (h : MeasureFrame t s s') {xfer : XdmaTransfer}
    (hcyclic : xfer.cyclic = (s.xfer t).cyclic) (hcb : xfer.cb = (s.xfer t).cb)
    : MeasureFrame t s (s'.setXfer t xfer) := by
  refine ⟨h.transferList, h.measuring, ?_, ?_⟩
  . rw [Driver.setXfer_xfer_self, hcyclic]
  . rw [Driver.setXfer_xfer_self, hcb]

theorem MeasureFrame.dequeue {s s' : Driver} (h : MeasureFrame t s s') (n : BitVec 32)
    : MeasureFrame t s { s' with engine.descDequeued := n } :=
  ⟨h.transferList, h.measuring, h.cyclic, h.blocking⟩

theorem finalVerdict_frame (s : Driver) (descCompleted : BitVec 32)
    : MeasureFrame t s (finalVerdict p s t descCompleted).1 := by
  have hrefl := MeasureFrame.refl (t := t) s
  unfold finalVerdict engineErrHandle engineServiceShutdown
  dsimp only
  split
  . dsimp only
    refine MeasureFrame.trans (MeasureFrame.setXfer hrefl ?_ ?_) (xdmaEngineStop_measure p _) <;> rfl
  . split
    . split
      . split
        . dsimp only
          refine MeasureFrame.setXfer hrefl ?_ ?_ <;> rfl
        . refine MeasureFrame.dequeue (MeasureFrame.setXfer (MeasureFrame.trans
            (MeasureFrame.setXfer hrefl ?_ ?_) (xdmaEngineStop_measure p _)) ?_ ?_) _ <;> rfl
      . refine MeasureFrame.dequeue (MeasureFrame.setXfer hrefl ?_ ?_) _ <;> rfl
    . refine MeasureFrame.dequeue (MeasureFrame.setXfer hrefl ?_ ?_) _ <;> rfl

theorem finalVerdict_ends (s : Driver) (descCompleted : BitVec 32)
    : (finalVerdict p s t descCompleted).2 = true
        ↔ s.engine.status &&& errMask s.engine.dir ≠ 0
          ∨ ¬ descCompleted < BitVec.ofNat 32 (s.xfer t).descNum
          ∨ s.engine.eopFlush = false
          ∨ eopFlags s.engine (s.xfer t) descCompleted.toNat &&& xferFlagStC2hEopRcved ≠ 0 := by
  unfold finalVerdict
  dsimp only
  split
  . next herr => exact ⟨fun _ => .inl herr, fun _ => rfl⟩
  . next herr =>
    split
    . next hlt =>
      split
      . next heop =>
        split
        . next hflag =>
          refine ⟨fun h => absurd h Bool.false_ne_true, ?_⟩
          rintro (h | h | h | h)
          . exact absurd h herr
          . exact absurd hlt h
          . rw [heop] at h
            contradiction
          . exact absurd hflag h
        . next hflag => exact ⟨fun _ => .inr (.inr (.inr hflag)), fun _ => rfl⟩
      . next heop => exact ⟨fun _ => .inr (.inr (.inl (Bool.not_eq_true _ ▸ heop))), fun _ => rfl⟩
    . next hge => exact ⟨fun _ => .inr (.inl hge), fun _ => rfl⟩

theorem engineServiceStatus_status (s : Driver) (descWriteback : BitVec 32)
    : (engineServiceStatus p s descWriteback hw).engine.status
        = if descWriteback &&& wbCountMask = 0 ∨ descWriteback &&& wbErrMask ≠ 0 then hw.statusRc
          else s.engine.status := by
  unfold engineServiceStatus engineServiceShutdown
  dsimp only
  split <;> split <;> rfl

/--
The service of a running engine that completed descriptors takes the head off as the verdict says.
-/
theorem headEnds_iff {s : Driver} {descWriteback : BitVec 32} (hrun : s.engine.running = true)
    (hcount : serviceCount descWriteback hw ≠ 0)
    : let count := serviceCount descWriteback hw
      let m := engineServiceStatus p s descWriteback hw
      HeadEnds s t descWriteback hw
        ↔ (finalVerdict p (engineServicePerf m count) t (count - m.engine.descDequeued)).2 = true := by
  dsimp only
  have hstatus := engineServiceStatus_status p hw s descWriteback
  have hdequeued := engineServiceStatus_dequeued p hw s descWriteback
  have hregs := (engineServiceStatus_regs p hw s descWriteback).eq
  generalize engineServiceStatus p s descWriteback hw = m at *
  have hm : m.engine.dir = s.engine.dir ∧ m.engine.eopFlush = s.engine.eopFlush ∧ m.xfer = s.xfer
      ∧ m.engine.cyclicResult = s.engine.cyclicResult := by
    rw [hregs]
    exact ⟨rfl, rfl, rfl, rfl⟩
  rw [finalVerdict_ends, engineServicePerf_eq]
  unfold HeadEnds eopFlags eopReceived
  dsimp only
  rw [hm.1, hm.2.1, hm.2.2.1, hm.2.2.2, hstatus, hdequeued]
  simp only [hrun, ne_eq, hcount, not_false_eq_true, true_and]

/-- A measurement `t` is the head of the queue, or was it before. -/
structure MeasureServed (t : XferPtr) (s s' : Driver) (list : List XferPtr) : Prop where
  transferList : s'.engine.transferList = list
  measuring : s'.engine.xdmaPerf.isSome = s.engine.xdmaPerf.isSome
  cyclic : (s'.xfer t).cyclic = true
  blocking : (s'.xfer t).cb = none

theorem MeasureServed.frame {s s' s'' : Driver} {list : List XferPtr} (h : MeasureServed t s s' list)
    (hframe : MeasureFrame t s' s'')
    : MeasureServed t s s'' list where
  transferList := hframe.transferList.trans h.transferList
  measuring := hframe.measuring.trans h.measuring
  cyclic := hframe.cyclic.trans h.cyclic
  blocking := hframe.blocking.trans h.blocking

section Head

variable {s : Driver} {rest : List XferPtr} (hlist : s.engine.transferList = t :: rest)
variable (hcyclic : (s.xfer t).cyclic = true) (hcb : (s.xfer t).cb = none)

include hlist hcyclic hcb

theorem countServed_measurement (count : BitVec 32)
    : let ends := (finalVerdict p (engineServicePerf s count) t (count - s.engine.descDequeued)).2
      MeasureServed t s (countServed p hw s count) (if ends then rest else t :: rest) := by
  have hperf := engineServicePerf_frame (t := t) s count
  have hstop : engineServiceTransferList p hw (rest.length + 1) (engineServicePerf s count) (some t)
      (count - s.engine.descDequeued)
      = (engineServicePerf s count, some t, count - s.engine.descDequeued) := by
    apply engineServiceTransferList_stop
    exact .inl (hperf.cyclic.trans hcyclic)
  have hverdict := finalVerdict_frame p (t := t) (engineServicePerf s count)
    (count - s.engine.descDequeued)
  have hframe := hperf.trans hverdict
  rw [countServed_head count hlist, hstop]
  dsimp only [engineServiceFinalTransfer]
  generalize finalVerdict p (engineServicePerf s count) t (count - s.engine.descDequeued) = v at *
  obtain ⟨s', ends⟩ := v
  have hkept := hframe.transferList.trans hlist
  have hcyclic' := hframe.cyclic.trans hcyclic
  have hcb' := hframe.blocking.trans hcb
  cases ends with
  | true =>
    have hblocking : (s'.listDel.xfer t).cb = none := hcb'
    dsimp only
    rw [engineTransferCompletion_of_blocking _ _ hblocking]
    exact ⟨congrArg List.tail hkept, hframe.measuring, hcyclic', hcb'⟩
  | false => exact ⟨hkept, hframe.measuring, hcyclic', hcb'⟩

/--
The service of a measurement at the head of the queue: it stays there, or it is taken off and nothing
else changes.
-/
theorem engineService_measurement (descWriteback : BitVec 32)
    : (HeadEnds s t descWriteback hw
        → MeasureServed t s (engineService p s descWriteback hw) rest)
      ∧ (¬ HeadEnds s t descWriteback hw
        → MeasureServed t s (engineService p s descWriteback hw) (t :: rest)) := by
  by_cases hrun : s.engine.running = true
  . have hstatus := engineServiceStatus_frame p hw (t := t) s descWriteback
    have hkept : MeasureServed t s (engineServiceStatus p s descWriteback hw) (t :: rest) :=
      ⟨hstatus.transferList.trans hlist, hstatus.measuring, hstatus.cyclic.trans hcyclic,
        hstatus.blocking.trans hcb⟩
    unfold engineService
    rw [if_neg (by simp [hrun])]
    dsimp only
    by_cases hcount : serviceCount descWriteback hw = 0
    . rw [if_pos hcount]
      exact ⟨fun h => absurd hcount h.2.1, fun _ => hkept⟩
    . have hends := headEnds_iff p hw (t := t) hrun hcount
      have hserved := countServed_measurement p hw hkept.transferList hkept.cyclic
        hkept.blocking (serviceCount descWriteback hw)
      dsimp only at hends hserved
      rw [if_neg hcount, engineServiceCount_eq, hends]
      generalize (finalVerdict p (engineServicePerf (engineServiceStatus p s descWriteback hw)
        (serviceCount descWriteback hw)) t _).2 = ends at hserved ⊢
      generalize countServed p hw (engineServiceStatus p s descWriteback hw)
        (serviceCount descWriteback hw) = c at *
      have hresumed : MeasureServed t s (if c.engine.eopFlush then c else engineServiceResume p c hw)
          (if ends then rest else t :: rest) := by
        split
        . exact ⟨hserved.transferList, hserved.measuring.trans hstatus.measuring, hserved.cyclic,
            hserved.blocking⟩
        . have hframe := hserved.frame (engineServiceResume_frame p hw c)
          exact ⟨hframe.transferList, hframe.measuring.trans hstatus.measuring, hframe.cyclic,
            hframe.blocking⟩
      cases ends with
      | true => exact ⟨fun _ => hresumed, fun h => absurd rfl h⟩
      | false => exact ⟨fun h => absurd h Bool.false_ne_true, fun _ => hresumed⟩
  . rw [Bool.not_eq_true] at hrun
    rw [engineService_idle hrun]
    refine ⟨fun h => ?_, fun _ => ⟨hlist, rfl, hcyclic, hcb⟩⟩
    rw [h.1] at hrun
    contradiction

end Head

theorem engineService_empty {s : Driver} (hlist : s.engine.transferList = []) (descWriteback : BitVec 32)
    : MeasureFrame t s (engineService p s descWriteback hw) := by
  have hstatus := engineServiceStatus_frame p hw (t := t) s descWriteback
  unfold engineService
  split
  . exact ⟨rfl, rfl, rfl, rfl⟩
  . dsimp only
    split
    . apply hstatus
    . generalize engineServiceStatus p s descWriteback hw = m at *
      have hempty : m.engine.transferList = [] := hstatus.transferList.trans hlist
      have hcount : countServed p hw m (serviceCount descWriteback hw) = m := by
        unfold countServed
        simp only [hempty, List.head?_nil, Option.isSome_none, Bool.false_eq_true, ↓reduceIte,
          List.length_nil]
        rfl
      rw [engineServiceCount_eq, hcount]
      split
      . apply hstatus
      . exact hstatus.trans (engineServiceResume_frame p hw m)

end Service

section Runs

variable {p : ModuleParam} {m m' : Measurement}

/-- `engine->xdma_perf` after the parameters are copied. -/
def Measurement.setXdmaPerf (m : Measurement) (perf : XdmaPerformanceIoctl) : Measurement :=
  { m with drv := { m.drv with engine.xdmaPerf := some perf } }

/-- No measurement and an empty queue, or a measurement that is alone on the queue. -/
inductive MeasureInv (m : Measurement) : Prop where
  | idle (hperf : m.drv.engine.xdmaPerf = none) (hlist : m.drv.engine.transferList = [])
  | measuring (run : Nat) (hperf : m.drv.engine.xdmaPerf.isSome = true)
      (hlist : m.drv.engine.transferList = [.perf run])
      (hcyclic : (m.drv.xfer (.perf run)).cyclic = true) (hcb : (m.drv.xfer (.perf run)).cb = none)

theorem not_inProgress {s : Driver} (hlist : s.engine.transferList = [])
    : ¬ PerfInProgress s := by
  rintro ⟨t, ht, _⟩
  rw [hlist] at ht
  contradiction

theorem MeasureInv.consistent (h : MeasureInv m)
    : m.Consistent := by
  unfold Measurement.Consistent
  cases h with
  | idle hperf hlist =>
    rw [hperf]
    exact ⟨fun h => absurd h Bool.false_ne_true, fun h => absurd h (not_inProgress hlist)⟩
  | measuring run hperf hlist hcyclic _ =>
    refine ⟨fun _ => ⟨.perf run, ?_, hcyclic⟩, fun _ => hperf⟩
    rw [hlist]
    apply List.mem_cons_self

theorem not_consistent (hperf : m.drv.engine.xdmaPerf.isSome = true)
    (hlist : m.drv.engine.transferList = [])
    : ¬ m.Consistent := by
  intro h
  apply not_inProgress hlist (h.mp hperf)

theorem ioctlDoPerfStart_eq (c : PerfStart) (hperf : m.drv.engine.xdmaPerf = none)
    : ioctlDoPerfStart p c m
        =
      if c.kzalloc = false then
        (.error .enomem, m)
      else if c.version ≠ ioctlXdmaPerfV1 then
        (.error .einval, m.setXdmaPerf c.perf)
      else
        let r := xdmaPerformanceSubmit p c.alloc (.perf c.run) (m.setXdmaPerf c.perf) c.perf.transferSize
          c.hw
        (r.ret.map (fun _ => 0), r.m) := by
  unfold ioctlDoPerfStart
  rw [hperf]
  simp only [Option.isSome_none, Bool.false_eq_true, ↓reduceIte, Bool.not_eq_true']
  rfl

theorem allowed_start_iff {c : PerfStart} (hperf : m.drv.engine.xdmaPerf = none)
    (halloc : ¬ c.kzalloc = false)
    : (MeasureEvent.start c).Allowed m
        ↔ c.version = ioctlXdmaPerfV1
          ∧ perfFailure c.alloc (m.setXdmaPerf c.perf) c.perf.transferSize = none := by
  have hsame : perfFailure c.alloc m c.perf.transferSize
      = perfFailure c.alloc (m.setXdmaPerf c.perf) c.perf.transferSize := rfl
  rw [← hsame]
  constructor
  . rintro (h | h | h)
    . rw [hperf] at h
      contradiction
    . contradiction
    . exact h
  . exact fun h => .inr (.inr h)

/--
A start on an idle engine, for every way it can go: with an allowed one the engine is idle or measures,
and it is idle after an error; with any other the pointer is set and the queue is empty.
-/
theorem ioctlDoPerfStart_idle (c : PerfStart) (hperf : m.drv.engine.xdmaPerf = none)
    (hlist : m.drv.engine.transferList = [])
    : let e := MeasureEvent.start c
      let r := ioctlDoPerfStart p c m
      (e.Allowed m → MeasureInv r.2 ∧ ∀ err, r.1 = .error err → r.2.drv.engine.xdmaPerf = none)
        ∧ (¬ e.Allowed m → ¬ r.2.Consistent) := by
  dsimp only
  rw [ioctlDoPerfStart_eq c hperf]
  split
  . next halloc =>
    exact ⟨fun _ => ⟨.idle hperf hlist, fun _ _ => hperf⟩, fun h => absurd (.inr (.inl halloc)) h⟩
  . next halloc =>
    rw [allowed_start_iff hperf halloc]
    split
    . next hversion =>
      refine ⟨fun h => absurd h.1 hversion, fun _ => ?_⟩
      exact not_consistent rfl hlist
    . next hversion =>
      rw [ne_eq, not_not] at hversion
      have hnew : XferPtr.perf c.run ∉ (m.setXdmaPerf c.perf).drv.engine.transferList := by
        rw [Measurement.setXdmaPerf, hlist]
        apply List.not_mem_nil
      cases hfailure : perfFailure c.alloc (m.setXdmaPerf c.perf) c.perf.transferSize with
      | none =>
        have hqueued := xdmaPerformanceSubmit_queued p (t := .perf c.run) c.hw hfailure
        refine ⟨fun _ => ⟨?_, ?_⟩, fun h => absurd ⟨hversion, rfl⟩ h⟩
        . apply MeasureInv.measuring c.run
          . rw [hqueued.xdmaPerf]
            rfl
          . rw [hqueued.transferList, Measurement.setXdmaPerf, hlist]
            rfl
          . exact hqueued.cyclic
          . exact hqueued.blocking
        . intro err herr
          dsimp only at herr
          rw [hqueued.ok] at herr
          contradiction
      | some f =>
        have hleaves := xdmaPerformanceSubmit_leaves p c.hw hnew hfailure
        refine ⟨fun h => absurd h.2 (Option.some_ne_none f), fun _ => ?_⟩
        apply not_consistent
        . rw [hleaves.xdmaPerf]
          rfl
        . rw [hleaves.transferList]
          exact hlist

/-- What a stop of a measurement does: it takes the transfer off, and releases the pointer if it can copy. -/
theorem ioctlDoPerfStop_measuring {run : Nat} (hperf : m.drv.engine.xdmaPerf.isSome = true)
    (hlist : m.drv.engine.transferList = [.perf run])
    (hcyclic : (m.drv.xfer (.perf run)).cyclic = true) (notCopied : Nat) (completedDescCount : BitVec 32)
    : ∃ r, ioctlDoPerfStop p notCopied completedDescCount m = some r
        ∧ r.2.drv.engine.transferList = [] ∧ r.2.perfBufVirt = none
        ∧ (notCopied = 0 → r.1 = .ok 0 ∧ r.2.drv.engine.xdmaPerf = none)
        ∧ (notCopied ≠ 0 → r.2.drv.engine.xdmaPerf.isSome = true) := by
  have hcyclic' : ((xdmaEngineStop p m.drv).xfer (.perf run)).cyclic = true := hcyclic
  have hsome : m.drv.engine.xdmaPerf.isNone = false := by
    rw [← Option.not_isSome, hperf]
    rfl
  unfold ioctlDoPerfStop engineCyclicStop
  rw [hsome, hlist]
  simp only [hcyclic', Bool.false_eq_true, ↓reduceIte]
  by_cases hcopied : notCopied = 0
  . subst hcopied
    exact ⟨_, rfl, rfl, rfl, fun _ => ⟨rfl, rfl⟩, fun h => absurd rfl h⟩
  . rw [if_pos hcopied]
    refine ⟨_, rfl, rfl, rfl, fun h => absurd h hcopied, fun _ => ?_⟩
    rw [getPerfStats, Option.isSome_map]
    exact hperf

theorem MeasureInv.frame (h : MeasureInv m) (hframe : ∀ t, MeasureFrame t m.drv m'.drv)
    : MeasureInv m' := by
  have hsome := (hframe (.perf 0)).measuring
  have hkept := (hframe (.perf 0)).transferList
  cases h with
  | idle hperf hlist =>
    rw [hperf, Option.isSome_none, Option.isSome_eq_false_iff, Option.isNone_iff_eq_none] at hsome
    exact .idle hsome (hkept.trans hlist)
  | measuring run hperf hlist hcyclic hcb =>
    exact .measuring run (hsome.trans hperf) (hkept.trans hlist)
      ((hframe (.perf run)).cyclic.trans hcyclic) ((hframe (.perf run)).blocking.trans hcb)

/--
What a step from a state of the invariant does: an allowed one keeps the invariant and meets what it has
to, any other leaves a state that is not consistent.
-/
structure MeasureSettled (p : ModuleParam) (m : Measurement) (e : MeasureEvent) (m' : Measurement)
    : Prop where
  allowed : e.Allowed m → MeasureInv m' ∧ e.Meets p m m'
  refused : ¬ e.Allowed m → ¬ m'.Consistent

theorem MeasureInv.start (h : MeasureInv m) (c : PerfStart)
    : MeasureSettled p m (.start c) (ioctlDoPerfStart p c m).2 := by
  cases h with
  | idle hperf hlist =>
    have hidle := ioctlDoPerfStart_idle (p := p) c hperf hlist
    refine ⟨fun hallowed => ⟨(hidle.1 hallowed).1, ?_, ?_⟩, hidle.2⟩
    . intro hbusy
      rw [hperf] at hbusy
      contradiction
    . intro err herr _
      exact (hidle.1 hallowed).2 err herr
  | measuring run hperf hlist hcyclic hcb =>
    have hbusy : ioctlDoPerfStart p c m = (.error .ebusy, m) := by
      unfold ioctlDoPerfStart
      rw [if_pos hperf]
    have hinv := MeasureInv.measuring run hperf hlist hcyclic hcb
    rw [hbusy]
    refine ⟨fun _ => ⟨hinv, hinv.consistent.mp, ?_⟩, fun h => absurd (.inl hperf) h⟩
    exact fun _ _ hnull => hnull

theorem MeasureInv.stop (h : MeasureInv m) {notCopied : Nat} {completedDescCount : BitVec 32}
    (hstep : (ioctlDoPerfStop p notCopied completedDescCount m).map Prod.snd = some m')
    : MeasureSettled p m (.stop notCopied completedDescCount) m' := by
  cases h with
  | idle hperf hlist =>
    have hrefused : ioctlDoPerfStop p notCopied completedDescCount m = some (.error .einval, m) := by
      unfold ioctlDoPerfStop
      rw [if_pos (by rw [hperf]; rfl)]
    rw [hrefused, Option.map_some, Option.some.injEq] at hstep
    subst hstep
    refine ⟨fun _ => ⟨.idle hperf hlist, ?_⟩, fun h => absurd (.inl hperf) h⟩
    intro hbusy
    rw [hperf] at hbusy
    contradiction
  | measuring run hperf hlist hcyclic hcb =>
    obtain ⟨r, hr, hempty, hbuf, hcopied, hkept⟩ := ioctlDoPerfStop_measuring (p := p) hperf hlist
      hcyclic notCopied completedDescCount
    rw [hr, Option.map_some, Option.some.injEq] at hstep
    subst hstep
    have hset : m.drv.engine.xdmaPerf ≠ none := by
      rw [← Option.isSome_iff_ne_none]
      exact hperf
    constructor
    . rintro (hnull | hzero)
      . exact absurd hnull hset
      . obtain ⟨hret, hnull⟩ := hcopied hzero
        refine ⟨.idle hnull hempty, fun _ => ⟨?_, hnull, hbuf⟩⟩
        rw [hr, Option.map_some, hret]
    . intro hallowed
      exact not_consistent (hkept (fun hzero => hallowed (.inr hzero))) hempty

theorem MeasureInv.service (h : MeasureInv m) (descWriteback : BitVec 32) (hw : HwRegs)
    : MeasureSettled p m (.service descWriteback hw)
        { m with drv := engineService p m.drv descWriteback hw } := by
  cases h with
  | idle hperf hlist =>
    have hinv := MeasureInv.idle hperf hlist
    refine ⟨fun _ => ⟨hinv.frame fun t => ?_, trivial⟩, fun h => absurd (fun t ht => ?_) h⟩
    . exact engineService_empty p hw hlist descWriteback
    . rw [hlist] at ht
      contradiction
  | measuring run hperf hlist hcyclic hcb =>
    have hserved := engineService_measurement p hw hlist hcyclic hcb descWriteback
    have hallowed : (MeasureEvent.service descWriteback hw).Allowed m
        ↔ ¬ HeadEnds m.drv (.perf run) descWriteback hw := by
      simp only [MeasureEvent.Allowed, hlist, List.head?_cons, Option.some.injEq, forall_eq']
    constructor
    . intro hstays
      have hkept := hserved.2 (hallowed.mp hstays)
      exact ⟨.measuring run (hkept.measuring.trans hperf) hkept.transferList hkept.cyclic
        hkept.blocking, trivial⟩
    . intro hends
      rw [hallowed, not_not] at hends
      have hleft := hserved.1 hends
      exact not_consistent (hleft.measuring.trans hperf) hleft.transferList

theorem MeasureInv.step (h : MeasureInv m) {e : MeasureEvent} (hstep : m.step p e = some m')
    : MeasureSettled p m e m' := by
  cases e with
  | start c =>
    simp only [Measurement.step] at hstep
    split at hstep
    . contradiction
    . rw [Option.some.injEq] at hstep
      subst hstep
      apply h.start
  | stop notCopied completedDescCount => exact h.stop hstep
  | get completedDescCount =>
    simp only [Measurement.step, Option.some.injEq] at hstep
    subst hstep
    refine ⟨fun _ => ⟨h.frame fun t => ⟨rfl, ?_, rfl, rfl⟩, trivial⟩, fun h => absurd trivial h⟩
    rw [getPerfStats, Option.isSome_map]
  | service descWriteback hw =>
    simp only [Measurement.step, Option.some.injEq] at hstep
    subst hstep
    apply h.service
  | device offline shutdown =>
    simp only [Measurement.step, Option.some.injEq] at hstep
    subst hstep
    exact ⟨fun _ => ⟨h.frame fun t => ⟨rfl, rfl, rfl, rfl⟩, trivial⟩, fun h => absurd trivial h⟩

end Runs

/--
In a run of the ioctls from an idle engine, with everything the hardware does in between,
`engine->xdma_perf` is always set exactly while there is a measurement, and every ioctl does what it has
to, exactly if every step is an allowed one.
-/
theorem ioctlDoPerf_consistent_iff (p : ModuleParam) (m : Measurement) (events : List MeasureEvent)
    (hperf : m.drv.engine.xdmaPerf = none) (hlist : m.drv.engine.transferList = [])
    : Transition.StatesHold (Measurement.step p) Measurement.Consistent m events
        ∧ Transition.StepsHold (Measurement.step p) (fun m e m' => e.Meets p m m') m events
        ↔ Transition.StepsHold (Measurement.step p) (fun m e _ => e.Allowed m) m events := by
  have hinv := MeasureInv.idle hperf hlist
  have hstates : Transition.StatesHold (Measurement.step p) Measurement.Consistent m events
      ↔ Transition.StepsHold (Measurement.step p) (fun m e _ => e.Allowed m) m events := by
    apply Transition.statesHold_iff_stepsHold MeasureInv
    . exact fun _ h => h.consistent
    . exact fun _ _ _ h hallowed hstep => ((h.step hstep).allowed hallowed).1
    . intro m e m' h hstep hgood
      by_contra hallowed
      exact (h.step hstep).refused hallowed hgood
    . exact hinv
  constructor
  . exact fun h => hstates.mp h.1
  . intro hallowed
    refine ⟨hstates.mpr hallowed, ?_⟩
    exact Transition.stepsHold_of_invariant
      (fun _ _ _ h hallowed hstep => (h.step hstep).allowed hallowed) hinv hallowed

/-- A start with the given version on an idle engine, with all the memory it asks for. -/
def perfStart (version : BitVec 32) : PerfStart :=
  ⟨true, version, ⟨64, false, 0⟩, ⟨some (0x7000, 0x200000), true, none⟩, 0, ⟨0, 0, 0, 0⟩⟩

theorem ioctlDoPerf_consistent_iff_stop
    : let events := [.start (perfStart 1), .get 8, .stop 0 16]
      (∃ m, Transition.run (Measurement.step ⟨false, false, 4⟩) (idleMeasurement false) events = some m
          ∧ m.drv.engine.xdmaPerf = none)
        ∧ (Transition.StatesHold (Measurement.step ⟨false, false, 4⟩) Measurement.Consistent
              (idleMeasurement false) events
            ∧ Transition.StepsHold (Measurement.step ⟨false, false, 4⟩)
                (fun m e m' => e.Meets ⟨false, false, 4⟩ m m') (idleMeasurement false) events
          ↔ Transition.StepsHold (Measurement.step ⟨false, false, 4⟩) (fun m e _ => e.Allowed m)
              (idleMeasurement false) events) :=
  ⟨⟨_, rfl, rfl⟩, ioctlDoPerf_consistent_iff ⟨false, false, 4⟩ (idleMeasurement false)
    [.start (perfStart 1), .get 8, .stop 0 16] rfl rfl⟩

/--
A start whose version is not the one there is returns an error and leaves the pointer set: every later
start is refused as busy, and no stop releases it.
-/
theorem ioctlDoPerfStart_wedged
    : let r := ioctlDoPerfStart ⟨false, false, 4⟩ (perfStart 2) (idleMeasurement false)
      r.1 = .error .einval ∧ r.2.drv.engine.xdmaPerf.isSome = true
        ∧ (ioctlDoPerfStart ⟨false, false, 4⟩ (perfStart 1) r.2).1 = .error .ebusy
        ∧ ioctlDoPerfStop ⟨false, false, 4⟩ 0 0 r.2 = some (.error .einval, r.2)
        ∧ ¬ Transition.StatesHold (Measurement.step ⟨false, false, 4⟩) Measurement.Consistent
            (idleMeasurement false) [.start (perfStart 2)] := by
  refine ⟨rfl, rfl, rfl, rfl, ?_⟩
  intro h
  exact not_consistent rfl rfl (h.2 _ rfl).head

end Xdma
