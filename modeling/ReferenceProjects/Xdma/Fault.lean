import ReferenceProjects.Xdma.Lemmas.Service

/-!
This module contains when an error that the hardware reports by an interrupt reaches the transfer at
the head of the queue: `engine_service()` has read and cleared the status before it looks at the count
of completed descriptors, and without one it does not look at the transfer.
-/

namespace Xdma

/--
`engine_service()` leads from `s` to `s'` and has failed the transfer `t`: nothing of it is left in the
queue, its waiter is woken and its request, where it has a callback, is completed by that.
-/
structure HeadFailed (s s' : Driver) (t : XferPtr) : Prop where
  failed : (s'.xfer t).state = .failed
  unlinked : t ∉ s'.engine.transferList
  waiter : s'.hist.wakeups = t :: s.hist.wakeups
  callback : ∀ r, (s.xfer t).cb = some r → ∃ queue, s'.hist.freed = (r, queue) :: s.hist.freed

/--
The error is seen at the transfer `t`: the count read from the hardware is not 0 and, less what was
dequeued of it, does not go past the transfer, which has no callback unless it is the last of its
request.
-/
def FaultSeen (s : Driver) (hw : HwRegs) (t : XferPtr) : Prop :=
  hw.completedDescCount ≠ 0
    ∧ ((s.xfer t).cyclic = true
      ∨ hw.completedDescCount - s.engine.descDequeued ≤ BitVec.ofNat 32 (s.xfer t).descNum)
    ∧ ((s.xfer t).cb = none ∨ (s.xfer t).lastInRequest = true)

section Completion

variable (p : ModuleParam) (hw : HwRegs)

theorem completionSwitch_freed (s : Driver) (t : XferPtr)
    : (completionSwitch p s t hw).1.hist.freed = s.hist.freed := by
  have hstop (s : Driver) : (xdmaEngineStop p s).hist.freed = s.hist.freed := rfl
  have habort (s : Driver) : (keepOnError (transferAbort s t) s).hist.freed = s.hist.freed := by
    unfold transferAbort
    dsimp only
    split
    . rfl
    . rfl
  have hread : (keepOnError (engineStatusRead s hw false true) s).hist.freed = s.hist.freed := by
    rw [engineStatusRead_dump]
    split
    . rfl
    . rfl
  unfold completionSwitch
  dsimp only
  split
  . split
    . rfl
    . rfl
  . rfl
  . rw [hstop, habort, hread]

theorem completionLoop_freed (r fuel tferIdx nents : Nat) (s : Driver) (done : Nat)
    : (completionLoop p r hw fuel tferIdx nents s done).1.hist.freed = s.hist.freed := by
  induction fuel generalizing tferIdx nents s done with
  | zero => rfl
  | succ fuel ih =>
    have hround (used : Int) : { transferDestroy (completionSwitch p s (.tfer r tferIdx) hw).1
        (.tfer r tferIdx) with engine.descUsed := used }.hist.freed = s.hist.freed := by
      rw [transferDestroy_eq]
      apply completionSwitch_freed
    unfold completionLoop
    split
    . rfl
    . dsimp only
      split
      . rw [ih]
        apply hround
      . apply hround

theorem xdmaXferCompletion_freed (s : Driver) (r : Nat)
    : ∃ queue, (xdmaXferCompletion p s r hw).1.hist.freed = (r, queue) :: s.hist.freed := by
  have hloop := completionLoop_freed p hw r (s.req r).swDescCnt 0 (s.req r).swDescCnt s 0
  dsimp only [xdmaXferCompletion, xdmaRequestFree]
  rw [Driver.unmapSg_eq]
  exact ⟨_, congrArg (List.cons (r, _)) hloop⟩

end Completion

section Service

variable {p : ModuleParam} {hw : HwRegs} {s : Driver} {t : XferPtr} {rest : List XferPtr}

theorem engineServiceTransferList_stop {fuel : Nat} {descCompleted : BitVec 32}
    (h : (s.xfer t).cyclic = true ∨ descCompleted ≤ BitVec.ofNat 32 (s.xfer t).descNum)
    : engineServiceTransferList p hw fuel s (some t) descCompleted = (s, some t, descCompleted) := by
  cases fuel with
  | zero => rfl
  | succ fuel =>
    unfold engineServiceTransferList
    dsimp only
    rw [if_neg]
    intro hpass
    rw [Bool.and_eq_true, Bool.not_eq_true', decide_eq_true_eq] at hpass
    cases h with
    | inl hcyclic => simp [hcyclic] at hpass
    | inr hle => exact BitVec.not_lt.mpr hle hpass.2

theorem countServed_head (descCount : BitVec 32) (hlist : s.engine.transferList = t :: rest)
    : let m := engineServicePerf s descCount
      let r := engineServiceTransferList p hw (rest.length + 1) m (some t)
        (descCount - s.engine.descDequeued)
      countServed p hw s descCount = engineServiceFinalTransfer p r.1 r.2.1 r.2.2 hw := by
  have hhead : s.engine.transferList.head? = some t := by rw [hlist, List.head?_cons]
  have hperf : (engineServicePerf s descCount).engine.transferList.length = rest.length + 1 := by
    rw [engineServicePerf_eq]
    show s.engine.transferList.length = _
    rw [hlist, List.length_cons]
  have hdequeued
      : (engineServicePerf s descCount).engine.descDequeued = s.engine.descDequeued := by
    rw [engineServicePerf_eq]
  unfold countServed
  simp only [hhead, Option.isSome_some, ↓reduceIte, hperf, hdequeued]

theorem countServed_fault {descCount : BitVec 32} (hlist : s.engine.transferList = t :: rest)
    (herr : s.engine.status &&& errMask s.engine.dir ≠ 0)
    (hcount : (s.xfer t).cyclic = true
      ∨ descCount - s.engine.descDequeued ≤ BitVec.ofNat 32 (s.xfer t).descNum)
    : countServed p hw s descCount = engineTransferCompletion p
        (engineErrHandle p (engineServicePerf s descCount) t).listDel t hw := by
  have hstop : engineServiceTransferList p hw (rest.length + 1) (engineServicePerf s descCount)
      (some t) (descCount - s.engine.descDequeued)
      = (engineServicePerf s descCount, some t, descCount - s.engine.descDequeued) := by
    apply engineServiceTransferList_stop
    rw [engineServicePerf_eq]
    exact hcount
  have hstatus : (engineServicePerf s descCount).engine.status
      &&& errMask (engineServicePerf s descCount).engine.dir ≠ 0 := by
    rw [engineServicePerf_eq]
    exact herr
  rw [countServed_head descCount hlist, hstop]
  dsimp only [engineServiceFinalTransfer]
  unfold finalVerdict
  dsimp only
  rw [if_pos hstatus]

def LeftCompleted (t : XferPtr) (s : Driver) : Prop :=
  (s.xfer t).state = .completed ∧ t ∉ s.engine.transferList

theorem LeftCompleted.completion (h : LeftCompleted t s) (u : XferPtr)
    : LeftCompleted t (engineTransferCompletion p s u hw) := by
  have hframe := engineTransferCompletion_frame p s u hw
  constructor
  . cases hframe.xfer t with
    | inl hsame => rw [hsame]; exact h.1
    | inr habort =>
      have hstate : (s.xfer t).state = .submitted := habort.1
      rw [h.1] at hstate
      contradiction
  . intro hmem
    exact h.2 (hframe.suffix.mem hmem)

theorem LeftCompleted.unlink (h : LeftCompleted t s) {u : XferPtr} {xfer : XdmaTransfer}
    (hlist : s.engine.transferList = u :: rest)
    : LeftCompleted t (s.setXfer u xfer).listDel := by
  have hne : t ≠ u := by
    intro heq
    exact h.2 (by rw [hlist, heq]; exact .head _)
  constructor
  . show ((Function.update s.xfer u xfer) t).state = .completed
    rw [Function.update_of_ne hne]
    exact h.1
  . show t ∉ s.engine.transferList.tail
    intro hmem
    exact h.2 (List.mem_of_mem_tail hmem)

theorem LeftCompleted.leads (p : ModuleParam) (hw : HwRegs) (t : XferPtr)
    : FinalLeads p hw (LeftCompleted t) (LeftCompleted t) where
  regs := by
    intro s s' hregs h
    rw [hregs.eq]
    exact h
  complete := by
    intro s u rest hlist h
    exact (h.unlink hlist).completion u
  weaken := fun _ h => h
  mark := by
    intro s u rest flags descCmpl hlist h
    refine ⟨?_, h.2⟩
    have hne : t ≠ u := by
      intro heq
      exact h.2 (by rw [hlist, heq]; exact .head _)
    show ((Function.update s.xfer u _) t).state = .completed
    rw [Function.update_of_ne hne]
    exact h.1
  final := by
    intro s u rest xfer' hlist _ h
    exact (h.unlink hlist).completion u

theorem countServed_passed {descCount : BitVec 32} (hlist : s.engine.transferList = t :: rest)
    (hmem : t ∉ rest) (hcyclic : (s.xfer t).cyclic = false)
    (hcount : ¬ descCount - s.engine.descDequeued ≤ BitVec.ofNat 32 (s.xfer t).descNum)
    : LeftCompleted t (countServed p hw s descCount) := by
  let m := engineServicePerf s descCount
  have hm : m = { s with engine.xdmaPerf := m.engine.xdmaPerf } := engineServicePerf_eq s descCount
  have hpass : (!(m.xfer t).cyclic
      && descCount - s.engine.descDequeued > BitVec.ofNat 32 (m.xfer t).descNum) = true := by
    rw [hm]
    show (!(s.xfer t).cyclic && _) = true
    rw [hcyclic, Bool.not_false, Bool.true_and, decide_eq_true_eq]
    exact BitVec.not_le.mp hcount
  rw [countServed_head descCount hlist, engineServiceTransferList_pass p hw m t rest.length hpass]
  generalize hs : engineTransferCompletion p (((m.dequeue (BitVec.ofNat 32 (m.xfer t).descNum)).setXfer
    t { m.xfer t with state := .completed }).listDel) t hw = s'
  have hleft : LeftCompleted t s' := by
    rw [← hs]
    apply LeftCompleted.completion
    constructor
    . show ((Function.update m.xfer t _) t).state = .completed
      rw [Function.update_self]
    . show t ∉ m.engine.transferList.tail
      rw [hm]
      show t ∉ s.engine.transferList.tail
      rw [hlist]
      exact hmem
  have hloop := engineServiceTransferList_preserves (LeftCompleted.leads p hw t)
    rest.length s' (descCount - s.engine.descDequeued - BitVec.ofNat 32 (m.xfer t).descNum) hleft
  dsimp only at hloop ⊢
  rw [hloop.2]
  exact engineServiceFinalTransfer_preserves (LeftCompleted.leads p hw t) _ _ hloop.1

/--
The restart of the engine has no part in it.
-/
theorem HeadFailed.resume_iff {s' : Driver}
    : HeadFailed s (engineServiceResume p s' hw) t ↔ HeadFailed s s' t := by
  have hkept : (engineServiceResume p s' hw).xfer = s'.xfer
      ∧ (engineServiceResume p s' hw).engine.transferList = s'.engine.transferList
      ∧ (engineServiceResume p s' hw).hist.wakeups = s'.hist.wakeups
      ∧ (engineServiceResume p s' hw).hist.freed = s'.hist.freed := by
    cases engineServiceResume_cases p hw s' with
    | inl hstart =>
      obtain ⟨_, _, _, _, heq⟩ := engineStart_eq hstart.2
      rw [heq]
      exact ⟨rfl, rfl, rfl, rfl⟩
    | inr hregs =>
      rw [hregs.1.eq]
      exact ⟨rfl, rfl, rfl, rfl⟩
  obtain ⟨hxfer, hlist, hwakeups, hfreed⟩ := hkept
  constructor
  . intro h
    exact ⟨hxfer ▸ h.failed, hlist ▸ h.unlinked, hwakeups ▸ h.waiter, hfreed ▸ h.callback⟩
  . intro h
    exact ⟨hxfer ▸ h.failed, hlist ▸ h.unlinked, hwakeups ▸ h.waiter, hfreed ▸ h.callback⟩

theorem HeadFailed.count_iff {s' : Driver} (descCount : BitVec 32)
    : HeadFailed s (engineServiceCount p s' descCount hw) t
      ↔ HeadFailed s (countServed p hw s' descCount) t := by
  rw [engineServiceCount_eq]
  split
  . apply Iff.rfl
  . apply HeadFailed.resume_iff

/-- The driver that has read an error from the status and stopped the engine. -/
def faultStopped (p : ModuleParam) (s : Driver) (hw : HwRegs) : Driver :=
  xdmaEngineStop p { s with engine.status := hw.statusRc }

theorem engineService_fault (hrun : s.engine.running = true)
    (hbusy : hw.statusRc &&& xdmaStatBusy = 0)
    : engineService p s 0 hw
        =
      if hw.completedDescCount = 0 then
        faultStopped p s hw
      else
        engineServiceCount p (faultStopped p s hw) hw.completedDescCount hw := by
  have hcount : serviceCount 0 hw = hw.completedDescCount := rfl
  have hstatus : engineServiceStatus p s 0 hw = faultStopped p s hw := by
    rw [engineServiceStatus_zero]
    exact if_pos hbusy
  unfold engineService
  rw [hrun, hstatus, hcount]
  rfl

theorem engineErrHandle_xfer {m : Driver} (hm : ServiceRegs s m)
    : (engineErrHandle p m t).listDel.xfer t = { s.xfer t with state := .failed } := by
  rw [hm.eq]
  exact Function.update_self _ _ _

/--
A transfer that is failed as the head of the queue is unlinked and its waiter is woken; its request is
completed if it is the last one there.
-/
theorem HeadFailed.of_errHandle {m : Driver} (hm : ServiceRegs s m)
    (hlist : s.engine.transferList = t :: rest) (hmem : t ∉ rest)
    (hcb : (s.xfer t).cb = none ∨ (s.xfer t).lastInRequest = true)
    : HeadFailed s (engineTransferCompletion p (engineErrHandle p m t).listDel t hw) t := by
  generalize hd : (engineErrHandle p m t).listDel = d
  have hxfer : d.xfer t = { s.xfer t with state := .failed } := by
    rw [← hd]
    apply engineErrHandle_xfer hm
  have hdlist : d.engine.transferList = rest := by
    rw [← hd, hm.eq]
    exact congrArg List.tail hlist
  have hhist : d.hist.wakeups = s.hist.wakeups ∧ d.hist.freed = s.hist.freed := by
    rw [← hd, hm.eq]
    exact ⟨rfl, rfl⟩
  have hframe := engineTransferCompletion_frame p d t hw
  constructor
  . cases hframe.xfer t with
    | inl hsame =>
      rw [hsame]
      exact congrArg XdmaTransfer.state hxfer
    | inr habort =>
      have hstate : (d.xfer t).state = .submitted := habort.1
      rw [hxfer] at hstate
      contradiction
  . intro h
    exact hmem (hdlist ▸ hframe.suffix.mem h)
  . rw [hframe.eq, ← hhist.1]
  . intro r hr
    cases hcb with
    | inl hnone =>
      rw [hnone] at hr
      contradiction
    | inr hlast =>
      have hcb : (d.xfer t).cb = some r := by
        rw [hxfer]
        exact hr
      have hlast' : (d.xfer t).lastInRequest = true := by
        rw [hxfer]
        exact hlast
      rw [← hhist.2, engineTransferCompletion_last p hw hcb hlast']
      apply xdmaXferCompletion_freed

/--
A transfer that is not the last one of its request completes none.
-/
theorem HeadFailed.last_of_errHandle {m : Driver} (hm : ServiceRegs s m)
    (h : HeadFailed s (engineTransferCompletion p (engineErrHandle p m t).listDel t hw) t)
    : (s.xfer t).cb = none ∨ (s.xfer t).lastInRequest = true := by
  cases hlast : (s.xfer t).lastInRequest with
  | true => exact .inr rfl
  | false =>
    refine .inl ?_
    generalize hd : (engineErrHandle p m t).listDel = d at h
    have hxfer : (d.xfer t).lastInRequest = false := by
      rw [← hd, engineErrHandle_xfer hm]
      exact hlast
    have hfreed : d.hist.freed = s.hist.freed := by
      rw [← hd, hm.eq]
      rfl
    cases hcb : (s.xfer t).cb with
    | none => rfl
    | some r =>
      obtain ⟨queue, hqueue⟩ := h.callback r hcb
      rw [engineTransferCompletion_notLast p hw hxfer] at hqueue
      have hlength := congrArg List.length hqueue
      rw [List.length_cons, hfreed] at hlength
      omega

/--
An error interrupt fails, unlinks and notifies the transfer at the head of the queue exactly if the
error is seen at it.
-/
theorem engineService_headFailed_iff (p : ModuleParam) (s : Driver) (hw : HwRegs) (t : XferPtr)
    (rest : List XferPtr) (hrun : s.engine.running = true)
    (hlist : s.engine.transferList = t :: rest) (hmem : t ∉ rest)
    (herr : hw.statusRc &&& errMask s.engine.dir ≠ 0) (hbusy : hw.statusRc &&& xdmaStatBusy = 0)
    : HeadFailed s (engineService p s 0 hw) t ↔ FaultSeen s hw t := by
  have hread : ServiceRegs s { s with engine.status := hw.statusRc } := ⟨rfl, id⟩
  have hregs : ServiceRegs s (faultStopped p s hw) := hread.trans (xdmaEngineStop_regs p _)
  rw [engineService_fault hrun hbusy]
  by_cases hcount : hw.completedDescCount = 0
  . -- the transfer is not looked at
    rw [if_pos hcount]
    constructor
    . intro h
      have hlinked : (faultStopped p s hw).engine.transferList = t :: rest := hlist
      exact absurd (hlinked ▸ .head _) h.unlinked
    . intro h
      exact absurd hcount h.1
  . rw [if_neg hcount, HeadFailed.count_iff]
    by_cases hpast : (s.xfer t).cyclic = true
        ∨ hw.completedDescCount - s.engine.descDequeued ≤ BitVec.ofNat 32 (s.xfer t).descNum
    . have hperf := hregs.trans
        (engineServicePerf_regs (faultStopped p s hw) hw.completedDescCount)
      rw [countServed_fault (s := faultStopped p s hw) hlist herr hpast]
      constructor
      . intro h
        exact ⟨hcount, hpast, h.last_of_errHandle hperf⟩
      . intro h
        exact HeadFailed.of_errHandle hperf hlist hmem h.2.2
    . -- the head is taken for one that the engine has completed
      rw [not_or, Bool.not_eq_true] at hpast
      have hleft : LeftCompleted t (countServed p hw (faultStopped p s hw) hw.completedDescCount) :=
        countServed_passed hlist hmem hpast.1 hpast.2
      constructor
      . intro h
        have hstate := h.failed
        rw [hleft.1] at hstate
        contradiction
      . intro h
        cases h.2.1 with
        | inl hcyclic => rw [hpast.1] at hcyclic; contradiction
        | inr hle => exact absurd hle hpast.2

end Service

/-- An H2C engine that runs with one transfer of two descriptors of a blocking request. -/
def faultDriver : Driver :=
  let e := { XdmaEngine.init .toDevice false 0 0 with
    running := true
    transferList := [.tfer 0 0] }
  let s := Driver.init e
  s.setXfer (.tfer 0 0) { s.xfer (.tfer 0 0) with state := .submitted, descNum := 2 }

/-- The registers with a read error, and a count of completed descriptors. -/
def faultRegs (completedDescCount : BitVec 32) : HwRegs := ⟨0, 0x200, 0, completedDescCount⟩

theorem engineService_headFailed_one
    : HeadFailed faultDriver (engineService ⟨false, false, 0⟩ faultDriver 0 (faultRegs 1)) (.tfer 0 0) :=
  (engineService_headFailed_iff ⟨false, false, 0⟩ faultDriver (faultRegs 1) (.tfer 0 0) [] rfl rfl
    (by decide) (by decide) (by decide)).mpr
    ⟨by decide, .inr (by decide), .inl rfl⟩

/--
An error on the first descriptor is read and cleared, and the transfer stays queued as submitted on an
engine that is stopped.
-/
theorem engineService_fault_unseen
    : let s' := engineService ⟨false, false, 0⟩ faultDriver 0 (faultRegs 0)
      ¬ HeadFailed faultDriver s' (.tfer 0 0) ∧ (s'.xfer (.tfer 0 0)).state = .submitted
        ∧ .tfer 0 0 ∈ s'.engine.transferList ∧ s'.engine.running = false ∧ s'.hist.wakeups = [] := by
  refine ⟨?_, by decide⟩
  intro h
  exact absurd h.failed (by decide)

end Xdma
