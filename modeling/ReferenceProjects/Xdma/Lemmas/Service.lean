import ReferenceProjects.Xdma.Impl.Service
import ReferenceProjects.Xdma.Lemmas.Queue

/-!
This module contains the rules for `engine_service()`: what the completion of an asynchronous request
can change, and how a property of the driver is carried through a service.
-/

namespace Xdma

/--
What `xdma_xfer_completion()` can do to the driver. A transfer that is still in flight is aborted
and the engine is stopped; no other transfer gets another state.
-/
structure CompletionFrame (s s' : Driver) : Prop where
  eq : s' = { s with
    engine := { s.engine with
      running := s'.engine.running
      status := s'.engine.status
      transferList := s'.engine.transferList
      desc := s'.engine.desc
      descUsed := s'.engine.descUsed
      regs := s'.engine.regs
    }
    xfer := s'.xfer
    sgt := s'.sgt
    hist := { s.hist with
      controlWrites := s'.hist.controlWrites
      live := s'.hist.live
      freed := s'.hist.freed
    }
  }
  queue : s'.engine.transferList = s.engine.transferList ∧ s'.engine.running = s.engine.running
    ∨ s'.engine.running = false
  suffix : s'.engine.transferList <:+ s.engine.transferList
  live : s'.hist.live.Sublist s.hist.live
  xfer : ∀ t, s'.xfer t = s.xfer t
    ∨ (s.xfer t).state = .submitted ∧ s'.xfer t = { s.xfer t with state := .aborted }

theorem CompletionFrame.refl (s : Driver) : CompletionFrame s s where
  eq := rfl
  queue := Or.inl ⟨rfl, rfl⟩
  suffix := List.suffix_refl _
  live := List.Sublist.refl _
  xfer := fun _ => Or.inl rfl

theorem CompletionFrame.trans {s s' s'' : Driver} (h : CompletionFrame s s')
    (h' : CompletionFrame s' s'')
    : CompletionFrame s s'' where
  eq := by
    rw [h'.eq, h.eq]
  queue := by
    cases h'.queue with
    | inl hsame =>
      rw [hsame.1, hsame.2]
      exact h.queue
    | inr hstop => exact Or.inr hstop
  suffix := h'.suffix.trans h.suffix
  live := h'.live.trans h.live
  xfer := by
    intro t
    cases h.xfer t with
    | inl hsame =>
      rw [← hsame]
      exact h'.xfer t
    | inr habort =>
      cases h'.xfer t with
      | inl hsame =>
        rw [hsame]
        exact Or.inr habort
      | inr habort' =>
        rw [habort.2] at habort'
        exact absurd habort'.1 (by simp)

@[simp]
theorem Driver.setXfer_setXfer (s : Driver) (t : XferPtr) (xfer xfer' : XdmaTransfer)
    : (s.setXfer t xfer).setXfer t xfer' = s.setXfer t xfer' := by
  simp [Driver.setXfer]

section Completion

variable (p : ModuleParam)

theorem abortAndStop_frame (s : Driver) (t : XferPtr) (hw : HwRegs)
    : CompletionFrame s (xdmaEngineStop p
        (keepOnError (transferAbort (keepOnError (engineStatusRead s hw false true) s) t)
          (keepOnError (engineStatusRead s hw false true) s))) := by
  generalize hm : keepOnError (engineStatusRead s hw false true) s = m
  have hstatus : m = { s with engine.status := m.engine.status } := by
    rw [← hm, engineStatusRead_dump]
    split <;> rfl
  rw [hstatus]
  rw [xdmaEngineStop_eq]
  unfold transferAbort
  dsimp only
  split
  . exact ⟨rfl, Or.inr rfl, List.suffix_refl _, List.Sublist.refl _, fun _ => Or.inl rfl⟩
  . refine ⟨rfl, Or.inr rfl, unlinkHead_suffix _ _, List.Sublist.refl _, ?_⟩
    intro u
    by_cases hu : u = t
    . subst hu
      simp only [keepOnError, Driver.setXfer, Function.update_self]
      split
      . next h => exact Or.inr ⟨h, rfl⟩
      . exact Or.inl rfl
    . exact Or.inl (Function.update_of_ne hu _ _)

theorem completionSwitch_frame (s : Driver) (t : XferPtr) (hw : HwRegs)
    : CompletionFrame s (completionSwitch p s t hw).1 := by
  unfold completionSwitch
  dsimp only
  split
  . split <;> exact CompletionFrame.refl s
  . exact CompletionFrame.refl s
  . exact abortAndStop_frame p s t hw

theorem transferDestroy_frame (s : Driver) (t : XferPtr) (used : Int)
    : CompletionFrame s { transferDestroy s t with engine.descUsed := used } := by
  rw [transferDestroy_eq]
  exact ⟨rfl, Or.inl ⟨rfl, rfl⟩, List.suffix_refl _, List.filter_sublist, fun _ => Or.inl rfl⟩

theorem completionLoop_frame (r : Nat) (hw : HwRegs) (fuel tferIdx nents : Nat) (s : Driver)
    (done : Nat)
    : CompletionFrame s (completionLoop p r hw fuel tferIdx nents s done).1 := by
  induction fuel generalizing tferIdx nents s done with
  | zero => exact CompletionFrame.refl s
  | succ fuel ih =>
    unfold completionLoop
    split
    . exact CompletionFrame.refl s
    . dsimp only
      have hswitch := completionSwitch_frame p s (.tfer r tferIdx) hw
      split
      . exact (hswitch.trans (transferDestroy_frame _ (.tfer r tferIdx) _)).trans (ih _ _ _ _)
      . exact hswitch.trans (transferDestroy_frame _ (.tfer r tferIdx) _)

theorem xdmaXferCompletion_frame (s : Driver) (r : Nat) (hw : HwRegs)
    : CompletionFrame s (xdmaXferCompletion p s r hw).1 := by
  have hloop := completionLoop_frame p r hw (s.req r).swDescCnt 0 (s.req r).swDescCnt s 0
  refine hloop.trans ?_
  dsimp only [xdmaXferCompletion]
  rw [Driver.unmapSg_eq]
  exact ⟨rfl, Or.inl ⟨rfl, rfl⟩, List.suffix_refl _, List.filter_sublist, fun _ => Or.inl rfl⟩

end Completion

theorem engineTransferCompletion_frame (p : ModuleParam) (s : Driver) (t : XferPtr) (hw : HwRegs)
    : CompletionFrame { s with hist.wakeups := t :: s.hist.wakeups }
        (engineTransferCompletion p s t hw) := by
  unfold engineTransferCompletion
  dsimp only
  split
  . exact xdmaXferCompletion_frame p _ _ hw
  . exact CompletionFrame.refl _

theorem engineTransferCompletion_of_blocking (p : ModuleParam) {s : Driver} {t : XferPtr} (hw : HwRegs)
    (h : (s.xfer t).cb = none)
    : engineTransferCompletion p s t hw = { s with hist.wakeups := t :: s.hist.wakeups } := by
  unfold engineTransferCompletion
  dsimp only
  rw [h]

theorem engineTransferCompletion_notLast (p : ModuleParam) {s : Driver} {t : XferPtr} (hw : HwRegs)
    (h : (s.xfer t).lastInRequest = false)
    : engineTransferCompletion p s t hw = { s with hist.wakeups := t :: s.hist.wakeups } := by
  unfold engineTransferCompletion
  dsimp only
  rw [h]
  split
  . contradiction
  . rfl

theorem engineTransferCompletion_last (p : ModuleParam) {s : Driver} {t : XferPtr} (hw : HwRegs)
    {r : Nat} (hcb : (s.xfer t).cb = some r) (hlast : (s.xfer t).lastInRequest = true)
    : engineTransferCompletion p s t hw
        = (xdmaXferCompletion p { s with hist.wakeups := t :: s.hist.wakeups } r hw).1 := by
  unfold engineTransferCompletion
  dsimp only
  rw [hcb, hlast]

section Preserves

/--
What `engine_service()` does between the transfers: it works on registers and counters, and may stop
the engine.
-/
structure ServiceRegs (s s' : Driver) : Prop where
  eq : s' = { s with
    engine := { s.engine with
      shutdown := { s.engine.shutdown with idle := s'.engine.shutdown.idle }
      running := s'.engine.running
      descDequeued := s'.engine.descDequeued
      status := s'.engine.status
      xdmaPerf := s'.engine.xdmaPerf
      regs := s'.engine.regs
    }
    hist := { s.hist with controlWrites := s'.hist.controlWrites }
  }
  running : s'.engine.running = true → s.engine.running = true

/-- `engine_service()` gave the transfer its verdict. -/
structure Verdict (xfer xfer' : XdmaTransfer) : Prop where
  settled : xfer'.Settled
  eq : xfer' = { xfer with
    state := xfer'.state
    descCmpl := xfer'.descCmpl
    flags := xfer'.flags
  }

variable (p : ModuleParam) (hw : HwRegs) {P : Driver → Prop}

theorem xdmaEngineStop_regs (s : Driver)
    : ServiceRegs s (xdmaEngineStop p s) where
  eq := by rw [xdmaEngineStop_eq]
  running := by
    rw [xdmaEngineStop_eq]
    simp

theorem engineServiceStatus_regs (s : Driver) (descWriteback : BitVec 32)
    : ServiceRegs s (engineServiceStatus p s descWriteback hw) := by
  unfold engineServiceStatus engineServiceShutdown
  dsimp only
  split <;> split
  . rw [xdmaEngineStop_eq]
    exact ⟨rfl, by simp⟩
  . exact ⟨rfl, id⟩
  . rw [xdmaEngineStop_eq]
    exact ⟨rfl, by simp⟩
  . exact ⟨rfl, id⟩

theorem engineServiceStatus_zero (s : Driver)
    : let m := { s with engine.status := hw.statusRc }
      engineServiceStatus p s 0 hw
        = if hw.statusRc &&& xdmaStatBusy = 0 then xdmaEngineStop p m else m := by
  have hzero : (0 : BitVec 32) &&& wbCountMask = 0 := by decide
  unfold engineServiceStatus
  dsimp only
  rw [if_pos (Or.inl hzero)]
  by_cases hbusy : hw.statusRc &&& xdmaStatBusy = 0
  . rw [if_pos (Or.inl hbusy), if_pos hbusy]
    rfl
  . rw [if_neg, if_neg hbusy]
    rintro (h | h)
    . exact hbusy h
    . exact h.2 hzero

theorem engineServicePerf_eq (s : Driver) (descCompleted : BitVec 32)
    : engineServicePerf s descCompleted
        =
      { s with engine.xdmaPerf := (engineServicePerf s descCompleted).engine.xdmaPerf } := by
  unfold engineServicePerf
  split <;> rfl

theorem engineServicePerf_regs (s : Driver) (descCompleted : BitVec 32)
    : ServiceRegs s (engineServicePerf s descCompleted) := by
  rw [engineServicePerf_eq]
  exact ⟨rfl, id⟩

theorem ServiceRegs.trans {s s' s'' : Driver} (h : ServiceRegs s s') (h' : ServiceRegs s' s'')
    : ServiceRegs s s'' where
  eq := by rw [h'.eq, h.eq]
  running := fun hrun => h.running (h'.running hrun)

/--
`engine_service_resume()` starts the stopped engine on what is queued; otherwise only an engine with
something queued still runs afterwards.
-/
theorem engineServiceResume_cases (s : Driver)
    : (s.engine.running = false ∧ engineStart p s hw = some (engineServiceResume p s hw))
      ∨ (ServiceRegs s (engineServiceResume p s hw)
        ∧ (s.engine.running = false → s.engine.transferList = [])
        ∧ ((engineServiceResume p s hw).engine.running = true → s.engine.transferList ≠ [])) := by
  unfold engineServiceResume
  cases hrun : s.engine.running with
  | false =>
    by_cases hlist : s.engine.transferList = []
    . refine Or.inr ?_
      rw [if_pos Bool.not_false, if_neg (not_not.mpr hlist)]
      split
      . exact ⟨⟨rfl, id⟩, fun _ => hlist, by simp [hrun]⟩
      . exact ⟨⟨rfl, id⟩, fun _ => hlist, by simp [hrun]⟩
    . refine Or.inl ⟨rfl, ?_⟩
      rw [if_pos Bool.not_false, if_pos hlist]
      cases hstart : engineStart p s hw with
      | none =>
        rw [engineStart_none_iff, hrun] at hstart
        simp [hlist] at hstart
      | some s' => rfl
  | true =>
    refine Or.inr ?_
    rw [if_neg (by simp)]
    split
    . exact ⟨xdmaEngineStop_regs p s, by simp, by simp [engineServiceShutdown]⟩
    . next hlist => exact ⟨⟨rfl, id⟩, by simp, fun _ => hlist⟩

/-- Descriptors are accounted for as dequeued. -/
def Driver.dequeue (s : Driver) (n : BitVec 32) : Driver :=
  { s with engine.descDequeued := s.engine.descDequeued + n }

theorem engineServiceTransferList_pass (s : Driver) (t : XferPtr) (fuel : Nat)
    {descCompleted : BitVec 32}
    (hpass : (!(s.xfer t).cyclic && descCompleted > BitVec.ofNat 32 (s.xfer t).descNum) = true)
    : let n := BitVec.ofNat 32 (s.xfer t).descNum
      let s' := engineTransferCompletion p
        ((s.dequeue n).setXfer t { s.xfer t with state := .completed }).listDel t hw
      engineServiceTransferList p hw (fuel + 1) s (some t) descCompleted
        = engineServiceTransferList p hw fuel s' s'.engine.transferList.head? (descCompleted - n) := by
  intro n s'
  conv_lhs => unfold engineServiceTransferList
  dsimp only
  rw [hpass, if_pos rfl]
  rfl

theorem engineServiceTransferList_of_le (s : Driver) {t : XferPtr} {rest : List XferPtr}
    (hlist : s.engine.transferList = t :: rest) {descCompleted : BitVec 32}
    (hle : ¬ descCompleted > BitVec.ofNat 32 (s.xfer t).descNum)
    : engineServiceTransferList p hw s.engine.transferList.length s (some t) descCompleted
        = (s, some t, descCompleted) := by
  rw [hlist, List.length_cons]
  unfold engineServiceTransferList
  dsimp only
  rw [if_neg (by simp [hle])]

theorem xdmaEngineStop_setXfer (s : Driver) (t : XferPtr) (xfer : XdmaTransfer)
    : xdmaEngineStop p (s.setXfer t xfer) = (xdmaEngineStop p s).setXfer t xfer := rfl

theorem finalVerdict_cases (s : Driver) (t : XferPtr) (descCompleted : BitVec 32)
    : (∃ s' xfer', ServiceRegs s s' ∧ Verdict (s.xfer t) xfer'
        ∧ finalVerdict p s t descCompleted = (s'.setXfer t xfer', true))
      ∨ ∃ flags descCmpl, finalVerdict p s t descCompleted
          = (s.setXfer t { s.xfer t with flags := flags, descCmpl := descCmpl }, false) := by
  unfold finalVerdict
  dsimp only
  split
  . refine Or.inl ⟨xdmaEngineStop p s, { s.xfer t with state := .failed },
      xdmaEngineStop_regs p s, ⟨Or.inr rfl, rfl⟩, ?_⟩
    rw [engineErrHandle, xdmaEngineStop_setXfer]
  . split
    . split
      . split
        . exact Or.inr ⟨_, _, rfl⟩
        . refine Or.inl
            ⟨{ xdmaEngineStop p s with
                engine.descDequeued := s.engine.descDequeued + ((s.xfer t).descCmpl + descCompleted) },
              { s.xfer t with
                state := .completed
                flags := eopFlags s.engine (s.xfer t) descCompleted.toNat
                descCmpl := (s.xfer t).descCmpl + descCompleted },
              ⟨rfl, by simp⟩, ⟨Or.inl rfl, rfl⟩, ?_⟩
          rw [engineServiceShutdown, xdmaEngineStop_setXfer, Driver.setXfer_setXfer]
          rfl
      . exact Or.inl ⟨{ s with engine.descDequeued :=
            s.engine.descDequeued + BitVec.ofNat 32 (s.xfer t).descNum }, _, ⟨rfl, id⟩,
          ⟨Or.inr rfl, rfl⟩, rfl⟩
    . exact Or.inl ⟨{ s with engine.descDequeued :=
          s.engine.descDequeued + BitVec.ofNat 32 (s.xfer t).descNum }, _, ⟨rfl, id⟩,
        ⟨Or.inl rfl, rfl⟩, rfl⟩

/-- `engine_service()` from the count of completed descriptors on, up to the restart of the engine. -/
def countServed (s : Driver) (descCount : BitVec 32) : Driver :=
  let transfer := s.engine.transferList.head?
  let s := if transfer.isSome then engineServicePerf s descCount else s
  let descCount := descCount - s.engine.descDequeued
  let (s, transfer, descCount) :=
    engineServiceTransferList p hw s.engine.transferList.length s transfer descCount
  engineServiceFinalTransfer p s transfer descCount hw

theorem engineServiceCount_eq (s : Driver) (descCount : BitVec 32)
    : engineServiceCount p s descCount hw
        =
      if (countServed p hw s descCount).engine.eopFlush then
        countServed p hw s descCount
      else
        engineServiceResume p (countServed p hw s descCount) hw := rfl

/--
What the steps of a service have to keep of a property `P` for a service to lead from `P` to `Q`: the
bookkeeping, the completion of all but the last transfer, and a mark on or a verdict for the last one.
-/
structure FinalLeads (P Q : Driver → Prop) : Prop where
  regs : ∀ s s', ServiceRegs s s' → P s → P s'
  complete : ∀ s t rest, s.engine.transferList = t :: rest → P s
    → P (engineTransferCompletion p (s.setXfer t { s.xfer t with state := .completed }).listDel t hw)
  weaken : ∀ s, P s → Q s
  mark : ∀ s t rest flags descCmpl, s.engine.transferList = t :: rest → P s
    → Q (s.setXfer t { s.xfer t with flags := flags, descCmpl := descCmpl })
  final : ∀ s t rest xfer', s.engine.transferList = t :: rest → Verdict (s.xfer t) xfer' → P s
    → Q (engineTransferCompletion p (s.setXfer t xfer').listDel t hw)

/-- The same for a service with the restart of the engine after it. -/
structure ServiceLeads (P Q : Driver → Prop) : Prop extends FinalLeads p hw P Q where
  regsAfter : ∀ s s', ServiceRegs s s' → Q s → Q s'
  start : ∀ s s', engineStart p s hw = some s' → Q s → Q s'

theorem ServiceLeads.of_keeps {P : Driver → Prop}
    (regs : ∀ s s', ServiceRegs s s' → P s → P s')
    (start : ∀ s s', engineStart p s hw = some s' → P s → P s')
    (mark : ∀ s t rest flags descCmpl, s.engine.transferList = t :: rest → P s
      → P (s.setXfer t { s.xfer t with flags := flags, descCmpl := descCmpl }))
    (final : ∀ s t rest xfer', s.engine.transferList = t :: rest → Verdict (s.xfer t) xfer' → P s
      → P (engineTransferCompletion p (s.setXfer t xfer').listDel t hw))
    : ServiceLeads p hw P P where
  regs := regs
  complete := fun s t rest hlist h => final s t rest _ hlist ⟨Or.inl rfl, rfl⟩ h
  weaken := fun _ h => h
  mark := mark
  final := final
  regsAfter := regs
  start := start

variable {p hw} {Q : Driver → Prop}

section Final

variable (hP : FinalLeads p hw P Q)

include hP

theorem engineServiceTransferList_preserves (fuel : Nat) (s : Driver) (descCompleted : BitVec 32)
    (h : P s)
    : let r := engineServiceTransferList p hw fuel s s.engine.transferList.head? descCompleted
      P r.1 ∧ r.2.1 = r.1.engine.transferList.head? := by
  induction fuel generalizing s descCompleted with
  | zero => exact ⟨h, rfl⟩
  | succ fuel ih =>
    unfold engineServiceTransferList
    cases hlist : s.engine.transferList with
    | nil => exact ⟨h, by simp [hlist]⟩
    | cons t rest =>
      dsimp only [List.head?_cons]
      split
      . apply ih
        have hdeq : P { s with engine.descDequeued :=
            s.engine.descDequeued + BitVec.ofNat 32 (s.xfer t).descNum } :=
          hP.regs s _ ⟨rfl, id⟩ h
        exact hP.complete { s with engine.descDequeued :=
            s.engine.descDequeued + BitVec.ofNat 32 (s.xfer t).descNum } t rest hlist hdeq
      . exact ⟨h, by simp [hlist]⟩

theorem engineServiceFinalTransfer_preserves (s : Driver) (descCompleted : BitVec 32) (h : P s)
    : Q (engineServiceFinalTransfer p s s.engine.transferList.head? descCompleted hw) := by
  unfold engineServiceFinalTransfer
  cases hlist : s.engine.transferList with
  | nil => exact hP.weaken s h
  | cons t rest =>
    dsimp only [List.head?_cons]
    rcases finalVerdict_cases p s t descCompleted with
      ⟨s', xfer', hregs, hverdict, heq⟩ | ⟨flags, descCmpl, heq⟩
    . rw [heq]
      have hlist' : s'.engine.transferList = t :: rest := by
        rw [hregs.eq]
        exact hlist
      have hverdict' : Verdict (s'.xfer t) xfer' := by
        rw [hregs.eq]
        exact hverdict
      exact hP.final s' t rest xfer' hlist' hverdict' (hP.regs s s' hregs h)
    . rw [heq]
      exact hP.mark s t rest flags descCmpl hlist h

theorem countServed_preserves (s : Driver) (descCount : BitVec 32) (h : P s)
    : Q (countServed p hw s descCount) := by
  unfold countServed
  dsimp only
  generalize hm : (if s.engine.transferList.head?.isSome then engineServicePerf s descCount else s)
    = m
  have hregs : ServiceRegs s m := by
    rw [← hm]
    split
    . exact engineServicePerf_regs s descCount
    . exact ⟨rfl, id⟩
  have hlist : s.engine.transferList = m.engine.transferList := by rw [hregs.eq]
  rw [hlist]
  have hloop := engineServiceTransferList_preserves hP m.engine.transferList.length m
    (descCount - m.engine.descDequeued) (hP.regs s m hregs h)
  dsimp only at hloop
  rw [hloop.2]
  exact engineServiceFinalTransfer_preserves hP _
    (engineServiceTransferList p hw m.engine.transferList.length m m.engine.transferList.head?
      (descCount - m.engine.descDequeued)).2.2 hloop.1

end Final

variable (hP : ServiceLeads p hw P Q)

include hP

theorem engineServiceResume_preserves (s : Driver) (h : Q s)
    : Q (engineServiceResume p s hw) := by
  unfold engineServiceResume
  split
  . split
    . cases hstart : engineStart p s hw with
      | none => exact h
      | some s' => exact hP.start s s' hstart h
    . split
      . exact hP.regsAfter s _ ⟨rfl, id⟩ h
      . exact h
  . split
    . exact hP.regsAfter s _ (xdmaEngineStop_regs p s) h
    . exact h

theorem engineServiceCount_preserves (s : Driver) (descCount : BitVec 32) (h : P s)
    : Q (engineServiceCount p s descCount hw) := by
  have hserved := countServed_preserves hP.toFinalLeads s descCount h
  rw [engineServiceCount_eq]
  split
  . exact hserved
  . exact engineServiceResume_preserves hP _ hserved

theorem engineService_preserves (s : Driver) (descWriteback : BitVec 32) (h : P s)
    : Q (engineService p s descWriteback hw) := by
  unfold engineService
  split
  . exact hP.weaken _ (hP.regs s _ ⟨rfl, id⟩ h)
  . have hstatus := hP.regs s _ (engineServiceStatus_regs p hw s descWriteback) h
    dsimp only
    split
    . exact hP.weaken _ hstatus
    . exact engineServiceCount_preserves hP _ _ hstatus

end Preserves

section Access

variable (p : ModuleParam) (hw : HwRegs)

theorem countServed_access (d : Driver) (descCount : BitVec 32)
    : let d' := countServed p hw d descCount
      d'.offline = d.offline ∧ d'.engine.shutdown.request = d.engine.shutdown.request
        ∧ d'.engine.eopFlush = d.engine.eopFlush := by
  have hleads : let P := fun s : Driver => s.offline = d.offline
        ∧ s.engine.shutdown.request = d.engine.shutdown.request
        ∧ s.engine.eopFlush = d.engine.eopFlush
      FinalLeads p hw P P := by
    refine ⟨?_, ?_, fun _ h => h, fun _ _ _ _ _ _ h => h, ?_⟩
    . intro s s' hregs h
      rw [hregs.eq]
      exact h
    . intro s t rest _ h
      rw [(engineTransferCompletion_frame p _ t hw).eq]
      exact h
    . intro s t rest xfer' _ _ h
      rw [(engineTransferCompletion_frame p _ t hw).eq]
      exact h
  exact countServed_preserves hleads d descCount ⟨rfl, rfl, rfl⟩

theorem engineServiceStatus_dequeued (d : Driver) (descWriteback : BitVec 32)
    : (engineServiceStatus p d descWriteback hw).engine.descDequeued = d.engine.descDequeued := by
  unfold engineServiceStatus engineServiceShutdown
  dsimp only
  split <;> split <;> rfl

end Access

end Xdma
