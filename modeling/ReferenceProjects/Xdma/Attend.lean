import ReferenceProjects.Xdma.Lemmas.Step

/-!
This module contains when no queued transfer is left behind on an idle engine.
-/

namespace Xdma

/-- While the engine takes transfers, one that is in its queue has it running. -/
def Driver.Attended (d : Driver) : Prop :=
  d.offline = false → d.engine.shutdown.request = false → d.engine.transferList ≠ [] →
    d.engine.running = true

instance (d : Driver) : Decidable d.Attended := inferInstanceAs (Decidable (_ → _ → _ → _))

/-- The status that a service goes by. -/
def serviceStatus (d : Driver) (descWriteback : BitVec 32) (hw : HwRegs) : BitVec 32 :=
  if descWriteback &&& wbCountMask = 0 ∨ descWriteback &&& wbErrMask ≠ 0 then
    hw.statusRc
  else
    d.engine.status

/--
A service of an `eop_flush` engine, which never restarts it, comes to its last transfer with the
engine busy, or completes that transfer and it is the last of the queue. An error and the end of a
packet stop the engine in any case.
-/
def eopServed (d : Driver) (status : BitVec 32) : List XferPtr → BitVec 32 → Bool
  | [], _ => true
  | t :: rest, descCompleted =>
    let xfer := d.xfer t
    if !xfer.cyclic && descCompleted > BitVec.ofNat 32 xfer.descNum then
      eopServed d status rest (descCompleted - BitVec.ofNat 32 xfer.descNum)
    else if status &&& errMask d.engine.dir ≠ 0 then
      rest.isEmpty
    else if descCompleted < BitVec.ofNat 32 xfer.descNum then
      if eopFlags d.engine xfer descCompleted.toNat &&& xferFlagStC2hEopRcved = 0 then
        status &&& xdmaStatBusy ≠ 0
      else
        rest.isEmpty
    else
      status &&& xdmaStatBusy ≠ 0 || rest.isEmpty

/-- A service that finds nothing completed finds the engine busy or the queue empty. -/
def ServiceRestarts (d : Driver) (descWriteback : BitVec 32) (hw : HwRegs) : Prop :=
  if serviceCount descWriteback hw = 0 then
    serviceStatus d descWriteback hw &&& xdmaStatBusy ≠ 0 ∨ d.engine.transferList = []
  else
    d.engine.eopFlush = true →
      eopServed d (serviceStatus d descWriteback hw) d.engine.transferList
        (serviceCount descWriteback hw - d.engine.descDequeued) = true

instance (d : Driver) (descWriteback : BitVec 32) (hw : HwRegs)
    : Decidable (ServiceRestarts d descWriteback hw) :=
  inferInstanceAs (Decidable (ite (serviceCount descWriteback hw = 0) (_ ∨ _) (_ → _)))

/--
A step stops no engine that has more to do, and makes none available again that was stopped:
- a service as above,
- a submission that gives up on its transfer and stops the engine has the only one in the queue,
- an engine that comes back online is running or has an empty queue.
-/
def Restarts (s : Sys) : Event → Prop
  | .service descWriteback hw =>
    s.drv.offline = false → s.drv.engine.shutdown.request = false → s.drv.engine.running = true →
      ServiceRestarts s.drv descWriteback hw
  | .thread r (.wake hw) =>
    s.drv.offline = false → s.drv.engine.shutdown.request = false →
      ¬ (s.drv.xfer (.tfer r 0)).Settled → hw.identifier &&& blockIdMask = blockIdHead →
        (s.drv.xfer (.tfer r 0)).descNum ≠ 0 → ∀ t ∈ s.drv.engine.transferList, t = .tfer r 0
  | .onlineEngine =>
    s.drv.offline = false → s.drv.engine.transferList ≠ [] → s.drv.engine.running = true
  | .clearOffline =>
    s.drv.engine.shutdown.request = false → s.drv.engine.transferList ≠ [] →
      s.drv.engine.running = true
  | _ => True

instance (s : Sys) : (e : Event) → Decidable (Restarts s e)
  | .service _ _ => inferInstanceAs (Decidable (_ → _ → _ → ServiceRestarts _ _ _))
  | .thread _ (.wake _) => inferInstanceAs (Decidable (_ → _ → _ → _ → _ → _))
  | .onlineEngine => inferInstanceAs (Decidable (_ → _ → _))
  | .clearOffline => inferInstanceAs (Decidable (_ → _ → _))
  | .submit .. => inferInstanceAs (Decidable True)
  | .setOffline => inferInstanceAs (Decidable True)
  | .offlineEngine => inferInstanceAs (Decidable True)
  | .thread _ .lock => inferInstanceAs (Decidable True)
  | .thread _ .init => inferInstanceAs (Decidable True)
  | .thread _ .check => inferInstanceAs (Decidable True)
  | .thread _ (.queue _) => inferInstanceAs (Decidable True)
  | .thread _ .destroy => inferInstanceAs (Decidable True)
  | .thread _ .exit => inferInstanceAs (Decidable True)

section Service

variable {p : ModuleParam} {thr : Nat → Option Thread} {d : Driver} {hw : HwRegs}

/-- An engine that is idle has an empty queue. -/
def Driver.Drained (d : Driver) : Prop := d.engine.transferList ≠ [] → d.engine.running = true

theorem drained_complete (hwf : WellFormed thr d) {t : XferPtr} {rest : List XferPtr}
    (hlist : d.engine.transferList = t :: rest) {m : Driver} (hregs : ServiceRegs d m)
    {xfer' : XdmaTransfer} (hverdict : Verdict (d.xfer t) xfer')
    : (engineTransferCompletion p (m.setXfer t xfer').listDel t hw).Drained
        ↔ m.engine.running = true ∨ rest = [] := by
  have hm : WellFormed thr m := by
    refine hwf.of_eq ?_ ?_ ?_ ?_ <;> rw [hregs.eq]
  have hlist' : m.engine.transferList = t :: rest := by
    rw [hregs.eq]
    exact hlist
  have hverdict' : Verdict (m.xfer t) xfer' := by
    rw [hregs.eq]
    exact hverdict
  have heq := (hm.complete_eq (p := p) hlist' hverdict' hw).2
  unfold Driver.Drained
  rw [heq]
  by_cases hrest : rest = [] <;> simp [hrest]

theorem drained_final (hwf : WellFormed thr d) (heop : d.engine.eopFlush = true) {t : XferPtr}
    {rest : List XferPtr} (hlist : d.engine.transferList = t :: rest)
    (hrun : d.engine.running = decide (d.engine.status &&& xdmaStatBusy ≠ 0))
    {descCompleted : BitVec 32}
    (hle : (!(d.xfer t).cyclic && descCompleted > BitVec.ofNat 32 (d.xfer t).descNum) = false)
    : (engineServiceFinalTransfer p d (some t) descCompleted hw).Drained
        ↔ eopServed d d.engine.status (t :: rest) descCompleted = true := by
  unfold engineServiceFinalTransfer finalVerdict eopServed
  dsimp only
  rw [hle, if_neg Bool.false_ne_true]
  by_cases herr : d.engine.status &&& errMask d.engine.dir ≠ 0
  . rw [if_pos herr, if_pos herr, engineErrHandle, xdmaEngineStop_setXfer]
    rw [drained_complete hwf hlist (xdmaEngineStop_regs p d) ⟨Or.inr rfl, rfl⟩]
    simp
  . rw [if_neg herr, if_neg herr]
    by_cases hshort : descCompleted < BitVec.ofNat 32 (d.xfer t).descNum
    . rw [if_pos hshort, if_pos hshort, if_pos heop]
      by_cases hflags : eopFlags d.engine (d.xfer t) descCompleted.toNat &&& xferFlagStC2hEopRcved = 0
      . rw [if_pos hflags, if_pos hflags]
        simp [Driver.Drained, Driver.setXfer, hlist, hrun]
      . rw [if_neg hflags, if_neg hflags, engineServiceShutdown, xdmaEngineStop_setXfer,
          Driver.setXfer_setXfer]
        have hregs : ServiceRegs d { xdmaEngineStop p d with engine.descDequeued :=
            d.engine.descDequeued + ((d.xfer t).descCmpl + descCompleted) } := ⟨rfl, by simp⟩
        have hverdict : Verdict (d.xfer t) { d.xfer t with
            state := .completed
            flags := eopFlags d.engine (d.xfer t) descCompleted.toNat
            descCmpl := (d.xfer t).descCmpl + descCompleted } := ⟨Or.inl rfl, rfl⟩
        refine (drained_complete hwf hlist hregs hverdict).trans ?_
        simp
    . rw [if_neg hshort, if_neg hshort]
      have hregs : ServiceRegs d { d with engine.descDequeued :=
          d.engine.descDequeued + BitVec.ofNat 32 (d.xfer t).descNum } := ⟨rfl, id⟩
      have hverdict : Verdict (d.xfer t) { d.xfer t with
          state := .completed, descCmpl := BitVec.ofNat 32 (d.xfer t).descNum } :=
        ⟨Or.inl rfl, rfl⟩
      refine (drained_complete hwf hlist hregs hverdict).trans ?_
      rw [hrun]
      simp

theorem eopServed_congr {status : BitVec 32} {d' : Driver}
    (hresult : d'.engine.cyclicResult = d.engine.cyclicResult)
    (hdir : d'.engine.dir = d.engine.dir) {l : List XferPtr}
    (hxfer : ∀ u ∈ l, d'.xfer u = d.xfer u) (descCompleted : BitVec 32)
    : eopServed d' status l descCompleted = eopServed d status l descCompleted := by
  induction l generalizing descCompleted with
  | nil => rfl
  | cons u rest ih =>
    have hflags : eopFlags d'.engine = eopFlags d.engine := by
      funext xfer n
      unfold eopFlags eopReceived
      rw [hresult]
    unfold eopServed
    dsimp only
    rw [hxfer u List.mem_cons_self, hflags, hdir,
      ih (fun v hv => hxfer v (List.mem_cons_of_mem u hv))]

variable (p hw) in
theorem drained_transferList (fuel : Nat) (hwf : WellFormed thr d)
    (heop : d.engine.eopFlush = true)
    (hrun : d.engine.running = decide (d.engine.status &&& xdmaStatBusy ≠ 0))
    (hfuel : d.engine.transferList.length ≤ fuel) (descCompleted : BitVec 32)
    : let r := engineServiceTransferList p hw fuel d d.engine.transferList.head? descCompleted
      (engineServiceFinalTransfer p r.1 r.2.1 r.2.2 hw).Drained
        ↔ eopServed d d.engine.status d.engine.transferList descCompleted = true := by
  induction fuel generalizing d descCompleted with
  | zero =>
    have hnil : d.engine.transferList = [] := List.eq_nil_of_length_eq_zero (by omega)
    rw [hnil]
    simp [engineServiceTransferList, engineServiceFinalTransfer, eopServed, Driver.Drained, hnil]
  | succ fuel ih =>
    cases hlist : d.engine.transferList with
    | nil =>
      simp [engineServiceTransferList, engineServiceFinalTransfer, eopServed, Driver.Drained, hlist]
    | cons t rest =>
      cases hpass : !(d.xfer t).cyclic && descCompleted > BitVec.ofNat 32 (d.xfer t).descNum with
      | false =>
        have heq : engineServiceTransferList p hw (fuel + 1) d (t :: rest).head? descCompleted
            = (d, some t, descCompleted) := by
          unfold engineServiceTransferList
          dsimp only [List.head?_cons]
          rw [hpass, if_neg Bool.false_ne_true]
        rw [heq]
        exact drained_final hwf heop hlist hrun hpass
      | true =>
        have hm : WellFormed thr (d.dequeue (BitVec.ofNat 32 (d.xfer t).descNum)) :=
          hwf.of_eq rfl rfl rfl rfl
        have hverdict : Verdict (d.xfer t) { d.xfer t with state := .completed } :=
          ⟨Or.inl rfl, rfl⟩
        have hround := engineServiceTransferList_pass p hw d t fuel hpass
        rcases hm.complete_eq (p := p) hlist hverdict hw with ⟨hwf', heq⟩
        rw [List.head?_cons, hround]
        dsimp only at hwf' heq ⊢
        generalize engineTransferCompletion p
          ((d.dequeue (BitVec.ofNat 32 (d.xfer t).descNum)).setXfer t
            { d.xfer t with state := .completed }).listDel t hw = d' at hwf' heq ⊢
        have hlist' : d'.engine.transferList = rest := by rw [heq]
        have hsame : d'.engine.status = d.engine.status ∧ d'.engine.dir = d.engine.dir
            ∧ d'.engine.cyclicResult = d.engine.cyclicResult
            ∧ d'.xfer = Function.update d.xfer t { d.xfer t with state := .completed } := by
          rw [heq]
          exact ⟨rfl, rfl, rfl, rfl⟩
        have hothers : ∀ u ∈ rest, d'.xfer u = d.xfer u := by
          intro u hu
          rw [hsame.2.2.2, Function.update_of_ne]
          rintro rfl
          rcases hwf.owned u (by rw [hlist]; exact List.mem_cons_self) with ⟨r, j, th, rfl, _⟩
          exact hwf.not_mem_rest hlist (Nat.le_refl j) hu
        have hrest := ih hwf' (by rw [heq]; exact heop) (by rw [heq]; exact hrun)
          (by rw [hlist, List.length_cons] at hfuel; rw [hlist']; omega)
          (descCompleted - BitVec.ofNat 32 (d.xfer t).descNum)
        rw [hlist', hsame.1] at hrest
        rw [hlist']
        refine hrest.trans ?_
        rw [eopServed_congr hsame.2.2.1 hsame.2.1 hothers]
        conv_rhs => unfold eopServed
        dsimp only
        rw [hpass, if_pos rfl]

theorem engineServiceResume_drained (d : Driver)
    : (engineServiceResume p d hw).Drained := by
  rcases engineServiceResume_cases p hw d with ⟨_, hstart⟩ | ⟨hregs, hidle, _⟩
  . rcases engineStart_eq hstart with ⟨_, t, rest, _, heq⟩
    rw [heq]
    exact fun _ => rfl
  . intro hne
    have hlist : d.engine.transferList ≠ [] := by
      rw [hregs.eq] at hne
      exact hne
    cases hrun : d.engine.running with
    | false => exact absurd (hidle hrun) hlist
    | true =>
      unfold engineServiceResume
      rw [hrun, if_neg (by simp), if_neg hlist]
      exact hrun

variable (p hw) in
theorem countServed_drained (hwf : WellFormed thr d) (heop : d.engine.eopFlush = true)
    (hrun : d.engine.running = decide (d.engine.status &&& xdmaStatBusy ≠ 0))
    (descCount : BitVec 32)
    : (countServed p hw d descCount).Drained
        ↔ eopServed d d.engine.status d.engine.transferList (descCount - d.engine.descDequeued)
          = true := by
  unfold countServed
  dsimp only
  generalize hm : (if d.engine.transferList.head?.isSome then engineServicePerf d descCount else d)
    = m
  have heq : m = { d with engine.xdmaPerf := m.engine.xdmaPerf } := by
    rw [← hm]
    split
    . exact engineServicePerf_eq d descCount
    . rfl
  have hsame : m.engine.transferList = d.engine.transferList ∧ m.engine.status = d.engine.status
      ∧ m.engine.descDequeued = d.engine.descDequeued := by
    rw [heq]
    exact ⟨rfl, rfl, rfl⟩
  have hmwf : WellFormed thr m := by
    refine hwf.of_eq ?_ ?_ ?_ ?_ <;> rw [heq]
  have hloop := drained_transferList p hw m.engine.transferList.length hmwf
    (by rw [heq]; exact heop) (by rw [heq]; exact hrun) (Nat.le_refl _)
    (descCount - m.engine.descDequeued)
  rw [hsame.1, hsame.2.1, hsame.2.2] at hloop
  rw [hsame.1, hsame.2.2]
  refine hloop.trans ?_
  rw [eopServed_congr (d := d) (by rw [heq]) (by rw [heq]) (by rw [heq]; exact fun _ _ => rfl)]

theorem serviceCount_eq_zero {descWriteback : BitVec 32} (h : serviceCount descWriteback hw = 0)
    : descWriteback &&& wbCountMask = 0 := by
  by_contra hne
  unfold serviceCount at h
  dsimp only at h
  rw [if_neg hne] at h
  exact hne h

variable (p hw) in
theorem engineServiceStatus_stops (hrun : d.engine.running = true) (descWriteback : BitVec 32)
    : let m := engineServiceStatus p d descWriteback hw
      m.engine.status = serviceStatus d descWriteback hw
        ∧ m.engine.descDequeued = d.engine.descDequeued
        ∧ (d.engine.eopFlush = true ∨ descWriteback &&& wbCountMask = 0 →
          m.engine.running = decide (serviceStatus d descWriteback hw &&& xdmaStatBusy ≠ 0)) := by
  have hread : (if descWriteback &&& wbCountMask = 0 ∨ descWriteback &&& wbErrMask ≠ 0 then
        { d with engine.status := hw.statusRc } else d)
      = { d with engine.status := serviceStatus d descWriteback hw } := by
    unfold serviceStatus
    split <;> rfl
  unfold engineServiceStatus
  dsimp only
  rw [hread]
  generalize serviceStatus d descWriteback hw = status
  refine ⟨by split <;> rfl, by split <;> rfl, ?_⟩
  intro h
  split
  . next hstop =>
    have hidle : status &&& xdmaStatBusy = 0 := by
      rcases hstop with hidle | hcount
      . exact hidle
      . rcases h with heop | hzero
        . simp [heop] at hcount
        . exact absurd hzero hcount.2
    exact (decide_eq_false (not_not.mpr hidle)).symm
  . next hgo =>
    rw [not_or] at hgo
    exact hrun.trans (decide_eq_true hgo.1).symm

theorem engineService_attended_iff (hwf : WellFormed thr d) (hatt : d.Attended)
    (descWriteback : BitVec 32) (hw : HwRegs)
    : (engineService p d descWriteback hw).Attended
        ↔ (d.offline = false → d.engine.shutdown.request = false → d.engine.running = true →
          ServiceRestarts d descWriteback hw) := by
  unfold engineService
  cases hrun : d.engine.running with
  | false =>
    rw [if_pos Bool.not_false]
    exact iff_of_true hatt (fun _ _ h => absurd h Bool.false_ne_true)
  | true =>
    rw [if_neg (by simp)]
    dsimp only
    have hregs := engineServiceStatus_regs p hw d descWriteback
    rcases engineServiceStatus_stops p hw hrun descWriteback with
      ⟨hstatus, hdeq, hstops⟩
    generalize engineServiceStatus p d descWriteback hw = m at hregs hstatus hdeq hstops
    have hsame : m.offline = d.offline
        ∧ m.engine.shutdown.request = d.engine.shutdown.request
        ∧ m.engine.transferList = d.engine.transferList
        ∧ m.engine.eopFlush = d.engine.eopFlush := by
      rw [hregs.eq]
      exact ⟨rfl, rfl, rfl, rfl⟩
    unfold ServiceRestarts
    by_cases hzero : serviceCount descWriteback hw = 0
    . rw [if_pos hzero, if_pos hzero]
      unfold Driver.Attended
      rw [hsame.1, hsame.2.1, hsame.2.2.1, hstops (Or.inr (serviceCount_eq_zero hzero))]
      refine imp_congr_right (fun _ => imp_congr_right (fun _ => ?_))
      by_cases hlist : d.engine.transferList = [] <;> simp [hlist]
    . rw [if_neg hzero, if_neg hzero, engineServiceCount_eq]
      rcases countServed_access p hw m (serviceCount descWriteback hw) with
        ⟨hoff, hreq, heop⟩
      cases heop' : d.engine.eopFlush with
      | false =>
        rw [heop, hsame.2.2.2, heop', if_neg Bool.false_ne_true]
        refine iff_of_true (fun _ _ => engineServiceResume_drained _) (fun _ _ _ h => ?_)
        exact absurd h Bool.false_ne_true
      | true =>
        rw [heop, hsame.2.2.2, heop', if_pos rfl]
        have hmwf : WellFormed thr m := by
          refine hwf.of_eq ?_ ?_ ?_ ?_ <;> rw [hregs.eq]
        have hdrained := countServed_drained p hw hmwf (hsame.2.2.2.trans heop')
          (by rw [hstatus]; exact hstops (Or.inl heop')) (serviceCount descWriteback hw)
        rw [hstatus, hdeq, hsame.2.2.1, eopServed_congr (d := d) (by rw [hregs.eq])
          (by rw [hregs.eq]) (by rw [hregs.eq]; exact fun _ _ => rfl)] at hdrained
        unfold Driver.Attended
        rw [hoff, hreq, hsame.1, hsame.2.1]
        refine imp_congr_right (fun _ => imp_congr_right (fun _ => ?_))
        exact hdrained.trans (by simp)

end Service

section Step

variable {p : ModuleParam} {s s' : Sys}

theorem Driver.Attended.congr {d d' : Driver} (h : d.Attended) (hoff : d'.offline = d.offline)
    (hreq : d'.engine.shutdown.request = d.engine.shutdown.request)
    (hlist : d'.engine.transferList = d.engine.transferList)
    (hrun : d'.engine.running = d.engine.running)
    : d'.Attended := by
  unfold Driver.Attended
  rw [hoff, hreq, hlist, hrun]
  exact h

theorem unlinkHead_eq_nil_iff {r j : Nat} {l : List XferPtr} (hsorted : l.Pairwise XferPtr.Before)
    : unlinkHead (.tfer r j) l = [] ↔ ∀ t ∈ l, t = .tfer r j := by
  cases l with
  | nil => simp [unlinkHead]
  | cons head rest =>
    simp only [unlinkHead]
    by_cases hhead : head = .tfer r j
    . rw [if_pos hhead]
      constructor
      . rintro rfl t ht
        rwa [List.mem_singleton.mp ht]
      . intro hall
        cases rest with
        | nil => rfl
        | cons u rest =>
          -- the queue holds a transfer once
          have hu := hall u (List.mem_cons_of_mem _ List.mem_cons_self)
          have hbefore := (List.pairwise_cons.mp hsorted).1 u List.mem_cons_self r j j hhead hu
          exact absurd hbefore (Nat.lt_irrefl j)
    . rw [if_neg hhead]
      simp [hhead]

theorem submitWake_attended_iff (hwf : WellFormed s.thr s.drv) (hatt : s.drv.Attended) (r : Nat)
    (hw : HwRegs)
    : (submitWake p s.drv (.tfer r 0) hw).Attended ↔ Restarts s (.thread r (.wake hw)) := by
  by_cases hsettled : (s.drv.xfer (.tfer r 0)).Settled
  . rw [submitWake_of_settled p hsettled hw]
    exact iff_of_true hatt (fun _ _ h => absurd hsettled h)
  . have heq : submitWake p s.drv (.tfer r 0) hw = submitTimeout p s.drv (.tfer r 0) hw := by
      unfold submitWake
      split
      . next h => exact absurd (Or.inl h) hsettled
      . next h => exact absurd (Or.inr h) hsettled
      . rfl
    rw [heq]
    unfold submitTimeout
    rw [engineStatusRead_dump]
    by_cases hid : hw.identifier &&& blockIdMask = blockIdHead
    . rw [if_neg (not_not.mpr hid)]
      dsimp only
      unfold transferAbort
      dsimp only
      by_cases hnum : (s.drv.xfer (.tfer r 0)).descNum = 0
      . rw [if_pos hnum]
        exact iff_of_true (hatt.congr rfl rfl rfl rfl) (fun _ _ _ _ h => absurd hnum h)
      . rw [if_neg hnum]
        have hlist : ∀ xfer, (xdmaEngineStop p (Driver.setXfer { s.drv with
            engine.status := hw.status
            engine.transferList := unlinkHead (.tfer r 0) s.drv.engine.transferList }
            (.tfer r 0) xfer)).Attended ↔ (s.drv.offline = false →
              s.drv.engine.shutdown.request = false →
              unlinkHead (.tfer r 0) s.drv.engine.transferList = []) := by
          intro xfer
          simp only [Driver.Attended, xdmaEngineStop, Driver.writeControl, Driver.setXfer,
            Bool.false_eq_true, imp_false, not_not]
        refine (hlist _).trans ?_
        rw [unlinkHead_eq_nil_iff hwf.sorted]
        simp only [Restarts]
        refine imp_congr_right (fun _ => imp_congr_right (fun _ => ?_))
        simp [hsettled, hid, hnum]
    . rw [if_pos hid]
      exact iff_of_true hatt (fun _ _ _ h => absurd h hid)

theorem Sys.stepThread_attended_iff (hwf : WellFormed s.thr s.drv) (hatt : s.drv.Attended)
    {r : Nat} {th : Thread} {op : ThreadOp} (h : s.stepThread p r th op = some s')
    : s'.drv.Attended ↔ Restarts s (.thread r op) := by
  have hcases := Sys.stepThread_cases h
  cases op with
  | lock =>
    rcases hcases with ⟨_, _, _, rfl⟩
    exact iff_of_true hatt trivial
  | init =>
    rcases hcases with ⟨k, n, _, rfl⟩
    exact iff_of_true (hatt.congr rfl rfl rfl rfl) trivial
  | check =>
    rcases hcases with ⟨k, n, _, rfl⟩
    exact iff_of_true hatt trivial
  | queue hw =>
    rcases hcases with ⟨k, n, _, ⟨_, rfl⟩ | ⟨d', hok, rfl⟩⟩
    . exact iff_of_true hatt trivial
    . refine iff_of_true (fun _ _ _ => ?_) trivial
      dsimp only [Sys.setThread]
      rw [transferQueueLocked_eq hok]
  | wake hw =>
    rcases hcases with ⟨n, hpc, rfl⟩
    have htfer : th.tfer r 0 = .tfer r 0 := by simp [Thread.tfer]
    dsimp only [Sys.setThread]
    rw [htfer]
    exact submitWake_attended_iff hwf hatt r hw
  | destroy =>
    rcases hcases with ⟨n, failed, _, rfl⟩
    refine iff_of_true ?_ trivial
    dsimp only [Sys.setThread]
    rw [submitDestroy_eq]
    exact hatt.congr rfl rfl rfl rfl
  | exit =>
    rcases hcases with ⟨_, rfl⟩
    refine iff_of_true ?_ trivial
    dsimp only [Sys.setThread]
    rw [submitExit_eq]
    exact hatt.congr rfl rfl rfl rfl

theorem Sys.step_attended_iff (hwf : WellFormed s.thr s.drv) (hatt : s.drv.Attended) {e : Event}
    (h : s.step p e = some s')
    : s'.drv.Attended ↔ Restarts s e := by
  cases e with
  | submit r wait dmaMapped write alloc epAddr sgl =>
    refine iff_of_true ?_ trivial
    simp only [Sys.step] at h
    split at h
    . contradiction
    . split at h
      . contradiction
      . next d err hreq =>
        rw [← Option.some.inj h]
        dsimp only [Sys.setThread]
        rw [(submitRequest_eq hreq).1]
        exact hatt
      . next d req hreq =>
        rw [← Option.some.inj h]
        dsimp only [Sys.setThread]
        rw [(submitRequest_eq hreq).1]
        exact hatt
  | thread r op =>
    simp only [Sys.step, Option.bind_eq_some_iff] at h
    rcases h with ⟨th, _, h⟩
    exact Sys.stepThread_attended_iff hwf hatt h
  | service descWriteback hw =>
    rw [← Option.some.inj h]
    exact engineService_attended_iff hwf hatt descWriteback hw
  | setOffline =>
    rw [← Option.some.inj h]
    exact iff_of_true (fun h => absurd h (by simp)) trivial
  | offlineEngine =>
    rw [← Option.some.inj h]
    exact iff_of_true (fun _ h => absurd h Bool.true_eq_false.mp) trivial
  | onlineEngine =>
    rw [← Option.some.inj h]
    unfold Driver.Attended Restarts deviceOnlineEngine engineInitRegs
    simp
  | clearOffline =>
    rw [← Option.some.inj h]
    unfold Driver.Attended Restarts
    simp

end Step

/--
A run keeps the engine running whenever a transfer is queued that it may work on, exactly if each of
its steps restarts what it has to.
-/
theorem attended_iff_restarts (p : ModuleParam) (s : Sys) (hinit : s.Initial) (es : List Event)
    : Transition.StatesHold (Sys.step p) (fun s => s.drv.Attended) s es
        ↔ Transition.StepsHold (Sys.step p) (fun s e _ => Restarts s e) s es := by
  refine Transition.statesHold_iff_stepsHold
    (fun s : Sys => WellFormed s.thr s.drv ∧ s.drv.Attended) (fun _ h => h.2) ?_ ?_ ?_
  . intro s e s' hinv hrestarts h
    exact ⟨Sys.step_wellFormed hinv.1 h, (Sys.step_attended_iff hinv.1 hinv.2 h).mpr hrestarts⟩
  . intro s e s' hinv h hatt
    exact (Sys.step_attended_iff hinv.1 hinv.2 h).mp hatt
  . refine ⟨hinit.wellFormed, ?_⟩
    intro _ _ hne
    exact absurd hinit.transferList hne

/-- Two requests complete one after the other, a third one times out, and the device goes offline. -/
theorem attended_iff_restarts_timeout
    : Transition.StatesHold (Sys.step ⟨false, false, 4096⟩) (fun s => s.drv.Attended)
        (Sys.init .toDevice false)
        (submitFirst 0 false true ++ submitFirst 1 true true
          ++ [.service 0 (healthyRegs 1), .service 0 (healthyRegs 1)] ++ submitLast 1
          ++ submitFirst 2 true true ++ submitLast 2
          ++ [.setOffline, .offlineEngine, .onlineEngine, .clearOffline]) :=
  (attended_iff_restarts _ _ (Sys.init_initial .toDevice false) _).mpr (by decide)

/--
A service that finds the engine neither busy nor with a completed descriptor stops it and returns:
the transfer in the queue is left behind.
-/
theorem not_attended_zero_count
    : (Sys.init .toDevice false).Initial
        ∧ ¬ Transition.StatesHold (Sys.step ⟨false, false, 4096⟩) (fun s => s.drv.Attended)
          (Sys.init .toDevice false) (submitFirst 0 false true ++ [.service 0 (healthyRegs 0)]) :=
  ⟨Sys.init_initial .toDevice false, by decide⟩

end Xdma
