import ReferenceProjects.Xdma.Lemmas.Service

/-!
This module contains that servicing an engine by polling and servicing it by interrupts come to the
same, although the one works with the status that was last stored and the other one reads it.
-/

namespace Xdma

/-- The status has a bit that the service of the engine takes for an error. -/
def XdmaEngine.HasError (e : XdmaEngine) : Prop := e.status &&& errMask e.dir ≠ 0

instance (e : XdmaEngine) : Decidable e.HasError := inferInstanceAs (Decidable (_ ≠ _))

/-- The driver with another status word, and with other writes to the control register behind it. -/
def Driver.patch (s : Driver) (status control : BitVec 32) (writes : List (BitVec 32)) : Driver :=
  { s with
      engine.status := status
      engine.regs.control := control
      hist.controlWrites := writes
  }

/-- The same driver in both modes, which see an error in the status both or not at all. -/
structure Alike (s s' : Driver) : Prop where
  eq : s' = s.patch s'.engine.status s'.engine.regs.control s'.hist.controlWrites
  error : s'.engine.HasError ↔ s.engine.HasError

/-- The module in the other mode. -/
def ModuleParam.mode (p : ModuleParam) (pollMode : Bool) : ModuleParam :=
  { p with pollMode := pollMode }

/-- The function neither uses nor changes what the modes differ in. -/
structure Ignores (f : Driver → Driver) : Prop where
  patch : ∀ s status control writes,
    f (s.patch status control writes) = (f s).patch status control writes
  dir : ∀ s, (f s).engine.dir = s.engine.dir

/-- The waiter of the transfer is woken. -/
def Driver.wakeup (s : Driver) (t : XferPtr) : Driver :=
  { s with hist.wakeups := t :: s.hist.wakeups }

theorem engineTransferCompletion_eq (p : ModuleParam) (s : Driver) (t : XferPtr) (hw : HwRegs)
    : engineTransferCompletion p s t hw
        =
      match ((s.wakeup t).xfer t).cb, ((s.wakeup t).xfer t).lastInRequest with
      | some r, true => (xdmaXferCompletion p (s.wakeup t) r hw).1
      | _, _ => s.wakeup t := rfl

section Completion

variable {p : ModuleParam} {pollMode : Bool} {s s' : Driver} {f : Driver → Driver}

theorem Alike.refl (s : Driver)
    : Alike s s := ⟨rfl, Iff.rfl⟩

theorem Alike.transferList (h : Alike s s')
    : s'.engine.transferList = s.engine.transferList := by
  rw [h.eq]
  rfl

theorem Alike.xfer (h : Alike s s')
    : s'.xfer = s.xfer := by
  rw [h.eq]
  rfl

theorem Alike.eopFlush (h : Alike s s')
    : s'.engine.eopFlush = s.engine.eopFlush := by
  rw [h.eq]
  rfl

theorem Ignores.hasError (hf : Ignores f) (s : Driver)
    : (f s).engine.HasError ↔ s.engine.HasError := by
  have hpatch : f s = (f s).patch s.engine.status s.engine.regs.control s.hist.controlWrites :=
    hf.patch s s.engine.status s.engine.regs.control s.hist.controlWrites
  have hstatus : (f s).engine.status = s.engine.status := by
    rw [hpatch]
    rfl
  unfold XdmaEngine.HasError
  rw [hstatus, hf.dir]

theorem Alike.map (h : Alike s s') (hf : Ignores f)
    : Alike (f s) (f s') where
  eq := by
    have hpatch := hf.patch s s'.engine.status s'.engine.regs.control s'.hist.controlWrites
    rw [← h.eq] at hpatch
    rw [hpatch]
    rfl
  error := by
    rw [hf.hasError, hf.hasError]
    exact h.error

theorem Alike.stop (h : Alike s s')
    : Alike (xdmaEngineStop p s) (xdmaEngineStop (p.mode pollMode) s') where
  eq := by
    rw [h.eq]
    rfl
  error := h.error

theorem Alike.statusRead (h : Alike s s') (status : BitVec 32)
    : Alike { s with engine.status := status } { s' with engine.status := status } := by
  rw [h.eq]
  exact ⟨rfl, Iff.rfl⟩

theorem ignores_setXfer (t : XferPtr) (xfer : XdmaTransfer)
    : Ignores (fun s => s.setXfer t xfer) := ⟨fun _ _ _ _ => rfl, fun _ => rfl⟩

theorem ignores_listDel
    : Ignores Driver.listDel := ⟨fun _ _ _ _ => rfl, fun _ => rfl⟩

theorem ignores_dequeue (n : BitVec 32)
    : Ignores (fun s => s.dequeue n) := ⟨fun _ _ _ _ => rfl, fun _ => rfl⟩

theorem ignores_requestFree (r : Nat)
    : Ignores (fun s => xdmaRequestFree s r) := ⟨fun _ _ _ _ => rfl, fun _ => rfl⟩

theorem ignores_wakeup (t : XferPtr)
    : Ignores (fun s => s.wakeup t) := ⟨fun _ _ _ _ => rfl, fun _ => rfl⟩

theorem ignores_unmapSg (r : Nat)
    : Ignores (fun s => s.unmapSg r) := by
  constructor
  . intro s status control writes
    unfold Driver.unmapSg Driver.patch
    dsimp only
    split <;> rfl
  . intro s
    unfold Driver.unmapSg
    dsimp only
    split <;> rfl

theorem ignores_transferAbort (t : XferPtr)
    : Ignores (fun s => keepOnError (transferAbort s t) s) := by
  constructor
  . intro s status control writes
    unfold transferAbort Driver.patch
    dsimp only
    split <;> rfl
  . intro s
    unfold transferAbort
    dsimp only
    split <;> rfl

theorem ignores_transferDestroy (t : XferPtr)
    : Ignores (fun s => transferDestroy s t) := by
  constructor
  . intro s status control writes
    unfold transferDestroy
    dsimp only [Driver.patch]
    split
    . split
      . exact (ignores_unmapSg _).patch
          { s with
              engine.desc := xdmaDescDone s.engine.desc (s.xfer t).descIndex (s.xfer t).descNum
              hist.live := s.hist.live.filter (fun u => u ≠ t)
          } status control writes
      . rfl
    . rfl
  . intro s
    rw [transferDestroy_eq]

theorem ignores_destroyUsed (t : XferPtr)
    : Ignores (fun s =>
        let s := transferDestroy s t
        { s with engine.descUsed := s.engine.descUsed - (s.xfer t).descNum }) where
  patch := by
    intro s status control writes
    dsimp only
    rw [(ignores_transferDestroy t).patch]
    rfl
  dir := (ignores_transferDestroy t).dir

theorem Alike.completionSwitch (h : Alike s s') (t : XferPtr) (hw : HwRegs)
    : let m := Xdma.completionSwitch p s t hw
      let m' := Xdma.completionSwitch (p.mode pollMode) s' t hw
      Alike m.1 m'.1 ∧ m'.2 = m.2 := by
  unfold Xdma.completionSwitch
  dsimp only
  have hstream : s'.engine.streamC2h = s.engine.streamC2h := by
    rw [h.eq]
    rfl
  have htotal : ∀ xfer n, resultTotal s'.engine xfer n = resultTotal s.engine xfer n := by
    intro xfer n
    rw [h.eq]
    rfl
  rw [h.xfer, hstream]
  split
  . split
    . exact ⟨h, by rw [htotal]⟩
    . exact ⟨h, rfl⟩
  . exact ⟨h, rfl⟩
  . refine ⟨?_, rfl⟩
    rw [engineStatusRead_dump, engineStatusRead_dump]
    split
    . exact (h.map (ignores_transferAbort t)).stop
    . exact ((h.statusRead hw.status).map (ignores_transferAbort t)).stop

theorem Alike.completionLoop (h : Alike s s') (r : Nat) (hw : HwRegs)
    (fuel tferIdx nents : Nat) (done : Nat)
    : Alike (Xdma.completionLoop p r hw fuel tferIdx nents s done).1
        (Xdma.completionLoop (p.mode pollMode) r hw fuel tferIdx nents s' done).1 := by
  induction fuel generalizing tferIdx nents s s' done with
  | zero => exact h
  | succ fuel ih =>
    unfold Xdma.completionLoop
    split
    . exact h
    . dsimp only
      have hswitch := @Alike.completionSwitch p pollMode _ _ h (.tfer r tferIdx) hw
      have hbytes := congrArg Prod.fst hswitch.2
      have hmore := congrArg Prod.snd hswitch.2
      rw [hbytes, hmore, h.xfer]
      have hdestroy := hswitch.1.map (ignores_destroyUsed (.tfer r tferIdx))
      split
      . exact ih hdestroy _ _ _
      . exact hdestroy

theorem Alike.xdmaXferCompletion (h : Alike s s') (r : Nat) (hw : HwRegs)
    : Alike (Xdma.xdmaXferCompletion p s r hw).1
        (Xdma.xdmaXferCompletion (p.mode pollMode) s' r hw).1 := by
  unfold Xdma.xdmaXferCompletion
  dsimp only
  have hreq : s'.req r = s.req r := by
    rw [h.eq]
    rfl
  rw [hreq]
  have hloop := @Alike.completionLoop p pollMode _ _ h r hw (s.req r).swDescCnt 0
    (s.req r).swDescCnt 0
  exact (hloop.map (ignores_unmapSg r)).map (ignores_requestFree r)

theorem Alike.engineTransferCompletion (h : Alike s s') (t : XferPtr) (hw : HwRegs)
    : Alike (Xdma.engineTransferCompletion p s t hw)
        (Xdma.engineTransferCompletion (p.mode pollMode) s' t hw) := by
  have hwake := h.map (ignores_wakeup t)
  rw [engineTransferCompletion_eq, engineTransferCompletion_eq, hwake.xfer]
  split
  . exact hwake.xdmaXferCompletion _ hw
  . exact hwake

end Completion

section Service

variable {p : ModuleParam} {pollMode : Bool} {s s' : Driver} {hw : HwRegs}

theorem Alike.engineServiceTransferList (h : Alike s s') (fuel : Nat) (transfer : Option XferPtr)
    (descCompleted : BitVec 32)
    : let m := Xdma.engineServiceTransferList p hw fuel s transfer descCompleted
      let m' := Xdma.engineServiceTransferList (p.mode pollMode) hw fuel s' transfer descCompleted
      Alike m.1 m'.1 ∧ m'.2 = m.2 := by
  induction fuel generalizing s s' transfer descCompleted with
  | zero => exact ⟨h, rfl⟩
  | succ fuel ih =>
    cases transfer with
    | none => exact ⟨h, rfl⟩
    | some t =>
      by_cases hpass : (!(s.xfer t).cyclic
          && descCompleted > BitVec.ofNat 32 (s.xfer t).descNum) = true
      . have hpass' : (!(s'.xfer t).cyclic
            && descCompleted > BitVec.ofNat 32 (s'.xfer t).descNum) = true := by
          rw [h.xfer]
          exact hpass
        rw [engineServiceTransferList_pass p hw s t fuel hpass,
          engineServiceTransferList_pass (p.mode pollMode) hw s' t fuel hpass', h.xfer]
        dsimp only
        have hdel := ((h.map (ignores_dequeue (BitVec.ofNat 32 (s.xfer t).descNum))).map
          (ignores_setXfer t { s.xfer t with state := .completed })).map ignores_listDel
        have hdone := @Alike.engineTransferCompletion p pollMode _ _ hdel t hw
        rw [hdone.transferList]
        exact ih hdone _ _
      . unfold Xdma.engineServiceTransferList
        dsimp only
        rw [h.xfer, if_neg hpass, if_neg hpass]
        exact ⟨h, rfl⟩

theorem Alike.finalVerdict (h : Alike s s') (t : XferPtr) (descCompleted : BitVec 32)
    : let m := Xdma.finalVerdict p s t descCompleted
      let m' := Xdma.finalVerdict (p.mode pollMode) s' t descCompleted
      Alike m.1 m'.1 ∧ m'.2 = m.2 := by
  have hflags : eopFlags s'.engine = eopFlags s.engine := by
    rw [h.eq]
    rfl
  unfold Xdma.finalVerdict
  dsimp only
  rw [h.xfer, h.eopFlush, hflags]
  by_cases herr : s.engine.HasError
  . have herr' := h.error.mpr herr
    unfold XdmaEngine.HasError at herr herr'
    rw [if_pos herr, if_pos herr']
    refine ⟨?_, rfl⟩
    unfold engineErrHandle
    rw [h.xfer]
    exact (h.map (ignores_setXfer t _)).stop
  . have herr' := mt h.error.mp herr
    unfold XdmaEngine.HasError at herr herr'
    rw [if_neg herr, if_neg herr']
    split
    . split
      . split
        . exact ⟨h.map (ignores_setXfer t _), rfl⟩
        . refine ⟨?_, rfl⟩
          exact ((((h.map (ignores_setXfer t _)).stop).map (ignores_setXfer t _)).map
            (ignores_dequeue _))
      . exact ⟨(h.map (ignores_setXfer t _)).map (ignores_dequeue _), rfl⟩
    . exact ⟨(h.map (ignores_setXfer t _)).map (ignores_dequeue _), rfl⟩

theorem Alike.engineServiceFinalTransfer (h : Alike s s') (transfer : Option XferPtr)
    (descCompleted : BitVec 32)
    : Alike (Xdma.engineServiceFinalTransfer p s transfer descCompleted hw)
        (Xdma.engineServiceFinalTransfer (p.mode pollMode) s' transfer descCompleted hw) := by
  cases transfer with
  | none => exact h
  | some t =>
    have hverdict := @Alike.finalVerdict p pollMode _ _ h t descCompleted
    unfold Xdma.engineServiceFinalTransfer
    dsimp only at hverdict ⊢
    generalize Xdma.finalVerdict p s t descCompleted = m at hverdict
    generalize Xdma.finalVerdict (p.mode pollMode) s' t descCompleted = m' at hverdict
    obtain ⟨d, deleted⟩ := m
    obtain ⟨d', deleted'⟩ := m'
    obtain ⟨hd, heq⟩ := hverdict
    dsimp only at hd heq
    subst heq
    cases deleted' with
    | true => exact (hd.map ignores_listDel).engineTransferCompletion t hw
    | false => exact hd

theorem Alike.engineStartModeConfig (h : Alike s s')
    : Alike (Xdma.engineStartModeConfig p s) (Xdma.engineStartModeConfig (p.mode pollMode) s') := by
  have herr := h.error
  rw [h.eq] at herr ⊢
  unfold Xdma.engineStartModeConfig
  cases hperf : s.engine.xdmaPerf with
  | none =>
    have hsome : (s.patch s'.engine.status s'.engine.regs.control
        s'.hist.controlWrites).engine.xdmaPerf.isSome = false := congrArg Option.isSome hperf
    rw [hsome]
    exact ⟨rfl, herr⟩
  | some perf =>
    have hsome : (s.patch s'.engine.status s'.engine.regs.control
        s'.hist.controlWrites).engine.xdmaPerf.isSome = true := congrArg Option.isSome hperf
    rw [hsome]
    exact ⟨rfl, herr⟩

theorem ignores_credits (p : ModuleParam)
    : Ignores (fun s =>
        if p.enableCreditMp && s.engine.streamC2h then
          { s with
              engine.regs.credits := s.engine.descUsed
              hist.credits := (s.engine.descUsed, s.liveDescs) :: s.hist.credits
          }
        else
          s) := by
  constructor
  . intro s status control writes
    have hstream : (s.patch status control writes).engine.streamC2h = s.engine.streamC2h := rfl
    dsimp only
    rw [hstream]
    split <;> rfl
  . intro s
    dsimp only
    split <;> rfl

theorem ignores_start (xfer : XdmaTransfer)
    : Ignores (fun s => { s with
        engine.descDequeued := 0
        engine.regs.firstDescLo := pciDmaL xfer.descBus
        engine.regs.firstDescHi := pciDmaH xfer.descBus
        engine.regs.firstDescAdjacent := xdmaGetNextAdj xfer.descAdjacent (pciDmaL xfer.descBus)
      }) := ⟨fun _ _ _ _ => rfl, fun _ => rfl⟩

theorem ignores_shutdown (shutdown : ShutdownState)
    : Ignores (fun s => { s with engine.shutdown := shutdown }) :=
  ⟨fun _ _ _ _ => rfl, fun _ => rfl⟩

theorem ignores_idle
    : Ignores (fun s => { s with engine.shutdown.idle := true }) :=
  ⟨fun _ _ _ _ => rfl, fun _ => rfl⟩

theorem ignores_started (t : XferPtr)
    : Ignores (fun s => { s with engine.running := true, hist.starts := t :: s.hist.starts }) :=
  ⟨fun _ _ _ _ => rfl, fun _ => rfl⟩

theorem Alike.engineStart (h : Alike s s')
    : (Xdma.engineStart p s hw = none ∧ Xdma.engineStart (p.mode pollMode) s' hw = none)
      ∨ ∃ d d', Xdma.engineStart p s hw = some d
        ∧ Xdma.engineStart (p.mode pollMode) s' hw = some d' ∧ Alike d d' := by
  have hrun : s'.engine.running = s.engine.running := by
    rw [h.eq]
    rfl
  unfold Xdma.engineStart
  rw [hrun, h.transferList]
  split
  . exact .inl ⟨rfl, rfl⟩
  . cases s.engine.transferList with
    | nil => exact .inl ⟨rfl, rfl⟩
    | cons t rest =>
      refine .inr ⟨_, _, rfl, rfl, ?_⟩
      rw [congrFun h.xfer t]
      have hcredits := (h.map (ignores_shutdown ⟨false, false⟩)).map (ignores_credits p)
      have hmode := @Alike.engineStartModeConfig p pollMode _ _
        (hcredits.map (ignores_start (s.xfer t)))
      exact (hmode.statusRead hw.status).map (ignores_started t)

theorem Alike.engineServiceResume (h : Alike s s')
    : Alike (Xdma.engineServiceResume p s hw)
        (Xdma.engineServiceResume (p.mode pollMode) s' hw) := by
  have hrun : s'.engine.running = s.engine.running := by
    rw [h.eq]
    rfl
  have hrequest : s'.engine.shutdown = s.engine.shutdown := by
    rw [h.eq]
    rfl
  unfold Xdma.engineServiceResume
  rw [hrun, h.transferList, hrequest]
  split
  . split
    . obtain ⟨hnone, hnone'⟩ | ⟨d, d', hd, hd', hdd⟩ :=
        @Alike.engineStart p pollMode _ _ hw h
      . rw [hnone, hnone']
        exact h
      . rw [hd, hd']
        exact hdd
    . split
      . exact h.map ignores_idle
      . exact h
  . split
    . exact h.stop
    . exact h

theorem engineServicePerf_none (s : Driver) (descCompleted : BitVec 32)
    (hperf : s.engine.xdmaPerf = none)
    : engineServicePerf s descCompleted = s := by
  unfold engineServicePerf
  rw [hperf]

theorem countServed_none (p : ModuleParam) (hw : HwRegs) (s : Driver) (descCount : BitVec 32)
    (hperf : s.engine.xdmaPerf = none)
    : let r := engineServiceTransferList p hw s.engine.transferList.length s
          s.engine.transferList.head? (descCount - s.engine.descDequeued)
      countServed p hw s descCount = engineServiceFinalTransfer p r.1 r.2.1 r.2.2 hw := by
  unfold countServed
  dsimp only
  rw [engineServicePerf_none s descCount hperf, ite_self]

theorem Alike.countServed (h : Alike s s') (hperf : s.engine.xdmaPerf = none)
    (descCount : BitVec 32)
    : Alike (Xdma.countServed p hw s descCount)
        (Xdma.countServed (p.mode pollMode) hw s' descCount) := by
  have hperf' : s'.engine.xdmaPerf = none := by
    rw [h.eq]
    exact hperf
  have hdequeued : s'.engine.descDequeued = s.engine.descDequeued := by
    rw [h.eq]
    rfl
  rw [countServed_none p hw s descCount hperf, countServed_none _ hw s' descCount hperf',
    h.transferList, hdequeued]
  have hlist := @Alike.engineServiceTransferList p pollMode _ _ hw h
    s.engine.transferList.length s.engine.transferList.head? (descCount - s.engine.descDequeued)
  dsimp only at hlist
  generalize Xdma.engineServiceTransferList p hw s.engine.transferList.length s
    s.engine.transferList.head? (descCount - s.engine.descDequeued) = m at hlist ⊢
  generalize Xdma.engineServiceTransferList (p.mode pollMode) hw s.engine.transferList.length s'
    s.engine.transferList.head? (descCount - s.engine.descDequeued) = m' at hlist ⊢
  rw [hlist.2]
  exact hlist.1.engineServiceFinalTransfer _ _

theorem Alike.engineServiceCount (h : Alike s s') (hperf : s.engine.xdmaPerf = none)
    (descCount : BitVec 32)
    : Alike (Xdma.engineServiceCount p s descCount hw)
        (Xdma.engineServiceCount (p.mode pollMode) s' descCount hw) := by
  have hserved := @Alike.countServed p pollMode _ _ hw h hperf descCount
  rw [engineServiceCount_eq, engineServiceCount_eq, hserved.eopFlush]
  split
  . exact hserved
  . exact hserved.engineServiceResume

/-- The writeback of an engine that completed `c` descriptors, with the error flag if `err`. -/
def writeback (c : Nat) (err : Prop) [Decidable err] : BitVec 32 :=
  BitVec.ofNat 32 c ||| if err then wbErrMask else 0

theorem ofNat_and_wbCountMask {c : Nat} (hc : c < 2 ^ 24)
    : BitVec.ofNat 32 c &&& wbCountMask = BitVec.ofNat 32 c := by
  apply BitVec.eq_of_toNat_eq
  have hmask : wbCountMask.toNat = 2 ^ 24 - 1 := rfl
  rw [BitVec.toNat_and, hmask, Nat.and_two_pow_sub_one_eq_mod, BitVec.toNat_ofNat]
  omega

theorem writeback_count {c : Nat} (hc : c < 2 ^ 24) (err : Prop) [Decidable err]
    : writeback c err &&& wbCountMask = BitVec.ofNat 32 c := by
  have hflag : (if err then wbErrMask else 0) &&& wbCountMask = 0 := by
    split <;> decide
  unfold writeback
  rw [BitVec.and_or_distrib_right, ofNat_and_wbCountMask hc, hflag]
  exact BitVec.or_zero

theorem writeback_error {c : Nat} (hc : c < 2 ^ 24) (err : Prop) [Decidable err]
    : writeback c err &&& wbErrMask ≠ 0 ↔ err := by
  have hcount : BitVec.ofNat 32 c &&& wbErrMask = 0 := by
    rw [← ofNat_and_wbCountMask hc, BitVec.and_assoc]
    have hmasks : wbCountMask &&& wbErrMask = 0 := by decide
    rw [hmasks]
    exact BitVec.and_zero
  unfold writeback
  rw [BitVec.and_or_distrib_right, hcount]
  split
  . rename_i herr
    exact iff_of_true (by decide) herr
  . rename_i herr
    exact iff_of_false (by decide) herr

theorem engineServiceStatus_interrupt (s : Driver) (hbusy : hw.statusRc &&& xdmaStatBusy = 0)
    : engineServiceStatus p s 0 hw = xdmaEngineStop p { s with engine.status := hw.statusRc } := by
  rw [engineServiceStatus_zero, if_pos hbusy]

theorem engineServiceStatus_poll (s : Driver) (descWriteback : BitVec 32)
    (heop : s.engine.eopFlush = false) (hcount : descWriteback &&& wbCountMask ≠ 0)
    : engineServiceStatus p s descWriteback hw
        =
      xdmaEngineStop p
        (if descWriteback &&& wbErrMask ≠ 0 then { s with engine.status := hw.statusRc } else s) := by
  unfold engineServiceStatus
  dsimp only
  by_cases herr : descWriteback &&& wbErrMask ≠ 0
  . rw [if_pos (Or.inr herr), if_pos herr, if_pos]
    . rfl
    . exact .inr ⟨by simp [heop], hcount⟩
  . have hread : ¬ (descWriteback &&& wbCountMask = 0 ∨ descWriteback &&& wbErrMask ≠ 0) :=
      not_or.mpr ⟨hcount, herr⟩
    rw [if_neg hread, if_neg herr, if_pos]
    . rfl
    . exact .inr ⟨by simp [heop], hcount⟩

/-- Both modes stop the engine, with a status that has an error in both or in none. -/
theorem Alike.engineServiceStatus {c : Nat} (hc : 0 < c ∧ c < 2 ^ 24)
    (hbusy : hw.statusRc &&& xdmaStatBusy = 0) (heop : s.engine.eopFlush = false)
    (hstatus : s.engine.status &&& errMask s.engine.dir = 0)
    : Alike (Xdma.engineServiceStatus p s 0 hw)
        (Xdma.engineServiceStatus (p.mode pollMode) s
          (writeback c (hw.statusRc &&& errMask s.engine.dir ≠ 0)) hw) := by
  have hcount : writeback c (hw.statusRc &&& errMask s.engine.dir ≠ 0) &&& wbCountMask ≠ 0 := by
    rw [writeback_count hc.2]
    intro hzero
    have htoNat := congrArg BitVec.toNat hzero
    rw [BitVec.toNat_ofNat] at htoNat
    change c % 2 ^ 32 = 0 at htoNat
    omega
  rw [engineServiceStatus_interrupt s hbusy, engineServiceStatus_poll s _ heop hcount]
  by_cases herr : hw.statusRc &&& errMask s.engine.dir ≠ 0
  . rw [if_pos ((writeback_error hc.2 _).mpr herr)]
    exact (Alike.refl _).stop
  . rw [if_neg (mt (writeback_error hc.2 _).mp herr)]
    -- the status that was last stored is as good as the one that is read
    have hstale : Alike { s with engine.status := hw.statusRc } s :=
      ⟨rfl, iff_of_false (not_not.mpr hstatus) herr⟩
    exact hstale.stop

/-- What a service leaves of transfers, queue and engine, and what it completed and started. -/
structure ServedAlike (s s' : Driver) : Prop where
  xfer : s'.xfer = s.xfer
  transferList : s'.engine.transferList = s.engine.transferList
  descDequeued : s'.engine.descDequeued = s.engine.descDequeued
  running : s'.engine.running = s.engine.running
  wakeups : s'.hist.wakeups = s.hist.wakeups
  freed : s'.hist.freed = s.hist.freed
  starts : s'.hist.starts = s.hist.starts

theorem Alike.served (h : Alike s s')
    : ServedAlike s s' := by
  rw [h.eq]
  exact ⟨rfl, rfl, rfl, rfl, rfl, rfl, rfl⟩

/--
An engine that is no longer busy is served alike by the count of its writeback and by its registers,
if the status that `engine_start()` stored has no error.
-/
theorem engineService_modes (p : ModuleParam) (s : Driver) (hw : HwRegs) (c : Nat)
    (hc : 0 < c ∧ c < 2 ^ 24) (hcompleted : hw.completedDescCount = BitVec.ofNat 32 c)
    (hbusy : hw.statusRc &&& xdmaStatBusy = 0) (heop : s.engine.eopFlush = false)
    (hperf : s.engine.xdmaPerf = none) (hstatus : s.engine.status &&& errMask s.engine.dir = 0)
    : ServedAlike (engineService (p.mode false) s 0 hw)
        (engineService (p.mode true) s
          (writeback c (hw.statusRc &&& errMask s.engine.dir ≠ 0)) hw) := by
  apply Alike.served
  have hdesc : serviceCount (writeback c (hw.statusRc &&& errMask s.engine.dir ≠ 0)) hw
      = serviceCount 0 hw := by
    have hzero : (0 : BitVec 32) &&& wbCountMask = 0 := by decide
    unfold serviceCount
    dsimp only
    rw [writeback_count hc.2, hzero, if_pos rfl, hcompleted, ite_self]
  have hregs : (engineServiceStatus (p.mode false) s 0 hw).engine.xdmaPerf = none := by
    rw [engineServiceStatus_interrupt s hbusy]
    exact hperf
  have hread : Alike (engineServiceStatus (p.mode false) s 0 hw)
      (engineServiceStatus (p.mode true) s
        (writeback c (hw.statusRc &&& errMask s.engine.dir ≠ 0)) hw) :=
    Alike.engineServiceStatus (p := p.mode false) hc hbusy heop hstatus
  unfold engineService
  dsimp only
  rw [hdesc]
  split
  . exact Alike.refl _
  . split
    . exact hread
    . exact hread.engineServiceCount hregs _

end Service

/-- A running engine with a transfer of two descriptors, of which the engine stopped after one. -/
def modesDriver : Driver :=
  let s := Driver.init { XdmaEngine.init .toDevice false 0x100000 0 with
    running := true
    transferList := [.tfer 0 0]
  }
  s.setXfer (.tfer 0 0) { XdmaTransfer.zero .toDevice with descNum := 2, state := .submitted }

theorem engineService_modes_stopped
    : let hw : HwRegs := ⟨0x1fc00000, xdmaStatAlignMismatch, 0, 1⟩
      ServedAlike (engineService ⟨false, false, xdmaDescBlenMax⟩ modesDriver 0 hw)
        (engineService ⟨true, false, xdmaDescBlenMax⟩ modesDriver (0x80000001) hw) :=
  engineService_modes ⟨true, false, xdmaDescBlenMax⟩ modesDriver _ 1 (by decide) rfl (by decide)
    rfl rfl (by decide)

end Xdma
