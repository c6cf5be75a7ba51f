import ReferenceProjects.Xdma.Lemmas.Step

/-!
This module contains when no request is freed while one of its transfers is still linked in the queue
of the engine.
-/

namespace Xdma

/-- No request was freed while one of its transfers was in the queue of the engine. -/
def FreedUnlinked (s : Sys) : Prop := ∀ f ∈ s.drv.hist.freed, ∀ t ∈ f.2, t.ofReq f.1 = false

instance (s : Sys) : Decidable (FreedUnlinked s) :=
  inferInstanceAs (Decidable (∀ f ∈ s.drv.hist.freed, ∀ t ∈ f.2, t.ofReq f.1 = false))

/--
A submission does not leave a transfer behind in the queue:
- `tfer[2]` of its request has room for the transfer it builds,
- it has no earlier transfer in the queue when it is refused one,
- when it wakes up without a verdict, its transfer is the first of the queue, and the registers can be
  dumped.
-/
def LeavesNone (d : Driver) (r : Nat) (th : Thread) : ThreadOp → Prop
  | .init => th.pc.tferIdx < 2
  | .check => d.offline = true → ∀ j < th.pc.tferIdx, .tfer r j ∉ d.engine.transferList
  | .queue _ =>
    d.engine.shutdown.request = true → ∀ j < th.pc.tferIdx, .tfer r j ∉ d.engine.transferList
  | .wake hw =>
    ¬ (d.xfer (.tfer r 0)).Settled → .tfer r 0 ∈ d.engine.transferList →
      hw.identifier &&& blockIdMask = blockIdHead
        ∧ d.engine.transferList.head? = some (.tfer r 0)
  | _ => True

/-- The submission that takes the step does not leave a transfer behind. -/
def StepLeavesNone (s : Sys) : Event → Prop
  | .thread r op => ∀ th ∈ s.thr r, LeavesNone s.drv r th op
  | _ => True

instance (d : Driver) (r : Nat) (th : Thread) : (op : ThreadOp) → Decidable (LeavesNone d r th op)
  | .init => inferInstanceAs (Decidable (_ < _))
  | .check => inferInstanceAs (Decidable (_ → _))
  | .queue _ => inferInstanceAs (Decidable (_ → _))
  | .wake _ => inferInstanceAs (Decidable (_ → _ → _ ∧ _))
  | .lock => inferInstanceAs (Decidable True)
  | .destroy => inferInstanceAs (Decidable True)
  | .exit => inferInstanceAs (Decidable True)

instance (s : Sys) : (e : Event) → Decidable (StepLeavesNone s e)
  | .thread r op => inferInstanceAs (Decidable (∀ th ∈ s.thr r, LeavesNone s.drv r th op))
  | .submit .. => inferInstanceAs (Decidable True)
  | .service .. => inferInstanceAs (Decidable True)
  | .setOffline => inferInstanceAs (Decidable True)
  | .offlineEngine => inferInstanceAs (Decidable True)
  | .onlineEngine => inferInstanceAs (Decidable True)
  | .clearOffline => inferInstanceAs (Decidable True)

/-- A submission that is past its waiting has nothing in the queue. -/
def Thread.Gone (v : View) (th : Thread) : Prop :=
  match th.pc with
  | .waiting _ => 0 < (v.xfer 0).descNum
  | .woken _ _ | .leaving | .returned => ∀ j, ¬ v.linked j
  | _ => True

/-- What the steps that leave no transfer behind keep. -/
structure UnlinkInv (s : Sys) : Prop where
  wellFormed : WellFormed s.thr s.drv
  gone : ∀ r th, s.thr r = some th → th.Gone (s.drv.view r)
  freed : FreedUnlinked s

section Step

variable {p : ModuleParam} {s s' : Sys}

theorem Thread.Gone.serviced {v v' : View} (h : v.Serviced v') {th : Thread} (hgone : th.Gone v)
    : th.Gone v' := by
  rcases th with ⟨wait, dmaMapped, pc⟩
  cases pc with
  | waiting n => exact Nat.lt_of_lt_of_eq hgone (h.descNum 0).symm
  | woken n failed => exact fun j hj => hgone j (h.linked j hj)
  | leaving => exact fun j hj => hgone j (h.linked j hj)
  | returned => exact fun j hj => hgone j (h.linked j hj)
  | ready => trivial
  | loop k n => trivial
  | built k n => trivial
  | checked k n => trivial
  | queued k => trivial

theorem freedUnlinked_service (hinv : UnlinkInv s) (descWriteback : BitVec 32) (hw : HwRegs)
    : FreedUnlinked { s with drv := engineService p s.drv descWriteback hw } := by
  refine hinv.wellFormed.service_keeps (G := fun d => FreedUnlinked { s with drv := d }) hinv.freed
    descWriteback hw ?_ ?_ ?_ ?_
  . intro d d' hregs h
    rw [hregs.eq]
    exact h
  . intro d d' hstart h
    rcases engineStart_eq hstart with ⟨_, t, rest, _, heq⟩
    rw [heq]
    exact h
  . exact fun d t flags descCmpl h => h
  . intro d t rest xfer' hwf hlist hverdict h
    rcases hwf.complete (p := p) hlist hverdict hw with ⟨m, freed, _, heq, hfreed⟩
    rw [heq]
    rcases hfreed with rfl | ⟨r, rfl, hnone⟩
    . exact h
    . intro f hf
      rcases List.mem_cons.mp hf with rfl | hold
      . intro t ht
        exact XferPtr.ofReq_of_not_mem hnone ht
      . exact h f hold

theorem gone_wake (hwf : WellFormed s.thr s.drv) {r : Nat} {dmaMapped : Bool} {n : Nat}
    (hth : s.thr r = some ⟨true, dmaMapped, .waiting n⟩) (hnum : 0 < (s.drv.xfer (.tfer r 0)).descNum)
    {hw : HwRegs} (hsafe : LeavesNone s.drv r ⟨true, dmaMapped, .waiting n⟩ (.wake hw)) (j : Nat)
    : ¬ ((submitWake p s.drv (.tfer r 0) hw).view r).linked j := by
  have hok := hwf.threads r _ hth
  have hsync : SyncOk (s.drv.view r) := hok.1
  by_cases hsettled : (s.drv.xfer (.tfer r 0)).Settled
  . -- a transfer with a verdict is not linked, and waking up changes nothing
    rw [submitWake_of_settled p hsettled hw]
    intro hj
    rcases hsync j hj with ⟨rfl, _⟩
    exact hwf.pending _ hj hsettled
  . by_cases hmem : XferPtr.tfer r 0 ∈ s.drv.engine.transferList
    . rcases hsafe hsettled hmem with ⟨hid, hhead⟩
      rcases List.head?_eq_some_iff.mp hhead with ⟨rest, hlist⟩
      have habort : (submitWake p s.drv (.tfer r 0) hw).engine.transferList = rest := by
        unfold submitWake submitTimeout
        rw [engineStatusRead_dump, if_neg (not_not.mpr hid)]
        dsimp only
        unfold transferAbort
        dsimp only
        rw [if_neg (Nat.ne_of_gt hnum), hlist]
        split
        . next h => exact absurd (Or.inl h) hsettled
        . next h => exact absurd (Or.inr h) hsettled
        . simp [unlinkHead, xdmaEngineStop, Driver.writeControl, Driver.setXfer]
      rw [Driver.view_linked, habort]
      intro hj
      have hlinked : (s.drv.view r).linked j := by
        rw [Driver.view_linked, hlist]
        exact List.mem_cons_of_mem _ hj
      rcases hsync j hlinked with ⟨rfl, _⟩
      exact hwf.not_mem_rest hlist (Nat.le_refl 0) hj
    . intro hj
      have hlinked : XferPtr.tfer r j ∈ s.drv.engine.transferList := by
        rcases submitWake_cases p s.drv (.tfer r 0) hw with ⟨status, heq⟩ | ⟨_, status, xfer, heq, _⟩
        . rw [heq] at hj
          exact hj
        . rw [heq] at hj
          exact (unlinkHead_suffix _ _).subset hj
      rcases hsync j hlinked with ⟨rfl, _⟩
      exact hmem hlinked

theorem gone_refused {r : Nat} {wait dmaMapped : Bool} {k n : Nat}
    (hok : Thread.Ok (s.drv.view r) r ⟨wait, dmaMapped, .built k n⟩)
    (hnone : ∀ j < k, XferPtr.tfer r j ∉ s.drv.engine.transferList) (j : Nat)
    : ¬ (s.drv.view r).linked j := by
  cases wait with
  | true => exact hok.1 j
  | false => exact fun hj => hnone j (hok.1.bound j hj) hj

/-- A submission frees its request when it leaves, with the queue as it is then. -/
theorem Sys.stepThread_freed {r : Nat} {th : Thread} {op : ThreadOp}
    (h : s.stepThread p r th op = some s')
    : s'.drv.hist.freed = s.drv.hist.freed
      ∨ th.pc = .leaving
        ∧ s'.drv.hist.freed = (r, s.drv.engine.transferList) :: s.drv.hist.freed := by
  have hcases := Sys.stepThread_cases h
  cases op with
  | lock =>
    rcases hcases with ⟨_, _, _, rfl⟩
    exact Or.inl rfl
  | init =>
    rcases hcases with ⟨k, n, _, rfl⟩
    exact Or.inl rfl
  | check =>
    rcases hcases with ⟨k, n, _, rfl⟩
    exact Or.inl rfl
  | queue hw =>
    rcases hcases with ⟨k, n, _, ⟨_, rfl⟩ | ⟨d', hqueue, rfl⟩⟩
    . exact Or.inl rfl
    . refine Or.inl ?_
      dsimp only [Sys.setThread]
      rw [transferQueueLocked_eq hqueue]
  | wake hw =>
    rcases hcases with ⟨n, _, rfl⟩
    refine Or.inl ?_
    dsimp only [Sys.setThread]
    rcases submitWake_cases p s.drv (th.tfer r 0) hw with ⟨status, heq⟩ | ⟨_, status, xfer, heq, _⟩
    . rw [heq]
    . rw [heq]
      rfl
  | destroy =>
    rcases hcases with ⟨n, failed, _, rfl⟩
    refine Or.inl ?_
    dsimp only [Sys.setThread]
    rw [submitDestroy_eq]
  | exit =>
    rcases hcases with ⟨hpc, rfl⟩
    refine Or.inr ⟨hpc, ?_⟩
    dsimp only [Sys.setThread]
    rw [submitExit_eq]

theorem gone_thread (hinv : UnlinkInv s) {r : Nat} {th : Thread} {op : ThreadOp}
    (hth : s.thr r = some th) (hsafe : LeavesNone s.drv r th op)
    (h : s.stepThread p r th op = some s')
    : ∀ th', s'.thr r = some th' → th'.Gone (s'.drv.view r) := by
  have hgone := hinv.gone r th hth
  have hok := hinv.wellFormed.threads r th hth
  have hcases := Sys.stepThread_cases h
  have hself : ∀ {d : Driver} {thr : Nat → Option Thread} {th₁ : Thread}, th₁.Gone (d.view r)
      → ∀ th', Function.update thr r (some th₁) r = some th' → th'.Gone (d.view r) := by
    intro d thr th₁ hgone₁ th' hth'
    rw [Function.update_self, Option.some.injEq] at hth'
    rw [← hth']
    exact hgone₁
  rcases th with ⟨wait, dmaMapped, pc⟩
  cases op with
  | lock =>
    rcases hcases with ⟨rfl, rfl, _, rfl⟩
    apply hself
    unfold Pc.goOn
    split
    . trivial
    . exact hok.1
  | init =>
    rcases hcases with ⟨k, n, rfl, rfl⟩
    exact hself trivial
  | check =>
    rcases hcases with ⟨k, n, rfl, rfl⟩
    apply hself
    split
    . trivial
    . next hfail =>
      rw [transferQueueCheck_ok_iff, not_and_or, not_not, Bool.not_eq_false] at hfail
      have hnum : (s.drv.xfer (Thread.tfer ⟨wait, dmaMapped, .built k n⟩ r k)).descNum ≠ 0 := by
        cases wait with
        | true => exact Nat.ne_of_gt hok.2.1.num
        | false => exact Nat.ne_of_gt hok.2.1.num
      exact gone_refused hok (hsafe (hfail.resolve_left hnum))
  | queue hw =>
    rcases hcases with ⟨k, n, rfl, ⟨⟨err, hfail⟩, rfl⟩ | ⟨d', hqueue, rfl⟩⟩
    . apply hself
      have hbuilt : Thread.Ok (s.drv.view r) r ⟨wait, dmaMapped, .built k n⟩ := by
        cases wait <;> exact hok
      exact gone_refused hbuilt (hsafe (transferQueueLocked_error hfail))
    . apply hself
      cases wait with
      | true =>
        have hxfer := transferQueueLocked_xfer hqueue
        show 0 < (d'.xfer (.tfer r 0)).descNum
        rw [hxfer]
        simp only [Thread.tfer, ↓reduceIte, Function.update_self]
        exact hok.2.1.num
      | false =>
        rw [if_neg Bool.false_ne_true]
        unfold Pc.goOn
        split <;> trivial
  | wake hw =>
    rcases hcases with ⟨n, rfl, rfl⟩
    cases wait with
    | false => exact absurd hok id
    | true => exact hself (gone_wake hinv.wellFormed hth hgone hsafe)
  | destroy =>
    rcases hcases with ⟨n, failed, rfl, rfl⟩
    apply hself
    dsimp only [Sys.setThread]
    rw [submitDestroy_view]
    cases failed with
    | true => exact hgone
    | false =>
      rw [if_neg Bool.false_ne_true]
      unfold Pc.goOn
      split
      . trivial
      . exact hgone
  | exit =>
    rcases hcases with ⟨rfl, rfl⟩
    apply hself
    dsimp only [Sys.setThread]
    rw [submitExit_view]
    exact hgone

theorem UnlinkInv.thread (hinv : UnlinkInv s) {r : Nat} {th : Thread} {op : ThreadOp}
    (hth : s.thr r = some th) (hsafe : LeavesNone s.drv r th op)
    (h : s.stepThread p r th op = some s')
    : UnlinkInv s' := by
  rcases Sys.stepThread_others h with ⟨pc, hthr, hviews⟩
  refine ⟨?_, ?_, ?_⟩
  . exact Sys.step_wellFormed (p := p) (e := .thread r op) hinv.wellFormed (by simp [Sys.step, hth, h])
  . intro r' th'' hth''
    by_cases hr : r' = r
    . rw [hr] at hth'' ⊢
      exact gone_thread hinv hth hsafe h th'' hth''
    . rw [hthr, Function.update_of_ne hr] at hth''
      rw [hviews r' hr]
      exact hinv.gone r' th'' hth''
  . unfold FreedUnlinked
    rcases Sys.stepThread_freed h with hfreed | ⟨hpc, hfreed⟩
    . rw [hfreed]
      exact hinv.freed
    . rw [hfreed, List.forall_mem_cons]
      refine ⟨?_, hinv.freed⟩
      have hgone := hinv.gone r th hth
      unfold Thread.Gone at hgone
      rw [hpc] at hgone
      intro t ht
      exact XferPtr.ofReq_of_not_mem hgone ht

theorem UnlinkInv.submit (hinv : UnlinkInv s) {r : Nat} {wait dmaMapped write alloc : Bool}
    {epAddr : BitVec 64} {sgl : List Scatterlist}
    (h : s.step p (.submit r wait dmaMapped write alloc epAddr sgl) = some s')
    : UnlinkInv s' := by
  have hwf := Sys.step_wellFormed hinv.wellFormed h
  simp only [Sys.step] at h
  split at h
  . contradiction
  . next hth =>
    have hmade : ∀ {d : Driver} {res : Except Errno XdmaRequestCb} {th' : Thread},
        submitRequest p (fun _ => alloc) s.drv r write epAddr sgl dmaMapped = some (d, res)
        → th'.Gone (d.view r) → s' = { s with drv := d }.setThread r th' → UnlinkInv s' := by
      intro d res th' hreq hgone heq
      subst heq
      refine ⟨hwf, ?_, ?_⟩
      . intro r' th'' hth''
        simp only [Sys.setThread] at hth'' ⊢
        by_cases hr : r' = r
        . rw [hr, Function.update_self, Option.some.injEq] at hth''
          rw [← hth'', hr]
          exact hgone
        . rw [Function.update_of_ne hr] at hth''
          rw [submitRequest_view_of_ne hr hreq]
          exact hinv.gone r' th'' hth''
      . intro f hf
        simp only [Sys.setThread] at hf
        rw [(submitRequest_eq hreq).1] at hf
        exact hinv.freed f hf
    split at h
    . contradiction
    . next d err hreq =>
      refine hmade hreq ?_ (Option.some.inj h).symm
      intro j hj
      rw [Driver.view_linked, (submitRequest_eq hreq).1] at hj
      exact hinv.wellFormed.not_linked_of_none hth j hj
    . next d req hreq =>
      refine hmade hreq ?_ (Option.some.inj h).symm
      cases wait with
      | true => trivial
      | false =>
        rw [if_neg Bool.false_ne_true]
        unfold Pc.goOn
        split <;> trivial

theorem UnlinkInv.step (s : Sys) (e : Event) (s' : Sys) (hinv : UnlinkInv s)
    (hsafe : StepLeavesNone s e) (h : s.step p e = some s')
    : UnlinkInv s' := by
  have hwf := Sys.step_wellFormed hinv.wellFormed h
  cases e with
  | submit r wait dmaMapped write alloc epAddr sgl => exact hinv.submit h
  | thread r op =>
    simp only [Sys.step, Option.bind_eq_some_iff] at h
    rcases h with ⟨th, hth, h⟩
    exact hinv.thread hth (hsafe th hth) h
  | service descWriteback hw =>
    rw [← Option.some.inj h] at hwf ⊢
    have hviews := (hinv.wellFormed.service p descWriteback hw).2
    exact ⟨hwf, fun r th hth => (hinv.gone r th hth).serviced (hviews r),
      freedUnlinked_service hinv descWriteback hw⟩
  | setOffline =>
    rw [← Option.some.inj h] at hwf ⊢
    exact ⟨hwf, hinv.gone, hinv.freed⟩
  | offlineEngine =>
    rw [← Option.some.inj h] at hwf ⊢
    exact ⟨hwf, hinv.gone, hinv.freed⟩
  | onlineEngine =>
    rw [← Option.some.inj h] at hwf ⊢
    exact ⟨hwf, hinv.gone, hinv.freed⟩
  | clearOffline =>
    rw [← Option.some.inj h] at hwf ⊢
    exact ⟨hwf, hinv.gone, hinv.freed⟩

end Step

/-- In a run whose submissions leave no transfer behind no request is freed that is still linked. -/
theorem freedUnlinked_of_leavesNone (p : ModuleParam) (s : Sys) (hinit : s.Initial)
    (es : List Event)
    (hsafe : Transition.StepsHold (Sys.step p) (fun s e _ => StepLeavesNone s e) s es)
    : Transition.StatesHold (Sys.step p) FreedUnlinked s es := by
  have hinv : UnlinkInv s := by
    refine ⟨hinit.wellFormed, ?_, ?_⟩
    . intro r th hth
      rw [hinit.thr r] at hth
      contradiction
    . intro f hf
      rw [hinit.freed] at hf
      contradiction
  exact Transition.statesHold_of_invariant (fun _ h => h.freed) UnlinkInv.step hinv hsafe

/-- A blocking request waits behind a nowait one; both complete, and a second one times out. -/
theorem freedUnlinked_of_leavesNone_timeout
    : Transition.StatesHold (Sys.step ⟨false, false, 4096⟩) FreedUnlinked (Sys.init .toDevice false)
        (submitFirst 0 false true ++ submitFirst 1 true true
          ++ [.service 0 (healthyRegs 1), .service 0 (healthyRegs 1)] ++ submitLast 1
          ++ submitFirst 2 true true ++ submitLast 2) :=
  freedUnlinked_of_leavesNone _ _ (Sys.init_initial .toDevice false) _ (by decide)

/--
A blocking request that times out behind a nowait one is freed with its transfer still linked:
`transfer_abort()` unlinks the first of the queue only.
-/
theorem not_freedUnlinked_timeout
    : (Sys.init .toDevice false).Initial
        ∧ ¬ Transition.StatesHold (Sys.step ⟨false, false, 4096⟩) FreedUnlinked
          (Sys.init .toDevice false) (submitFirst 0 false true ++ submitFirst 1 true true ++ submitLast 1) :=
  ⟨Sys.init_initial .toDevice false, by decide⟩

end Xdma
