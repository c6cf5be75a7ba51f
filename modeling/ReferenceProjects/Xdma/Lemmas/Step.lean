import ReferenceProjects.Xdma.Lemmas.System

/-!
This module contains the steps of the submissions on one engine: what each can do, and that every one
of them keeps the state well-formed.
-/

namespace Xdma

/-- The number of transfers that a submission in its loop queued before the one it works on. -/
def Pc.tferIdx : Pc → Nat
  | .loop k _ | .built k _ | .checked k _ => k
  | _ => 0

section Request

variable {p : ModuleParam} {alloc : Nat → Bool} {s d' : Driver} {r : Nat} {write dmaMapped : Bool}
variable {epAddr : BitVec 64} {sgl : List Scatterlist}

theorem xdmaInitRequest_start {descBlenMax : Nat} {req : XdmaRequestCb}
    (h : xdmaInitRequest descBlenMax alloc sgl epAddr = .ok req)
    : req.swDescIdx = 0 := by
  unfold xdmaInitRequest at h
  dsimp only at h
  split at h
  . contradiction
  . split at h
    . split at h
      . contradiction
      . split at h
        . contradiction
        . rw [Except.ok.injEq] at h
          rw [← h]
    . contradiction

theorem submitRequest_eq {res : Except Errno XdmaRequestCb}
    (h : submitRequest p alloc s r write epAddr sgl dmaMapped = some (d', res))
    : d' = { s with req := d'.req, sgt := d'.sgt }
        ∧ ((∃ err, res = .error err) ∧ d'.req = s.req
          ∨ ∃ req, res = .ok req ∧ d'.req = Function.update s.req r req ∧ req.swDescIdx = 0) := by
  have hrefused : ∀ (m : Driver) (e : Errno), some (m, Except.error e) = some (d', res)
      → m = { s with sgt := m.sgt }
      → d' = { s with req := d'.req, sgt := d'.sgt } ∧ (∃ err, res = .error err)
        ∧ d'.req = s.req := by
    intro m e heq hm
    simp only [Option.some.injEq, Prod.mk.injEq] at heq
    rw [← heq.1, ← heq.2, hm]
    exact ⟨rfl, ⟨_, rfl⟩, rfl⟩
  have hunmap : (if dmaMapped then s.mapSg r sgl else (s.mapSg r sgl).unmapSg r)
      = { s with
          sgt := (if dmaMapped then s.mapSg r sgl else (s.mapSg r sgl).unmapSg r).sgt } := by
    cases dmaMapped with
    | true => rfl
    | false =>
      rw [if_neg Bool.false_ne_true, Driver.unmapSg_eq]
      rfl
  unfold submitRequest at h
  generalize (if write then DmaDataDirection.toDevice else .fromDevice) = dir at h
  split at h
  . exact ⟨(hrefused _ _ h rfl).1, Or.inl (hrefused _ _ h rfl).2⟩
  . split at h
    . exact ⟨(hrefused _ _ h rfl).1, Or.inl (hrefused _ _ h rfl).2⟩
    . split at h
      . exact ⟨(hrefused _ _ h rfl).1, Or.inl (hrefused _ _ h rfl).2⟩
      . dsimp only at h
        split at h
        . exact ⟨(hrefused _ _ h hunmap).1, Or.inl (hrefused _ _ h hunmap).2⟩
        . exact ⟨(hrefused _ _ h hunmap).1, Or.inl (hrefused _ _ h hunmap).2⟩
        . contradiction
        . contradiction
        . next req hreq =>
          simp only [Option.some.injEq, Prod.mk.injEq] at h
          rw [← h.1, ← h.2]
          exact ⟨rfl, Or.inr ⟨req, rfl, rfl, xdmaInitRequest_start hreq⟩⟩

end Request

section Inversion

variable {p : ModuleParam} {s s' : Sys} {r : Nat} {th : Thread}

theorem Sys.stepThread_cases {op : ThreadOp} (h : s.stepThread p r th op = some s')
    : match op with
      | .lock =>
        th.wait = true ∧ th.pc = .ready ∧ s.descLock = none
          ∧ s' = { s with descLock := some r }.setThread r
            { th with pc := .goOn true 0 (s.drv.req r).swDescCnt }
      | .init =>
        ∃ k n, th.pc = .loop k n
          ∧ let m := submitInit s.drv r (th.tfer r k) (th.cb r) th.dmaMapped n
            s' = { s with drv := m.1 }.setThread r { th with pc := .built k m.2 }
      | .check =>
        ∃ k n, th.pc = .built k n
          ∧ s' = s.setThread r { th with
              pc := if transferQueueCheck s.drv (th.tfer r k) = .ok () then .checked k n else .leaving }
      | .queue hw =>
        ∃ k n, th.pc = .checked k n
          ∧ ((∃ err, transferQueueLocked p s.drv (th.tfer r k) hw = .error err)
              ∧ s' = s.setThread r { th with pc := .leaving }
            ∨ ∃ d', transferQueueLocked p s.drv (th.tfer r k) hw = .ok d'
              ∧ s' = { s with drv := d' }.setThread r
                { th with pc := if th.wait then .waiting n else .goOn false (k + 1) n })
      | .wake hw =>
        ∃ n, th.pc = .waiting n
          ∧ let l := submitSwitch s.drv.engine (s.drv.xfer (th.tfer r 0)) ⟨none, 0, n⟩
            s' = { s with drv := submitWake p s.drv (th.tfer r 0) hw }.setThread r
              { th with pc := .woken l.nents l.rv.isSome }
      | .destroy =>
        ∃ n failed, th.pc = .woken n failed
          ∧ s' = { s with drv := submitDestroy s.drv (th.tfer r 0) }.setThread r
              { th with pc := if failed then .leaving else .goOn true 0 n }
      | .exit =>
        th.pc = .leaving
          ∧ s' = { s with
              drv := submitExit s.drv r th.dmaMapped
              descLock := if s.descLock = some r then none else s.descLock
            }.setThread r { th with pc := .returned } := by
  cases op with
  | lock =>
    simp only [Sys.stepThread] at h
    split at h
    . next hwait hpc hlock =>
      rw [Option.some.injEq] at h
      exact ⟨hwait, hpc, hlock, h.symm⟩
    . contradiction
  | init =>
    simp only [Sys.stepThread] at h
    split at h
    . next k n hpc =>
      rw [Option.some.injEq] at h
      exact ⟨k, n, hpc, h.symm⟩
    . contradiction
  | check =>
    simp only [Sys.stepThread] at h
    split at h
    . next k n hpc =>
      refine ⟨k, n, hpc, ?_⟩
      split at h
      . next hok =>
        rw [hok, if_pos rfl]
        exact (Option.some.inj h).symm
      . next hok =>
        rw [hok, if_neg (by simp)]
        exact (Option.some.inj h).symm
    . contradiction
  | queue hw =>
    simp only [Sys.stepThread] at h
    split at h
    . next k n hpc =>
      refine ⟨k, n, hpc, ?_⟩
      split at h
      . next hok => exact Or.inr ⟨_, hok, (Option.some.inj h).symm⟩
      . next hok => exact Or.inl ⟨⟨_, hok⟩, (Option.some.inj h).symm⟩
    . contradiction
  | wake hw =>
    simp only [Sys.stepThread] at h
    split at h
    . next n hpc => exact ⟨n, hpc, (Option.some.inj h).symm⟩
    . contradiction
  | destroy =>
    simp only [Sys.stepThread] at h
    split at h
    . next n failed hpc => exact ⟨n, failed, hpc, (Option.some.inj h).symm⟩
    . contradiction
  | exit =>
    simp only [Sys.stepThread] at h
    split at h
    . next hpc => exact ⟨hpc, (Option.some.inj h).symm⟩
    . contradiction

end Inversion

section Views

variable {r : Nat}

theorem AsyncOk.congr {v v' : View} {k n : Nat} (hok : AsyncOk v r k n)
    (hxfer : ∀ j < k, v'.xfer j = v.xfer j) (hlinked : ∀ j, v'.linked j ↔ v.linked j)
    (hcnt : v'.req.swDescCnt = v.req.swDescCnt)
    : AsyncOk v' r k n where
  descs := by
    rw [hcnt, ← hok.descs, View.descs_congr]
    intro j hj
    rw [hxfer j hj]
  num := by
    intro j hj
    rw [hxfer j hj]
    exact hok.num j hj
  cb := by
    intro j hj
    rw [hxfer j hj]
    exact hok.cb j hj
  last := by
    intro j hj
    rw [hxfer j hj]
    exact hok.last j hj
  linked := by
    intro j hj
    rw [hxfer j hj, hlinked]
    exact hok.linked j hj
  bound := fun j hj => hok.bound j ((hlinked j).mp hj)

theorem AsyncOk.enqueue {v v' : View} {k n : Nat} (hok : AsyncOk v r k (n + (v.xfer k).descNum))
    (hbuilt : BuiltOk v (some r) k n) (hothers : ∀ j < k, v'.xfer j = v.xfer j)
    (hself : v'.xfer k = { v.xfer k with state := (v'.xfer k).state })
    (hlinked : ∀ j, v'.linked j ↔ v.linked j ∨ j = k) (hreq : v'.req = v.req)
    : AsyncOk v' r (k + 1) n where
  descs := by
    have hdescs : v'.descs k = v.descs k :=
      View.descs_congr (fun j hj => by rw [hothers j hj])
    have hnum : (v'.xfer k).descNum = (v.xfer k).descNum := by rw [hself]
    rw [View.descs_succ, hdescs, hnum, hreq, ← hok.descs]
    omega
  num := by
    intro j hj
    cases Nat.lt_succ_iff_lt_or_eq.mp hj with
    | inl hlt =>
      rw [hothers j hlt]
      exact hok.num j hlt
    | inr heq =>
      rw [heq, hself]
      exact hbuilt.num
  cb := by
    intro j hj
    cases Nat.lt_succ_iff_lt_or_eq.mp hj with
    | inl hlt =>
      rw [hothers j hlt]
      exact hok.cb j hlt
    | inr heq =>
      rw [heq, hself]
      exact hbuilt.cb
  last := by
    intro j hj
    cases Nat.lt_succ_iff_lt_or_eq.mp hj with
    | inl hlt =>
      -- the marked transfer is the new one, if any
      rw [hothers j hlt, hok.last j hlt]
      have := hbuilt.num
      omega
    | inr heq =>
      rw [heq, hself]
      simp only [true_and]
      exact hbuilt.last
  linked := by
    intro j hj
    cases Nat.lt_succ_iff_lt_or_eq.mp hj with
    | inl hlt =>
      rw [hothers j hlt, hlinked]
      exact (hok.linked j hlt).imp_left Or.inl
    | inr heq => exact Or.inl ((hlinked j).mpr (Or.inr heq))
  bound := by
    intro j hj
    cases (hlinked j).mp hj with
    | inl hold => exact Nat.lt_succ_of_lt (hok.bound j hold)
    | inr heq =>
      rw [heq]
      exact Nat.lt_succ_self k

end Views

section Build

variable (s : Driver) (r k : Nat) (cb : Option Nat) (dmaMapped : Bool) (n : Nat)

theorem submitInit_xfer_of_ne {t : XferPtr} (ht : t ≠ .tfer r k)
    : (submitInit s r (.tfer r k) cb dmaMapped n).1.xfer t = s.xfer t := by
  rw [submitInit_eq]
  exact Function.update_of_ne ht _ _

theorem submitInit_view_of_ne {r' : Nat} (hr : r' ≠ r)
    : (submitInit s r (.tfer r k) cb dmaMapped n).1.view r' = s.view r' := by
  refine Driver.view_congr ?_ (fun _ => Iff.rfl) ?_
  . intro j
    exact submitInit_xfer_of_ne s r k cb dmaMapped n (by simp [hr])
  . rw [submitInit_eq]
    exact Function.update_of_ne hr _ _

theorem submitInit_built (hring : s.engine.descIdx < 2048) (hleft : LeftOk (s.view r) n)
    (hne : n ≠ 0)
    : let m := submitInit s r (.tfer r k) cb dmaMapped n
      BuiltOk (m.1.view r) cb k m.2 ∧ LeftOk (m.1.view r) m.2
        ∧ m.2 + ((m.1.view r).xfer k).descNum = n := by
  intro m
  have hrest : n = (s.req r).rest.length := hleft hne
  have hnum : ((m.1.view r).xfer k).descNum = transferDescMax s.engine (s.req r) := by
    have hxfer := transferInit_xfer s.engine (s.req r)
    refine (submitInit_xfer s r (.tfer r k) cb dmaMapped n).2.1.trans ?_
    rw [hxfer]
  have hnents : m.2 = n - transferDescMax s.engine (s.req r) := submitInit_nents ..
  have hle := transferDescMax_le_rest s.engine (s.req r)
  have hpos : 0 < transferDescMax s.engine (s.req r) := by
    apply transferDescMax_pos _ _ hring
    have : 0 < (s.req r).rest.length := by omega
    simp only [XdmaRequestCb.rest, List.length_drop] at this
    exact Nat.lt_of_sub_pos this
  have hle' : transferDescMax s.engine (s.req r) ≤ n := by
    rw [hrest, XdmaRequestCb.rest, List.length_drop]
    exact hle
  rcases submitInit_new s r (.tfer r k) cb dmaMapped n with ⟨_, hcb, hlast⟩
  refine ⟨⟨by omega, hcb, hlast⟩, ?_, by omega⟩
  intro _
  have hreq := submitInit_req s r (.tfer r k) cb dmaMapped n
  rw [Driver.view_req, hreq, XdmaRequestCb.length_rest_transferInit, ← hrest, hnents]

end Build

section Others

variable {p : ModuleParam} {s d' : Driver} {r r' : Nat} (hr : r' ≠ r)

include hr

theorem submitRequest_view_of_ne {alloc : Nat → Bool} {write dmaMapped : Bool}
    {epAddr : BitVec 64} {sgl : List Scatterlist} {res : Except Errno XdmaRequestCb}
    (h : submitRequest p alloc s r write epAddr sgl dmaMapped = some (d', res))
    : d'.view r' = s.view r' := by
  rcases submitRequest_eq h with ⟨heq, hres⟩
  refine Driver.view_congr ?_ ?_ ?_
  . rw [heq]
    exact fun _ => rfl
  . rw [heq]
    exact fun _ => Iff.rfl
  . rcases hres with ⟨_, hreq⟩ | ⟨req, _, hreq, _⟩
    . rw [hreq]
    . rw [hreq, Function.update_of_ne hr]

theorem transferQueueLocked_view_of_ne {k : Nat} {hw : HwRegs}
    (h : transferQueueLocked p s (.tfer r k) hw = .ok d')
    : d'.view r' = s.view r' := by
  refine Driver.view_congr ?_ ?_ ?_
  . intro j
    rw [transferQueueLocked_xfer h, Function.update_of_ne (by simp [hr])]
  . intro j
    rw [transferQueueLocked_list h, List.mem_append, List.mem_singleton]
    simp [hr]
  . rw [transferQueueLocked_eq h]
    rfl

theorem submitWake_view_of_ne (k : Nat) (hw : HwRegs)
    : (submitWake p s (.tfer r k) hw).view r' = s.view r' := by
  rcases submitWake_cases p s (.tfer r k) hw with ⟨status, heq⟩ | ⟨_, status, xfer, heq, _⟩
  . rw [heq]
    rfl
  . rw [heq]
    refine Driver.view_congr ?_ ?_ rfl
    . intro j
      exact Function.update_of_ne (by simp [hr]) _ _
    . intro j
      exact mem_unlinkHead_of_ne (by simp [hr]) _

end Others

theorem submitDestroy_view (s : Driver) (t : XferPtr) (r : Nat)
    : (submitDestroy s t).view r = s.view r := by
  rw [submitDestroy_eq]
  rfl

theorem submitExit_view (s : Driver) (r' : Nat) (dmaMapped : Bool) (r : Nat)
    : (submitExit s r' dmaMapped).view r = s.view r := by
  rw [submitExit_eq]
  rfl

theorem Sys.stepThread_others {p : ModuleParam} {s s' : Sys} {r : Nat} {th : Thread}
    {op : ThreadOp} (h : s.stepThread p r th op = some s')
    : ∃ pc, s'.thr = Function.update s.thr r (some { th with pc := pc })
        ∧ ∀ r', r' ≠ r → s'.drv.view r' = s.drv.view r' := by
  have hcases := Sys.stepThread_cases h
  cases op with
  | lock =>
    rcases hcases with ⟨_, _, _, rfl⟩
    exact ⟨_, rfl, fun _ _ => rfl⟩
  | init =>
    rcases hcases with ⟨k, n, _, rfl⟩
    exact ⟨_, rfl, fun r' hr => submitInit_view_of_ne s.drv r _ _ _ n hr⟩
  | check =>
    rcases hcases with ⟨k, n, _, rfl⟩
    exact ⟨_, rfl, fun _ _ => rfl⟩
  | queue hw =>
    rcases hcases with ⟨k, n, _, ⟨_, rfl⟩ | ⟨d', hok, rfl⟩⟩
    . exact ⟨_, rfl, fun _ _ => rfl⟩
    . exact ⟨_, rfl, fun r' hr => transferQueueLocked_view_of_ne hr hok⟩
  | wake hw =>
    rcases hcases with ⟨n, _, rfl⟩
    exact ⟨_, rfl, fun r' hr => submitWake_view_of_ne hr _ hw⟩
  | destroy =>
    rcases hcases with ⟨n, failed, _, rfl⟩
    exact ⟨_, rfl, fun r' _ => submitDestroy_view s.drv _ r'⟩
  | exit =>
    rcases hcases with ⟨_, rfl⟩
    exact ⟨_, rfl, fun r' _ => submitExit_view s.drv r _ r'⟩

section Steps

variable {p : ModuleParam} {s : Sys} {r : Nat} {th : Thread} {d' : Driver}

theorem WellFormed.submit (hwf : WellFormed s.thr s.drv) (hth : s.thr r = none)
    {alloc : Nat → Bool} {wait dmaMapped write : Bool} {epAddr : BitVec 64}
    {sgl : List Scatterlist} {res : Except Errno XdmaRequestCb}
    (h : submitRequest p alloc s.drv r write epAddr sgl dmaMapped = some (d', res))
    : WellFormed
        (Function.update s.thr r (some ⟨wait, dmaMapped,
          match res with
          | .error _ => .returned
          | .ok req => if wait then .ready else .goOn false 0 req.swDescCnt⟩)) d' := by
  rcases submitRequest_eq h with ⟨heq, hres⟩
  have hnone := hwf.not_linked_of_none hth
  have hlinked : ∀ j, ¬ (d'.view r).linked j := by
    rw [heq]
    exact hnone
  have hframe : ∀ th' : Thread, th'.Ok (d'.view r) r
      → WellFormed (Function.update s.thr r (some th')) d' := by
    intro th' hok
    refine hwf.setThread ?_ ?_ ?_ ?_ ?_ hok
    . rw [heq]
      exact hwf.ring
    . exact fun r' hr => submitRequest_view_of_ne hr h
    . rw [heq]
      exact fun t ht => Or.inl ht
    . rw [heq]
      exact hwf.sorted
    . rw [heq]
      exact hwf.pending
  rcases hres with ⟨⟨err, rfl⟩, _⟩ | ⟨req, rfl, hreq, hstart⟩
  . apply hframe
    cases wait with
    | true => exact SyncOk.of_not_linked hlinked
    | false => exact fun j hj => absurd hj (hlinked j)
  . apply hframe
    have hview : (d'.view r).req = req := by rw [Driver.view_req, hreq, Function.update_self]
    cases wait with
    | true => exact ⟨hlinked, by rw [hview]; exact hstart⟩
    | false =>
      refine Thread.ok_goOn_nowait ⟨?_, ?_, ?_, ?_, ?_, ?_⟩ ?_
      . rw [hview]
        simp [View.descs]
      . exact fun j hj => absurd hj (Nat.not_lt_zero j)
      . exact fun j hj => absurd hj (Nat.not_lt_zero j)
      . exact fun j hj => absurd hj (Nat.not_lt_zero j)
      . exact fun j hj => absurd hj (Nat.not_lt_zero j)
      . exact fun j hj => absurd hj (hlinked j)
      . intro _
        rw [hview, XdmaRequestCb.rest, hstart, List.drop_zero]
        rfl

theorem WellFormed.setThread_submitInit (hwf : WellFormed s.thr s.drv) (k : Nat) (cb : Option Nat)
    (dmaMapped : Bool) (n : Nat) {th' : Thread}
    (hok : th'.Ok ((submitInit s.drv r (.tfer r k) cb dmaMapped n).1.view r) r)
    : WellFormed (Function.update s.thr r (some th'))
        (submitInit s.drv r (.tfer r k) cb dmaMapped n).1 := by
  refine hwf.setThread (Nat.mod_lt _ (Nat.zero_lt_succ _)) ?_ (fun t ht => Or.inl ht) hwf.sorted ?_
    hok
  . intro r' hr
    exact submitInit_view_of_ne s.drv r k cb dmaMapped n hr
  . intro t ht hsettled
    by_cases hself : t = .tfer r k
    . have hnew := (submitInit_new s.drv r (.tfer r k) cb dmaMapped n).1
      subst hself
      unfold XdmaTransfer.Settled at hsettled
      rw [hnew] at hsettled
      simp at hsettled
    . rw [submitInit_xfer_of_ne s.drv r k cb dmaMapped n hself] at hsettled
      exact hwf.pending t ht hsettled

theorem WellFormed.init (hwf : WellFormed s.thr s.drv) (hth : s.thr r = some th) {k n : Nat}
    (hpc : th.pc = .loop k n)
    : let m := submitInit s.drv r (th.tfer r k) (th.cb r) th.dmaMapped n
      WellFormed (Function.update s.thr r (some { th with pc := .built k m.2 })) m.1 := by
  rcases th with ⟨wait, dmaMapped, pc⟩
  dsimp only at hpc
  subst hpc
  have hok := hwf.threads r _ hth
  cases wait with
  | true =>
    rcases submitInit_built s.drv r 0 none dmaMapped n hwf.ring hok.2.2 hok.2.1 with
      ⟨hbuilt, hleft, _⟩
    exact hwf.setThread_submitInit 0 none dmaMapped n ⟨hok.1, hbuilt, hleft⟩
  | false =>
    rcases submitInit_built s.drv r k (some r) dmaMapped n hwf.ring hok.2.2 hok.2.1 with
      ⟨hbuilt, hleft, hsum⟩
    have hasync : AsyncOk ((submitInit s.drv r (.tfer r k) (some r) dmaMapped n).1.view r) r k n := by
      refine hok.1.congr ?_ (fun _ => Iff.rfl) ?_
      . intro j hj
        exact submitInit_xfer_of_ne s.drv r k (some r) dmaMapped n (by
          simp only [ne_eq, XferPtr.tfer.injEq, true_and]
          omega)
      . have hreq := submitInit_req s.drv r (.tfer r k) (some r) dmaMapped n
        rw [transferInit_req] at hreq
        rw [Driver.view_req, hreq]
        rfl
    have hgoal := congrArg
      (AsyncOk ((submitInit s.drv r (.tfer r k) (some r) dmaMapped n).1.view r) r k) hsum
    exact hwf.setThread_submitInit k (some r) dmaMapped n ⟨hgoal.mpr hasync, hbuilt, hleft⟩

theorem WellFormed.check (hwf : WellFormed s.thr s.drv) (hth : s.thr r = some th) {k n : Nat}
    (hpc : th.pc = .built k n) (passed : Bool)
    : WellFormed (Function.update s.thr r
        (some { th with pc := if passed then .checked k n else .leaving })) s.drv := by
  rcases th with ⟨wait, dmaMapped, pc⟩
  dsimp only at hpc
  subst hpc
  have hok := hwf.threads r _ hth
  refine hwf.setThread_of_eq rfl rfl rfl rfl ?_
  cases passed with
  | true => cases wait <;> exact hok
  | false => exact Thread.ok_leaving hok

theorem WellFormed.refused (hwf : WellFormed s.thr s.drv) (hth : s.thr r = some th) {k n : Nat}
    (hpc : th.pc = .checked k n)
    : WellFormed (Function.update s.thr r (some { th with pc := .leaving })) s.drv := by
  rcases th with ⟨wait, dmaMapped, pc⟩
  dsimp only at hpc
  subst hpc
  have hok := hwf.threads r _ hth
  refine hwf.setThread_of_eq rfl rfl rfl rfl ?_
  exact Thread.ok_leaving (k := k) (n := n) (by cases wait <;> exact hok)

theorem WellFormed.queue (hwf : WellFormed s.thr s.drv) (hth : s.thr r = some th) {k n : Nat}
    (hpc : th.pc = .checked k n) {hw : HwRegs}
    (h : transferQueueLocked p s.drv (th.tfer r k) hw = .ok d')
    : WellFormed (Function.update s.thr r
        (some { th with pc := if th.wait then .waiting n else .goOn false (k + 1) n })) d' := by
  rcases th with ⟨wait, dmaMapped, pc⟩
  dsimp only at hpc
  subst hpc
  have hok := hwf.threads r _ hth
  have happend := transferQueueLocked_list h
  have hupdate := transferQueueLocked_xfer h
  have hlist : ∀ t, t ∈ d'.engine.transferList
      ↔ t ∈ s.drv.engine.transferList ∨ t = Thread.tfer ⟨wait, dmaMapped, .checked k n⟩ r k := by
    intro t
    rw [happend, List.mem_append, List.mem_singleton]
  have hxfer : ∀ t, t ≠ Thread.tfer ⟨wait, dmaMapped, .checked k n⟩ r k
      → d'.xfer t = s.drv.xfer t := by
    intro t ht
    rw [hupdate, Function.update_of_ne ht]
  have hself : d'.xfer (Thread.tfer ⟨wait, dmaMapped, .checked k n⟩ r k)
      = { s.drv.xfer (Thread.tfer ⟨wait, dmaMapped, .checked k n⟩ r k) with
          state := .submitted } := by
    rw [hupdate, Function.update_self]
  have hreq : d'.req = s.drv.req := by
    rw [transferQueueLocked_eq h]
    rfl
  refine hwf.setThread ?_ ?_ ?_ ?_ ?_ ?_
  . rw [transferQueueLocked_eq h]
    exact hwf.ring
  . exact fun r' hr => transferQueueLocked_view_of_ne hr h
  . intro t ht
    cases (hlist t).mp ht with
    | inl hold => exact Or.inl hold
    | inr hnew => exact Or.inr ⟨_, hnew⟩
  . rw [happend, List.pairwise_append]
    refine ⟨hwf.sorted, List.pairwise_singleton _ _, ?_⟩
    -- the transfers of this submission that are linked already are earlier ones
    intro t ht u hu r' i j hti huj
    rw [List.mem_singleton] at hu
    rw [hu, Thread.tfer, XferPtr.tfer.injEq] at huj
    rw [hti, ← huj.1] at ht
    cases wait with
    | true => exact absurd ht (hok.1 i)
    | false =>
      rw [← huj.2]
      exact hok.1.bound i ht
  . intro t ht hsettled
    by_cases hself' : t = Thread.tfer ⟨wait, dmaMapped, .checked k n⟩ r k
    . rw [hself', hself] at hsettled
      simp [XdmaTransfer.Settled] at hsettled
    . rw [hxfer t hself'] at hsettled
      exact hwf.pending t (((hlist t).mp ht).resolve_right hself') hsettled
  . cases wait with
    | true =>
      refine ⟨?_, ?_⟩
      . intro j hj
        cases (hlist _).mp hj with
        | inl hold => exact absurd hold (hok.1 j)
        | inr hnew =>
          rw [Thread.tfer, XferPtr.tfer.injEq] at hnew
          refine ⟨hnew.2, ?_⟩
          have hcb := congrArg XdmaTransfer.cb hself
          exact hcb.trans hok.2.1.cb
      . unfold LeftOk
        rw [Driver.view_req, hreq]
        exact hok.2.2
    | false =>
      apply Thread.ok_goOn_nowait
      . refine hok.1.enqueue hok.2.1 ?_ ?_ ?_ ?_
        . intro j hj
          exact hxfer _ (by
            simp only [Thread.tfer, ne_eq, XferPtr.tfer.injEq, true_and]
            exact Nat.ne_of_lt hj)
        . rw [Driver.view_xfer, Driver.view_xfer]
          have hself' : d'.xfer (.tfer r k) = { s.drv.xfer (.tfer r k) with state := .submitted } :=
            hself
          rw [hself']
        . intro j
          rw [Driver.view_linked, hlist]
          simp [Thread.tfer]
        . rw [Driver.view_req, hreq]
          rfl
      . unfold LeftOk
        rw [Driver.view_req, hreq]
        exact hok.2.2

theorem WellFormed.wake (hwf : WellFormed s.thr s.drv) (hth : s.thr r = some th) {n : Nat}
    (hpc : th.pc = .waiting n) (hw : HwRegs)
    : let l := submitSwitch s.drv.engine (s.drv.xfer (th.tfer r 0)) ⟨none, 0, n⟩
      WellFormed (Function.update s.thr r (some { th with pc := .woken l.nents l.rv.isSome }))
        (submitWake p s.drv (th.tfer r 0) hw) := by
  intro l
  rcases th with ⟨wait, dmaMapped, pc⟩
  dsimp only at hpc
  subst hpc
  have hok := hwf.threads r _ hth
  cases wait with
  | false => exact absurd hok id
  | true =>
    have hleft : LeftOk (s.drv.view r) l.nents := by
      intro hne
      cases submitSwitch_nents s.drv.engine (s.drv.xfer (.tfer r 0)) ⟨none, 0, n⟩ with
      | inl hzero => exact absurd hzero hne
      | inr hsame => exact hsame.trans (hok.2 (fun hzero => hne (hsame.trans hzero)))
    -- a transfer with a verdict is not linked any more
    have hfinished : l.rv.isSome = false → ∀ j, ¬ (s.drv.view r).linked j := by
      intro hrv j hj
      rcases hok.1 j hj with ⟨rfl, _⟩
      exact hwf.pending _ hj (Or.inl ((submitSwitch_rv _ _ _).mp hrv))
    rcases submitWake_cases p s.drv (.tfer r 0) hw with
      ⟨status, heq⟩ | ⟨hpending, status, xfer, heq, hxfer⟩
    . refine hwf.setThread_of_eq ?_ ?_ ?_ ?_ ⟨hok.1, hleft, hfinished⟩
      all_goals exact heq ▸ rfl
    . have hshape : xfer.cb = (s.drv.xfer (.tfer r 0)).cb ∧ ¬ xfer.Settled := by
        rcases hxfer with rfl | ⟨_, rfl⟩
        . exact ⟨rfl, hpending⟩
        . exact ⟨rfl, by simp [XdmaTransfer.Settled]⟩
      have hlist : (submitWake p s.drv (.tfer r 0) hw).engine.transferList
          = unlinkHead (.tfer r 0) s.drv.engine.transferList := by
        rw [heq]
        rfl
      have hupdate : (submitWake p s.drv (.tfer r 0) hw).xfer
          = Function.update s.drv.xfer (.tfer r 0) xfer := by
        rw [heq]
        rfl
      have hsub := (unlinkHead_suffix (.tfer r 0) s.drv.engine.transferList).sublist
      refine hwf.setThread ?_ ?_ ?_ ?_ ?_ ⟨?_, ?_, ?_⟩
      . exact heq ▸ hwf.ring
      . exact fun r' hr => submitWake_view_of_ne hr 0 hw
      . intro t ht
        exact Or.inl (hsub.subset (hlist ▸ ht))
      . exact hlist ▸ hwf.sorted.sublist hsub
      . intro t ht hsettled
        have hsettled' : (Function.update s.drv.xfer (.tfer r 0) xfer t).Settled :=
          hupdate ▸ hsettled
        by_cases hself : t = .tfer r 0
        . rw [hself, Function.update_self] at hsettled'
          exact hshape.2 hsettled'
        . rw [Function.update_of_ne hself] at hsettled'
          exact hwf.pending t (hsub.subset (hlist ▸ ht)) hsettled'
      . intro j hj
        rcases hok.1 j (hsub.subset (hlist ▸ hj)) with ⟨rfl, hcb⟩
        refine ⟨rfl, ?_⟩
        have hself := congrFun hupdate (.tfer r 0)
        rw [Function.update_self] at hself
        exact (congrArg XdmaTransfer.cb hself).trans (hshape.1.trans hcb)
      . unfold LeftOk
        exact heq ▸ hleft
      . intro hrv j hj
        exact hfinished hrv j (hsub.subset (hlist ▸ hj))

theorem WellFormed.destroy (hwf : WellFormed s.thr s.drv) (hth : s.thr r = some th) {n : Nat}
    {failed : Bool} (hpc : th.pc = .woken n failed)
    : WellFormed
        (Function.update s.thr r
          (some { th with pc := if failed then .leaving else .goOn true 0 n }))
        (submitDestroy s.drv (th.tfer r 0)) := by
  have heq := submitDestroy_eq s.drv (th.tfer r 0)
  rcases th with ⟨wait, dmaMapped, pc⟩
  dsimp only at hpc
  subst hpc
  have hok := hwf.threads r _ hth
  cases wait with
  | false => exact absurd hok id
  | true =>
    refine hwf.setThread_of_eq ?_ ?_ ?_ ?_ ?_
    . rw [heq]
    . rw [heq]
    . rw [heq]
    . rw [heq]
    . cases failed with
      | true => exact hok.1
      | false => exact Thread.ok_goOn_wait (hok.2.2 rfl) hok.2.1

theorem WellFormed.exit (hwf : WellFormed s.thr s.drv) (hth : s.thr r = some th)
    (hpc : th.pc = .leaving)
    : WellFormed (Function.update s.thr r (some { th with pc := .returned }))
        (submitExit s.drv r th.dmaMapped) := by
  have heq := submitExit_eq s.drv r th.dmaMapped
  rcases th with ⟨wait, dmaMapped, pc⟩
  dsimp only at hpc
  subst hpc
  have hok := hwf.threads r _ hth
  refine hwf.setThread_of_eq ?_ ?_ ?_ ?_ ?_
  . rw [heq]
  . rw [heq]
  . rw [heq]
  . rw [heq]
  . cases wait <;> exact hok

theorem Sys.step_wellFormed {s s' : Sys} {e : Event} (hwf : WellFormed s.thr s.drv)
    (h : s.step p e = some s')
    : WellFormed s'.thr s'.drv := by
  cases e with
  | submit r wait dmaMapped write alloc epAddr sgl =>
    simp only [Sys.step] at h
    split at h
    . contradiction
    . next hth =>
      split at h
      . contradiction
      . next drv err hreq =>
        rw [← Option.some.inj h]
        exact hwf.submit hth hreq
      . next drv req hreq =>
        rw [← Option.some.inj h]
        exact hwf.submit hth hreq
  | thread r op =>
    simp only [Sys.step, Option.bind_eq_some_iff] at h
    rcases h with ⟨th, hth, h⟩
    have hcases := Sys.stepThread_cases h
    cases op with
    | lock =>
      rcases th with ⟨wait, dmaMapped, pc⟩
      rcases hcases with ⟨rfl, rfl, _, rfl⟩
      have hok := hwf.threads r _ hth
      refine hwf.setThread_of_eq rfl rfl rfl rfl (Thread.ok_goOn_wait hok.1 ?_)
      intro _
      rw [XdmaRequestCb.rest, hok.2, List.drop_zero]
      rfl
    | init =>
      rcases hcases with ⟨k, n, hpc, rfl⟩
      exact hwf.init hth hpc
    | check =>
      rcases hcases with ⟨k, n, hpc, rfl⟩
      by_cases hok : transferQueueCheck s.drv (th.tfer r k) = .ok ()
      . rw [if_pos hok]
        exact hwf.check hth hpc true
      . rw [if_neg hok]
        exact hwf.check hth hpc false
    | queue hw =>
      rcases hcases with ⟨k, n, hpc, ⟨_, rfl⟩ | ⟨d', hok, rfl⟩⟩
      . exact hwf.refused hth hpc
      . exact hwf.queue hth hpc hok
    | wake hw =>
      rcases hcases with ⟨n, hpc, rfl⟩
      exact hwf.wake hth hpc hw
    | destroy =>
      rcases hcases with ⟨n, failed, hpc, rfl⟩
      exact hwf.destroy hth hpc
    | exit =>
      rcases hcases with ⟨hpc, rfl⟩
      exact hwf.exit hth hpc
  | service descWriteback hw =>
    rw [← Option.some.inj h]
    exact (hwf.service p descWriteback hw).1
  | setOffline =>
    rw [← Option.some.inj h]
    exact hwf.of_eq rfl rfl rfl rfl
  | offlineEngine =>
    rw [← Option.some.inj h]
    exact hwf.of_eq rfl rfl rfl rfl
  | onlineEngine =>
    rw [← Option.some.inj h]
    exact hwf.of_eq rfl rfl rfl rfl
  | clearOffline =>
    rw [← Option.some.inj h]
    exact hwf.of_eq rfl rfl rfl rfl

theorem Sys.Initial.wellFormed {s : Sys} (h : s.Initial)
    : WellFormed s.thr s.drv where
  ring := h.descIdx
  owned := by
    rw [h.transferList]
    simp
  sorted := by
    rw [h.transferList]
    exact List.Pairwise.nil
  pending := by
    rw [h.transferList]
    simp
  threads := by
    intro r th hth
    rw [h.thr r] at hth
    contradiction

end Steps

/-- The registers of a healthy engine that completed `count` descriptors. -/
def healthyRegs (count : BitVec 32) : HwRegs where
  identifier := blockIdHead
  statusRc := 0
  status := 0
  completedDescCount := count

/-- The steps of a submission up to where its first transfer is queued. -/
def submitFirst (r : Nat) (wait write : Bool) : List Event :=
  [.submit r wait true write true 0 [⟨0x1000, 16⟩]] ++ (if wait then [.thread r .lock] else [])
    ++ [.thread r .init, .thread r .check, .thread r (.queue (healthyRegs 0))]

/-- The steps of a blocking submission from its wake-up on. -/
def submitLast (r : Nat) : List Event :=
  [.thread r (.wake (healthyRegs 0)), .thread r .destroy, .thread r .exit]

end Xdma
