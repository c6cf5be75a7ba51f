import ReferenceProjects.Lib.Run
import ReferenceProjects.Xdma.Lemmas.Step

/-!
This module contains that a blocking submission unmaps the scatter table that it mapped exactly once,
whichever of its two places does it, and however it leaves its loop.
-/

namespace Xdma

/-- Whether `pci_map_sg()` is reached, which maps the scatter list. -/
def Driver.mapsSg (s : Driver) (write : Bool) (sgl : List Scatterlist) : Bool :=
  !s.offline && s.engine.dir == (if write then .toDevice else .fromDevice) && sgl.length != 0

/-- The event is a submission that maps the scatter table of request `r` itself. -/
def Event.mapsSg (s : Sys) (r : Nat) : Event → Bool
  | .submit r' _ dmaMapped write _ _ sgl => r' == r && !dmaMapped && s.drv.mapsSg write sgl
  | _ => false

/--
What decides whether the destruction of a transfer of request `r` unmaps a table: it is that of the
request, and only where the submission mapped it.
-/
structure XdmaTransfer.Tagged (xfer : XdmaTransfer) (r : Nat) (dmaMapped : Bool) : Prop where
  sgt : xfer.lastInRequest = true → xfer.sgt = some r
  flags : dmaMapped = true → xfer.flags &&& xferFlagNeedUnmap = 0

/-- The number of transfers of its request that a submission has built, as far as it still uses them. -/
def Thread.builds (th : Thread) : Nat :=
  match th.wait, th.pc with
  | true, .built _ _ | true, .checked _ _ | true, .waiting _ | true, .woken _ _ => 1
  | false, .loop k _ | false, .queued k => k
  | false, .built k _ | false, .checked k _ => k + 1
  | _, _ => 0

/-- Where a submission is when its request was made or refused. -/
def Pc.first (wait : Bool) : Except Errno XdmaRequestCb → Pc
  | .error _ => .returned
  | .ok req => if wait then .ready else .goOn false 0 req.swDescCnt

def AllTagged (thr : Nat → Option Thread) (d : Driver) : Prop :=
  ∀ r th, thr r = some th → ∀ j < th.builds, (d.xfer (.tfer r j)).Tagged r th.dmaMapped

/-- How often a table was unmapped, and once more if it is mapped. -/
def SgTable.owed (sgt : SgTable) : Nat := sgt.unmaps + if sgt.nents = 0 then 0 else 1

/--
What is to be said of the table of a request before its submission, with `u` for how often it was unmapped
then, and of that of a blocking submission, with `m` for how often that has mapped it.
-/
def UnmapOk (u m : Nat) (sgt : SgTable) : Option Thread → Prop
  | none => sgt.unmaps = u ∧ m = 0
  | some ⟨true, true, _⟩ => sgt.unmaps = u ∧ m = 0
  | some ⟨true, false, .returned⟩ => sgt.unmaps = u + m ∧ m ≤ 1
  | some ⟨true, false, _⟩ => m = 1 ∧ sgt.owed = u + 1
  | some ⟨false, _, _⟩ => True

section Kept

/-- What a tag depends on is the same. -/
structure XdmaTransfer.TagKept (xfer xfer' : XdmaTransfer) : Prop where
  last : xfer'.lastInRequest = xfer.lastInRequest
  sgt : xfer'.sgt = xfer.sgt
  flags : xfer'.flags &&& xferFlagNeedUnmap = xfer.flags &&& xferFlagNeedUnmap

theorem XdmaTransfer.TagKept.refl (xfer : XdmaTransfer)
    : xfer.TagKept xfer := ⟨rfl, rfl, rfl⟩

theorem XdmaTransfer.Tagged.kept {xfer xfer' : XdmaTransfer} {r : Nat} {dmaMapped : Bool}
    (h : xfer.Tagged r dmaMapped) (hkept : xfer.TagKept xfer')
    : xfer'.Tagged r dmaMapped where
  sgt := by
    rw [hkept.last, hkept.sgt]
    exact h.sgt
  flags := by
    rw [hkept.flags]
    exact h.flags

def TagsKept (s s' : Driver) : Prop := ∀ t, (s.xfer t).TagKept (s'.xfer t)

theorem TagsKept.trans {s s' s'' : Driver} (h : TagsKept s s') (h' : TagsKept s' s'')
    : TagsKept s s'' := by
  intro t
  exact ⟨(h' t).last.trans (h t).last, (h' t).sgt.trans (h t).sgt, (h' t).flags.trans (h t).flags⟩

theorem TagsKept.of_xfer {s s' : Driver} (h : s'.xfer = s.xfer)
    : TagsKept s s' := by
  intro t
  rw [h]
  apply XdmaTransfer.TagKept.refl

theorem TagsKept.update {s s' : Driver} {t : XferPtr} {xfer : XdmaTransfer}
    (heq : s'.xfer = Function.update s.xfer t xfer) (h : (s.xfer t).TagKept xfer)
    : TagsKept s s' := by
  intro u
  rw [heq]
  by_cases hu : u = t
  . rw [hu, Function.update_self]
    exact h
  . rw [Function.update_of_ne hu]
    apply XdmaTransfer.TagKept.refl

theorem AllTagged.kept {thr : Nat → Option Thread} {d d' : Driver} (h : AllTagged thr d)
    (hkept : TagsKept d d')
    : AllTagged thr d' :=
  fun r th hth j hj => (h r th hth j hj).kept (hkept (.tfer r j))

variable (p : ModuleParam) (hw : HwRegs)

theorem engineTransferCompletion_tags (s : Driver) (t : XferPtr)
    : TagsKept s (engineTransferCompletion p s t hw) := by
  intro u
  cases (engineTransferCompletion_frame p s t hw).xfer u with
  | inl hsame =>
    rw [hsame]
    apply XdmaTransfer.TagKept.refl
  | inr habort =>
    rw [habort.2]
    exact ⟨rfl, rfl, rfl⟩

theorem engineServiceTransferList_tags (fuel : Nat) (s : Driver) (transfer : Option XferPtr)
    (descCompleted : BitVec 32)
    : TagsKept s (engineServiceTransferList p hw fuel s transfer descCompleted).1 := by
  induction fuel generalizing s transfer descCompleted with
  | zero => exact .of_xfer rfl
  | succ fuel ih =>
    unfold engineServiceTransferList
    split
    . exact .of_xfer rfl
    . next t =>
      dsimp only
      split
      . refine TagsKept.trans (TagsKept.update (t := t) rfl ?_)
          ((engineTransferCompletion_tags p hw _ t).trans (ih _ _ _))
        exact ⟨rfl, rfl, rfl⟩
      . exact .of_xfer rfl

/-- The bit that says whether the table has to be unmapped is not one that a service sets. -/
theorem eopFlags_needUnmap (e : XdmaEngine) (xfer : XdmaTransfer) (n : Nat)
    : eopFlags e xfer n &&& xferFlagNeedUnmap = xfer.flags &&& xferFlagNeedUnmap := by
  unfold eopFlags
  split
  . have hbits : xferFlagStC2hEopRcved &&& xferFlagNeedUnmap = 0 := by decide
    rw [BitVec.and_or_distrib_right, hbits]
    exact BitVec.or_zero
  . rfl

theorem finalVerdict_tags (s : Driver) (t : XferPtr) (descCompleted : BitVec 32)
    : TagsKept s (finalVerdict p s t descCompleted).1 := by
  unfold finalVerdict
  dsimp only
  split
  . exact .update (t := t) rfl ⟨rfl, rfl, rfl⟩
  . split
    . split
      . have hflags := eopFlags_needUnmap s.engine (s.xfer t) descCompleted.toNat
        split
        . exact .update (t := t) rfl ⟨rfl, rfl, hflags⟩
        . exact .update (t := t) (Function.update_idem _ _ _) ⟨rfl, rfl, hflags⟩
      . exact .update (t := t) rfl ⟨rfl, rfl, rfl⟩
    . exact .update (t := t) rfl ⟨rfl, rfl, rfl⟩

theorem engineServiceFinalTransfer_tags (s : Driver) (transfer : Option XferPtr)
    (descCompleted : BitVec 32)
    : TagsKept s (engineServiceFinalTransfer p s transfer descCompleted hw) := by
  unfold engineServiceFinalTransfer
  split
  . exact .of_xfer rfl
  . next t =>
    have hverdict := finalVerdict_tags p s t descCompleted
    split
    . next s' heq =>
      rw [heq] at hverdict
      have hunlinked : TagsKept s' s'.listDel := .of_xfer rfl
      exact (hverdict.trans hunlinked).trans (engineTransferCompletion_tags p hw s'.listDel t)
    . next heq =>
      rw [heq] at hverdict
      exact hverdict

theorem engineServiceResume_tags (s : Driver)
    : TagsKept s (engineServiceResume p s hw) := by
  apply TagsKept.of_xfer
  rcases engineServiceResume_cases p hw s with ⟨_, hstart⟩ | ⟨hregs, _⟩
  . obtain ⟨_, t, rest, _, heq⟩ := engineStart_eq hstart
    rw [heq]
  . rw [hregs.eq]

theorem engineService_tags (s : Driver) (descWriteback : BitVec 32)
    : TagsKept s (engineService p s descWriteback hw) := by
  unfold engineService
  split
  . exact .of_xfer rfl
  . have hstatus : TagsKept s (engineServiceStatus p s descWriteback hw) := by
      apply TagsKept.of_xfer
      rw [(engineServiceStatus_regs p hw s descWriteback).eq]
    dsimp only
    split
    . exact hstatus
    . refine hstatus.trans ?_
      generalize engineServiceStatus p s descWriteback hw = m
      have hserved : TagsKept m (countServed p hw m (serviceCount descWriteback hw)) := by
        have hperf : TagsKept m (if m.engine.transferList.head?.isSome then
            engineServicePerf m (serviceCount descWriteback hw) else m) := by
          apply TagsKept.of_xfer
          split
          . rw [engineServicePerf_eq]
          . rfl
        exact hperf.trans ((engineServiceTransferList_tags p hw _ _ _ _).trans
          (engineServiceFinalTransfer_tags p hw _ _ _))
      rw [engineServiceCount_eq]
      split
      . exact hserved
      . exact hserved.trans (engineServiceResume_tags p hw _)

end Kept

section Table

variable (s : Driver)

theorem Driver.unmapSg_sgt_of_ne {r r' : Nat} (hr : r ≠ r')
    : (s.unmapSg r').sgt r = s.sgt r := by
  unfold Driver.unmapSg
  dsimp only
  split
  . exact Function.update_of_ne hr _ _
  . rfl

theorem Driver.unmapSg_sgt_self (r : Nat)
    : (s.unmapSg r).sgt r = ⟨0, (s.sgt r).owed⟩ := by
  unfold Driver.unmapSg SgTable.owed
  dsimp only
  by_cases hmapped : (s.sgt r).nents = 0
  . rw [if_neg (not_not.mpr hmapped), if_pos hmapped, Nat.add_zero, ← hmapped]
  . rw [if_pos hmapped, if_neg hmapped]
    apply Function.update_self

theorem Driver.mapSg_sgt_of_ne {r r' : Nat} (hr : r ≠ r') (sgl : List Scatterlist)
    : (s.mapSg r' sgl).sgt r = s.sgt r := Function.update_of_ne hr _ _

theorem Driver.mapSg_sgt_self (r : Nat) (sgl : List Scatterlist)
    : (s.mapSg r sgl).sgt r = ⟨sgl.length, (s.sgt r).unmaps⟩ := Function.update_self _ _ _

/-- What destroying a transfer does to the tables: it unmaps that of its request or none. -/
theorem transferDestroy_sgt {t : XferPtr} {r : Nat} {dmaMapped : Bool}
    (h : (s.xfer t).Tagged r dmaMapped)
    : (transferDestroy s t).sgt = s.sgt
      ∨ dmaMapped = false ∧ (transferDestroy s t).sgt = (s.unmapSg r).sgt := by
  unfold transferDestroy
  dsimp only
  split
  . next hunmap =>
    rw [Bool.and_eq_true, decide_eq_true_iff] at hunmap
    rw [h.sgt hunmap.1]
    cases dmaMapped with
    | true => exact absurd (h.flags rfl) hunmap.2
    | false =>
      refine .inr ⟨rfl, ?_⟩
      unfold Driver.unmapSg
      dsimp only
      split <;> rfl
  . exact .inl rfl

theorem transferDestroy_sgt_of_ne {t : XferPtr} {r r' : Nat}
    (h : (s.xfer t).lastInRequest = true → (s.xfer t).sgt = some r') (hr : r ≠ r')
    : (transferDestroy s t).sgt r = s.sgt r := by
  have htagged : (s.xfer t).Tagged r' false := ⟨h, fun hdm => absurd hdm Bool.false_ne_true⟩
  cases transferDestroy_sgt s htagged with
  | inl hsame => rw [hsame]
  | inr hunmap =>
    rw [hunmap.2]
    exact s.unmapSg_sgt_of_ne hr

end Table

section Service

variable (p : ModuleParam) (hw : HwRegs) {r r' : Nat} (hr : r ≠ r')

include hr

theorem completionLoop_sgt_of_ne (k fuel i nents : Nat) (s : Driver) (done : Nat)
    (hsettled : ∀ j < k, ((s.view r').xfer j).Settled)
    (hnum : ∀ j < k, 0 < ((s.view r').xfer j).descNum)
    (hsgt : ∀ j < k, ((s.view r').xfer j).lastInRequest = true → ((s.view r').xfer j).sgt = some r')
    (hi : i ≤ k) (hnents : nents + (s.view r').descs i = (s.view r').descs k)
    : (completionLoop p r' hw fuel i nents s done).1.sgt r = s.sgt r := by
  induction fuel generalizing i nents s done with
  | zero => rfl
  | succ fuel ih =>
    unfold completionLoop
    split
    . rfl
    . next hne =>
      have hlt : i < k := by
        apply Nat.lt_of_le_of_ne hi
        intro heq
        rw [heq] at hnents
        omega
      have hstep := View.descs_succ (s.view r') i
      have hmono := View.descs_mono (s.view r') (show i + 1 ≤ k from hlt)
      have hdestroyed := transferDestroy_sgt_of_ne s (hsgt i hlt) hr
      dsimp only
      rw [completionSwitch_settled p s (.tfer r' i) hw (hsettled i hlt)]
      have hview := (transferDestroy_quiet s (.tfer r' i)
        ((transferDestroy s (.tfer r' i)).engine.descUsed
          - ((transferDestroy s (.tfer r' i)).xfer (.tfer r' i)).descNum)).view r'
      split
      . refine Eq.trans (ih (i + 1) (nents - (s.xfer (.tfer r' i)).descNum) _ _ ?_ ?_ ?_ hlt ?_)
          hdestroyed
        . rw [hview]
          exact hsettled
        . rw [hview]
          exact hnum
        . rw [hview]
          exact hsgt
        . rw [hview]
          rw [Driver.view_xfer] at hstep
          omega
      . exact hdestroyed

theorem xdmaXferCompletion_sgt_of_ne (s : Driver) (k : Nat) (hok : AsyncOk (s.view r') r' k 0)
    (hsettled : ∀ j < k, ((s.view r').xfer j).Settled)
    (hsgt : ∀ j < k, ((s.view r').xfer j).lastInRequest = true → ((s.view r').xfer j).sgt = some r')
    : (xdmaXferCompletion p s r' hw).1.sgt r = s.sgt r := by
  have hcnt : (s.req r').swDescCnt + (s.view r').descs 0 = (s.view r').descs k := by
    have hdescs := hok.descs
    simp only [View.descs, Driver.view, List.range_zero, List.map_nil, List.sum_nil] at hdescs ⊢
    omega
  have hloop := completionLoop_sgt_of_ne p hw hr k (s.req r').swDescCnt 0 (s.req r').swDescCnt s 0
    hsettled hok.num hsgt (Nat.zero_le k) hcnt
  unfold xdmaXferCompletion
  dsimp only [xdmaRequestFree]
  rw [Driver.unmapSg_sgt_of_ne _ hr]
  exact hloop

omit hr

theorem WellFormed.service_sgt {thr : Nat → Option Thread} {d : Driver} (hwf : WellFormed thr d)
    (htags : AllTagged thr d) (hwait : ∀ th, thr r = some th → th.wait = true)
    (descWriteback : BitVec 32)
    : (engineService p d descWriteback hw).sgt r = d.sgt r := by
  have hkept : let G := fun s : Driver =>
        (∀ t, (s.xfer t).lastInRequest = (d.xfer t).lastInRequest ∧ (s.xfer t).sgt = (d.xfer t).sgt)
          ∧ s.sgt r = d.sgt r
      G (engineService p d descWriteback hw) := by
    have hupdate : ∀ (s : Driver) (t : XferPtr) (xfer : XdmaTransfer),
        (∀ t, (s.xfer t).lastInRequest = (d.xfer t).lastInRequest ∧ (s.xfer t).sgt = (d.xfer t).sgt)
        → xfer.lastInRequest = (s.xfer t).lastInRequest → xfer.sgt = (s.xfer t).sgt
        → ∀ u, (Function.update s.xfer t xfer u).lastInRequest = (d.xfer u).lastInRequest
          ∧ (Function.update s.xfer t xfer u).sgt = (d.xfer u).sgt := by
      intro s t xfer h hlast hsgt u
      by_cases hu : u = t
      . rw [hu, Function.update_self, hlast, hsgt]
        apply h
      . rw [Function.update_of_ne hu]
        apply h
    intro G
    apply hwf.service_keeps (G := G) ⟨fun _ => ⟨rfl, rfl⟩, rfl⟩
    . intro s s' hregs h
      rw [hregs.eq]
      exact h
    . intro s s' hstart h
      obtain ⟨_, t, rest, _, heq⟩ := engineStart_eq hstart
      rw [heq]
      exact h
    . intro s t flags descCmpl h
      exact ⟨hupdate s t _ h.1 rfl rfl, h.2⟩
    . intro s t rest xfer' hwf' hlist hverdict h
      have hsame := hupdate s t xfer' h.1 (by rw [hverdict.eq]) (by rw [hverdict.eq])
      refine ⟨?_, ?_⟩
      . rw [(hwf'.complete_eq (p := p) hlist hverdict hw).2]
        exact hsame
      . rcases hwf'.completion_cases (p := p) hlist hverdict hw with
          ⟨heq, _⟩ | ⟨r', j, rfl, _, ⟨dmaMapped, hth⟩, hok, hsettled, heq⟩
        . rw [heq]
          exact h.2
        . have hr : r ≠ r' := by
            rintro rfl
            exact absurd (hwait _ hth) Bool.false_ne_true
          rw [heq]
          refine Eq.trans (xdmaXferCompletion_sgt_of_ne p hw hr _ (j + 1) hok hsettled ?_) h.2
          intro i hi hlast
          have htag := (htags r' _ hth i hi).sgt
          have hsame' := hsame (.tfer r' i)
          exact hsame'.2.trans (htag (hsame'.1.symm.trans hlast))
  exact hkept.2

end Service

theorem Driver.mapsSg_length {s : Driver} {write : Bool} {sgl : List Scatterlist}
    (h : s.mapsSg write sgl = true)
    : sgl.length ≠ 0 := by
  unfold Driver.mapsSg at h
  rw [Bool.and_eq_true, bne_iff_ne] at h
  exact h.2

section Request

variable {p : ModuleParam} {alloc : Nat → Bool} {s d' : Driver} {r : Nat} {write dmaMapped : Bool}
variable {epAddr : BitVec 64} {sgl : List Scatterlist} {res : Except Errno XdmaRequestCb}

/-- A submission that does not map the list is refused; one that maps it unmaps it where it fails. -/
inductive RequestSgt (s : Driver) (r : Nat) (write dmaMapped : Bool) (sgl : List Scatterlist)
    : Driver → Except Errno XdmaRequestCb → Prop where
  | refused {d' : Driver} {err : Errno} (hmaps : s.mapsSg write sgl = false) (hsgt : d'.sgt = s.sgt)
    : RequestSgt s r write dmaMapped sgl d' (.error err)
  | failed {d' : Driver} {err : Errno} (hmaps : s.mapsSg write sgl = true)
    (hsgt : d'.sgt = (if dmaMapped then s.mapSg r sgl else (s.mapSg r sgl).unmapSg r).sgt)
    : RequestSgt s r write dmaMapped sgl d' (.error err)
  | made {d' : Driver} {req : XdmaRequestCb} (hmaps : s.mapsSg write sgl = true)
    (hsgt : d'.sgt = (s.mapSg r sgl).sgt)
    : RequestSgt s r write dmaMapped sgl d' (.ok req)

theorem submitRequest_sgt
    (h : submitRequest p alloc s r write epAddr sgl dmaMapped = some (d', res))
    : RequestSgt s r write dmaMapped sgl d' res := by
  have hrefused : ∀ err, some (s, Except.error err) = some (d', res) → s.mapsSg write sgl = false
      → RequestSgt s r write dmaMapped sgl d' res := by
    intro err heq hmaps
    simp only [Option.some.injEq, Prod.mk.injEq] at heq
    rw [← heq.1, ← heq.2]
    exact .refused hmaps rfl
  have hfailed : ∀ err, some (if dmaMapped then s.mapSg r sgl else (s.mapSg r sgl).unmapSg r,
        Except.error err) = some (d', res) → s.mapsSg write sgl = true
      → RequestSgt s r write dmaMapped sgl d' res := by
    intro err heq hmaps
    simp only [Option.some.injEq, Prod.mk.injEq] at heq
    rw [← heq.1, ← heq.2]
    exact .failed hmaps rfl
  have hmade : ∀ m req, m.sgt = (s.mapSg r sgl).sgt → some (m, Except.ok req) = some (d', res)
      → s.mapsSg write sgl = true → RequestSgt s r write dmaMapped sgl d' res := by
    intro m req hm heq hmaps
    simp only [Option.some.injEq, Prod.mk.injEq] at heq
    rw [← heq.1, ← heq.2]
    exact .made hmaps hm
  unfold Driver.mapsSg at hrefused hfailed hmade
  unfold submitRequest at h
  generalize (if write then DmaDataDirection.toDevice else .fromDevice) = dir at h hrefused hfailed hmade
  split at h
  . next hoff => exact hrefused _ h (by rw [hoff]; rfl)
  . next hoff =>
    rw [Bool.not_eq_true] at hoff
    split at h
    . next hdir => exact hrefused _ h (by rw [hoff, beq_eq_false_iff_ne.mpr hdir]; rfl)
    . next hdir =>
      rw [ne_eq, not_not] at hdir
      split at h
      . next hnents => exact hrefused _ h (by simp [hnents])
      . next hnents =>
        have hmaps : (!s.offline && s.engine.dir == dir && sgl.length != 0) = true := by
          rw [hoff, beq_iff_eq.mpr hdir, bne_iff_ne.mpr hnents]
          rfl
        dsimp only at h
        split at h
        . exact hfailed _ h hmaps
        . exact hfailed _ h hmaps
        . contradiction
        . contradiction
        . next req _ => exact hmade { s.mapSg r sgl with req := Function.update s.req r req } req rfl h hmaps

theorem RequestSgt.of_ne (h : RequestSgt s r write dmaMapped sgl d' res) {r' : Nat} (hr : r' ≠ r)
    : d'.sgt r' = s.sgt r' := by
  cases h with
  | refused _ hsgt => rw [hsgt]
  | failed _ hsgt =>
    rw [hsgt]
    cases dmaMapped with
    | true => exact s.mapSg_sgt_of_ne hr sgl
    | false =>
      rw [if_neg Bool.false_ne_true, Driver.unmapSg_sgt_of_ne _ hr]
      exact s.mapSg_sgt_of_ne hr sgl
  | made _ hsgt =>
    rw [hsgt]
    exact s.mapSg_sgt_of_ne hr sgl

end Request

section Tags

variable {p : ModuleParam} {s s' : Sys} {r : Nat} {th th' : Thread} {d' : Driver}

theorem AllTagged.setThread (h : AllTagged s.thr s.drv)
    (hothers : ∀ r', r' ≠ r → d'.view r' = s.drv.view r')
    (hself : ∀ j < th'.builds, (d'.xfer (.tfer r j)).Tagged r th'.dmaMapped)
    : AllTagged (Function.update s.thr r (some th')) d' := by
  intro r' th'' hth j hj
  by_cases hr : r' = r
  . subst hr
    rw [Function.update_self, Option.some.injEq] at hth
    subst hth
    exact hself j hj
  . rw [Function.update_of_ne hr] at hth
    have hxfer : d'.xfer (.tfer r' j) = s.drv.xfer (.tfer r' j) := by
      rw [← Driver.view_xfer, hothers r' hr, Driver.view_xfer]
    rw [hxfer]
    exact h r' th'' hth j hj

theorem AllTagged.setThread_of_kept (h : AllTagged s.thr s.drv) (hth : s.thr r = some th)
    (hkept : TagsKept s.drv d') (hle : th'.builds ≤ th.builds) (hmapped : th'.dmaMapped = th.dmaMapped)
    : AllTagged (Function.update s.thr r (some th')) d' := by
  intro r' th'' hth' j hj
  by_cases hr : r' = r
  . subst hr
    rw [Function.update_self, Option.some.injEq] at hth'
    subst hth'
    rw [hmapped]
    exact (h r' th hth j (Nat.lt_of_lt_of_le hj hle)).kept (hkept _)
  . rw [Function.update_of_ne hr] at hth'
    exact (h r' th'' hth' j hj).kept (hkept _)

theorem Thread.builds_goOn_wait (wait dmaMapped : Bool) (n : Nat)
    : Thread.builds ⟨wait, dmaMapped, .goOn true 0 n⟩ = 0 := by
  unfold Pc.goOn
  cases wait <;> split <;> rfl

theorem Thread.builds_goOn_nowait (dmaMapped : Bool) (k n : Nat)
    : Thread.builds ⟨false, dmaMapped, .goOn false k n⟩ = k := by
  unfold Pc.goOn
  split <;> rfl

theorem submitInit_tagged (d : Driver) (r : Nat) (t : XferPtr) (cb : Option Nat) (dmaMapped : Bool)
    (n : Nat)
    : ((submitInit d r t cb dmaMapped n).1.xfer t).Tagged r dmaMapped := by
  have hzero : (transferInit d.engine (d.req r)).2.2.lastInRequest = false
      ∧ (transferInit d.engine (d.req r)).2.2.flags = 0 := by
    rw [transferInit_xfer]
    exact ⟨rfl, rfl⟩
  simp only [submitInit, Driver.setXfer, Driver.transferInit, Function.update_self]
  generalize (transferInit d.engine (d.req r)).2.2 = xfer at hzero
  by_cases hlast : n - xfer.descNum = 0
  . cases dmaMapped with
    | true =>
      simp only [↓reduceIte, hlast]
      refine ⟨fun _ => rfl, fun _ => ?_⟩
      simp [hzero.2]
    | false =>
      simp only [Bool.false_eq_true, ↓reduceIte, hlast]
      exact ⟨fun _ => rfl, fun h => absurd h Bool.false_ne_true⟩
  . cases dmaMapped with
    | true =>
      simp only [↓reduceIte, hlast]
      refine ⟨fun h => ?_, fun _ => ?_⟩
      . simp [hzero.1] at h
      . simp [hzero.2]
    | false =>
      simp only [Bool.false_eq_true, ↓reduceIte, hlast]
      refine ⟨fun h => ?_, fun h => absurd h Bool.false_ne_true⟩
      simp [hzero.1] at h

theorem submitWake_tags (d : Driver) (t : XferPtr) (hw : HwRegs)
    : TagsKept d (submitWake p d t hw) := by
  rcases submitWake_cases p d t hw with ⟨status, heq⟩ | ⟨_, status, xfer, heq, hxfer⟩
  . rw [heq]
    exact .of_xfer rfl
  . rw [heq]
    refine .update (t := t) rfl ?_
    rcases hxfer with rfl | ⟨_, rfl⟩
    . apply XdmaTransfer.TagKept.refl
    . exact ⟨rfl, rfl, rfl⟩

theorem submitDestroy_xfer (d : Driver) (t : XferPtr)
    : (submitDestroy d t).xfer = d.xfer := by
  rw [submitDestroy_eq]

theorem submitExit_xfer (d : Driver) (r : Nat) (dmaMapped : Bool)
    : (submitExit d r dmaMapped).xfer = d.xfer := by
  rw [submitExit_eq]

theorem submitWake_sgt (d : Driver) (t : XferPtr) (hw : HwRegs)
    : (submitWake p d t hw).sgt = d.sgt := by
  rcases submitWake_cases p d t hw with ⟨status, heq⟩ | ⟨_, status, xfer, heq, _⟩
  . rw [heq]
  . rw [heq]
    rfl

theorem AllTagged.init (h : AllTagged s.thr s.drv) {wait dmaMapped : Bool} {k n : Nat}
    (hth : s.thr r = some ⟨wait, dmaMapped, .loop k n⟩) (cb : Option Nat)
    : let m := submitInit s.drv r (.tfer r (if wait then 0 else k)) cb dmaMapped n
      AllTagged (Function.update s.thr r (some ⟨wait, dmaMapped, .built k m.2⟩)) m.1 := by
  intro m
  refine h.setThread (fun r' hr => submitInit_view_of_ne s.drv r _ _ dmaMapped n hr) ?_
  intro j hj
  by_cases hself : j = if wait then 0 else k
  . rw [hself]
    apply submitInit_tagged
  . have hxfer : m.1.xfer (.tfer r j) = s.drv.xfer (.tfer r j) := by
      apply submitInit_xfer_of_ne
      rw [ne_eq, XferPtr.tfer.injEq, not_and]
      exact fun _ => hself
    rw [hxfer]
    apply h r _ hth j
    cases wait with
    | true => exact absurd (Nat.lt_one_iff.mp hj) hself
    | false => exact Nat.lt_of_le_of_ne (Nat.le_of_lt_succ hj) hself

theorem AllTagged.thread (h : AllTagged s.thr s.drv) (hth : s.thr r = some th) {op : ThreadOp}
    (hstep : s.stepThread p r th op = some s')
    : AllTagged s'.thr s'.drv := by
  have hcases := Sys.stepThread_cases hstep
  rcases th with ⟨wait, dmaMapped, pc⟩
  cases op with
  | lock =>
    rcases hcases with ⟨rfl, rfl, _, rfl⟩
    refine h.setThread_of_kept hth (.of_xfer rfl) ?_ rfl
    exact Nat.le_of_eq (Thread.builds_goOn_wait true dmaMapped _)
  | init =>
    rcases hcases with ⟨k, n, rfl, rfl⟩
    exact h.init hth _
  | check =>
    rcases hcases with ⟨k, n, rfl, rfl⟩
    refine h.setThread_of_kept hth (.of_xfer rfl) ?_ rfl
    split
    . cases wait <;> exact Nat.le_refl _
    . cases wait <;> exact Nat.zero_le _
  | queue hw =>
    rcases hcases with ⟨k, n, rfl, ⟨_, rfl⟩ | ⟨d', hqueue, rfl⟩⟩
    . refine h.setThread_of_kept hth (.of_xfer rfl) ?_ rfl
      cases wait <;> exact Nat.zero_le _
    . refine h.setThread_of_kept hth (.update (transferQueueLocked_xfer hqueue) ⟨rfl, rfl, rfl⟩) ?_ rfl
      cases wait with
      | true => exact Nat.le_refl 1
      | false => exact Nat.le_of_eq (Thread.builds_goOn_nowait dmaMapped (k + 1) n)
  | wake hw =>
    rcases hcases with ⟨n, rfl, rfl⟩
    refine h.setThread_of_kept hth (submitWake_tags s.drv _ hw) ?_ rfl
    cases wait <;> exact Nat.le_refl _
  | destroy =>
    rcases hcases with ⟨n, failed, rfl, rfl⟩
    have hnone : Thread.builds ⟨wait, dmaMapped, if failed then .leaving else .goOn true 0 n⟩ = 0 := by
      cases failed with
      | true => cases wait <;> rfl
      | false => apply Thread.builds_goOn_wait
    refine h.setThread_of_kept hth (.of_xfer (submitDestroy_xfer s.drv _)) ?_ rfl
    exact Nat.le_trans (Nat.le_of_eq hnone) (Nat.zero_le _)
  | exit =>
    rcases hcases with ⟨rfl, rfl⟩
    refine h.setThread_of_kept hth (.of_xfer (submitExit_xfer s.drv r _)) ?_ rfl
    cases wait <;> exact Nat.zero_le _

end Tags

section Steps

variable {p : ModuleParam} {s s' : Sys} {r : Nat} {th : Thread} {u m : Nat} {sgt : SgTable}

/-- A submission under way: its table is mapped as far as it was not unmapped yet. -/
theorem unmapOk_active {dmaMapped : Bool} {pc : Pc} (hpc : pc ≠ .returned)
    : UnmapOk u m sgt (some ⟨true, dmaMapped, pc⟩)
        ↔ if dmaMapped then sgt.unmaps = u ∧ m = 0 else m = 1 ∧ sgt.owed = u + 1 := by
  cases dmaMapped with
  | true => exact Iff.rfl
  | false =>
    cases pc with
    | returned => exact absurd rfl hpc
    | _ => exact Iff.rfl

theorem Pc.goOn_ne_returned (wait : Bool) (k n : Nat)
    : Pc.goOn wait k n ≠ .returned := by
  unfold Pc.goOn
  split
  . exact Pc.noConfusion
  . split <;> exact Pc.noConfusion

theorem submitDestroy_sgt {dmaMapped : Bool} {d : Driver}
    (h : (d.xfer (.tfer r 0)).Tagged r dmaMapped)
    : (submitDestroy d (.tfer r 0)).sgt = d.sgt
      ∨ dmaMapped = false ∧ (submitDestroy d (.tfer r 0)).sgt = (d.unmapSg r).sgt := by
  have hdestroy := transferDestroy_sgt
    { d with engine.descUsed := d.engine.descUsed - (d.xfer (.tfer r 0)).descNum } h
  cases hdestroy with
  | inl hsame => exact .inl hsame
  | inr hunmap =>
    refine .inr ⟨hunmap.1, Eq.trans hunmap.2 ?_⟩
    unfold Driver.unmapSg
    dsimp only
    split <;> rfl

theorem submitExit_sgt (d : Driver) (r : Nat) (dmaMapped : Bool)
    : (submitExit d r dmaMapped).sgt = if dmaMapped then d.sgt else (d.unmapSg r).sgt := by
  cases dmaMapped <;> rfl

theorem Sys.stepThread_sgt_of_ne (hwf : WellFormed s.thr s.drv) (htags : AllTagged s.thr s.drv)
    (hth : s.thr r = some th) {op : ThreadOp} (h : s.stepThread p r th op = some s') {r' : Nat}
    (hr : r' ≠ r)
    : s'.drv.sgt r' = s.drv.sgt r' := by
  have hcases := Sys.stepThread_cases h
  rcases th with ⟨wait, dmaMapped, pc⟩
  cases op with
  | lock =>
    rcases hcases with ⟨_, _, _, rfl⟩
    rfl
  | init =>
    rcases hcases with ⟨k, n, _, rfl⟩
    exact congrFun (congrArg Driver.sgt (submitInit_eq s.drv r _ _ dmaMapped n)) r'
  | check =>
    rcases hcases with ⟨k, n, _, rfl⟩
    rfl
  | queue hw =>
    rcases hcases with ⟨k, n, _, ⟨_, rfl⟩ | ⟨d', hqueue, rfl⟩⟩
    . rfl
    . exact congrFun (congrArg Driver.sgt (transferQueueLocked_eq hqueue)) r'
  | wake hw =>
    rcases hcases with ⟨n, _, rfl⟩
    exact congrFun (submitWake_sgt s.drv _ hw) r'
  | destroy =>
    rcases hcases with ⟨n, failed, rfl, rfl⟩
    cases wait with
    | false => exact absurd (hwf.threads r _ hth) id
    | true =>
      have hsgt := submitDestroy_sgt (htags r _ hth 0 Nat.zero_lt_one)
      cases hsgt with
      | inl hsame => exact congrFun hsame r'
      | inr hunmap => exact (congrFun hunmap.2 r').trans (s.drv.unmapSg_sgt_of_ne hr)
  | exit =>
    rcases hcases with ⟨rfl, rfl⟩
    have hsgt := congrFun (submitExit_sgt s.drv r dmaMapped) r'
    cases dmaMapped with
    | true => exact hsgt
    | false => exact hsgt.trans (s.drv.unmapSg_sgt_of_ne hr)

theorem UnmapOk.thread (htags : AllTagged s.thr s.drv) {dmaMapped : Bool} {pc : Pc}
    (hth : s.thr r = some ⟨true, dmaMapped, pc⟩) (h : UnmapOk u m (s.drv.sgt r) (s.thr r))
    {op : ThreadOp} (hstep : s.stepThread p r ⟨true, dmaMapped, pc⟩ op = some s')
    : UnmapOk u m (s'.drv.sgt r) (s'.thr r) := by
  have hcases := Sys.stepThread_cases hstep
  rw [hth] at h
  have hactive : ∀ (sgt' : SgTable) (pc' : Pc), pc ≠ .returned → pc' ≠ .returned
      → sgt' = s.drv.sgt r → UnmapOk u m sgt' (some ⟨true, dmaMapped, pc'⟩) := by
    intro sgt' pc' hpc hpc' hsgt
    rw [unmapOk_active hpc] at h
    rw [unmapOk_active hpc', hsgt]
    exact h
  cases op with
  | lock =>
    rcases hcases with ⟨_, rfl, _, rfl⟩
    simp only [Sys.setThread, Function.update_self]
    exact hactive _ _ Pc.noConfusion (Pc.goOn_ne_returned true 0 _) rfl
  | init =>
    rcases hcases with ⟨k, n, rfl, rfl⟩
    simp only [Sys.setThread, Function.update_self]
    refine hactive _ _ Pc.noConfusion Pc.noConfusion ?_
    exact congrFun (congrArg Driver.sgt (submitInit_eq s.drv r _ _ dmaMapped n)) r
  | check =>
    rcases hcases with ⟨k, n, rfl, rfl⟩
    simp only [Sys.setThread, Function.update_self]
    refine hactive _ _ Pc.noConfusion ?_ rfl
    split <;> exact Pc.noConfusion
  | queue hw =>
    rcases hcases with ⟨k, n, rfl, ⟨_, rfl⟩ | ⟨d', hqueue, rfl⟩⟩
    . simp only [Sys.setThread, Function.update_self]
      exact hactive _ _ Pc.noConfusion Pc.noConfusion rfl
    . simp only [Sys.setThread, Function.update_self]
      refine hactive _ _ Pc.noConfusion Pc.noConfusion ?_
      exact congrFun (congrArg Driver.sgt (transferQueueLocked_eq hqueue)) r
  | wake hw =>
    rcases hcases with ⟨n, rfl, rfl⟩
    simp only [Sys.setThread, Function.update_self]
    exact hactive _ _ Pc.noConfusion Pc.noConfusion (congrFun (submitWake_sgt s.drv _ hw) r)
  | destroy =>
    rcases hcases with ⟨n, failed, rfl, rfl⟩
    simp only [Sys.setThread, Function.update_self]
    have hpc : (if failed then .leaving else .goOn true 0 n) ≠ Pc.returned := by
      split
      . exact Pc.noConfusion
      . apply Pc.goOn_ne_returned
    cases submitDestroy_sgt (htags r _ hth 0 Nat.zero_lt_one) with
    | inl hsame => exact hactive _ _ Pc.noConfusion hpc (congrFun hsame r)
    | inr hunmap =>
      obtain ⟨hmapped, hsgt⟩ := hunmap
      dsimp only at hmapped
      subst hmapped
      rw [unmapOk_active Pc.noConfusion, if_neg Bool.false_ne_true] at h
      rw [unmapOk_active hpc, if_neg Bool.false_ne_true]
      refine ⟨h.1, ?_⟩
      rw [← h.2]
      have howed := congrArg SgTable.owed ((congrFun hsgt r).trans (s.drv.unmapSg_sgt_self r))
      exact howed
  | exit =>
    rcases hcases with ⟨rfl, rfl⟩
    simp only [Sys.setThread, Function.update_self]
    rw [unmapOk_active Pc.noConfusion] at h
    have hsgt := congrFun (submitExit_sgt s.drv r dmaMapped) r
    cases dmaMapped with
    | true =>
      rw [hsgt]
      exact h
    | false =>
      rw [if_neg Bool.false_ne_true] at h
      rw [hsgt, if_neg Bool.false_ne_true, s.drv.unmapSg_sgt_self r]
      exact ⟨by rw [h.1]; exact h.2, Nat.le_of_eq h.1⟩

theorem UnmapOk.submit {wait dmaMapped write : Bool} {sgl : List Scatterlist} {d' : Driver}
    {res : Except Errno XdmaRequestCb} (h : (s.drv.sgt r).unmaps = u ∧ m = 0)
    (hreq : RequestSgt s.drv r write dmaMapped sgl d' res)
    : UnmapOk u (m + if !dmaMapped && s.drv.mapsSg write sgl then 1 else 0) (d'.sgt r)
        (some ⟨wait, dmaMapped, .first wait res⟩) := by
  obtain ⟨hunmaps, rfl⟩ := h
  cases wait with
  | false => exact trivial
  | true =>
    cases hreq with
    | refused hmaps hsgt =>
      rw [hmaps, hsgt]
      cases dmaMapped with
      | true => exact ⟨hunmaps, rfl⟩
      | false => exact ⟨hunmaps, Nat.zero_le _⟩
    | failed hmaps hsgt =>
      rw [hmaps, hsgt]
      cases dmaMapped with
      | true =>
        rw [if_pos rfl, s.drv.mapSg_sgt_self r sgl]
        exact ⟨hunmaps, rfl⟩
      | false =>
        have hlen : sgl.length ≠ 0 := Driver.mapsSg_length hmaps
        rw [if_neg Bool.false_ne_true, Driver.unmapSg_sgt_self, s.drv.mapSg_sgt_self r sgl]
        unfold SgTable.owed
        rw [if_neg hlen, hunmaps]
        exact ⟨rfl, Nat.le_refl 1⟩
    | made hmaps hsgt =>
      rw [hmaps, hsgt, s.drv.mapSg_sgt_self r sgl]
      cases dmaMapped with
      | true => exact ⟨hunmaps, rfl⟩
      | false =>
        have hlen : sgl.length ≠ 0 := Driver.mapsSg_length hmaps
        refine ⟨rfl, ?_⟩
        unfold SgTable.owed
        rw [if_neg hlen, hunmaps]

/-- What every run keeps for request `r`, which was unmapped `u` times before and mapped `m` times since. -/
structure UnmapInv (r u m : Nat) (s : Sys) : Prop where
  wellFormed : WellFormed s.thr s.drv
  tagged : AllTagged s.thr s.drv
  unmap : UnmapOk u m (s.drv.sgt r) (s.thr r)

theorem AllTagged.submit (h : AllTagged s.thr s.drv) {alloc : Nat → Bool}
    {wait dmaMapped write : Bool} {epAddr : BitVec 64} {sgl : List Scatterlist} {d' : Driver}
    {res : Except Errno XdmaRequestCb}
    (hreq : submitRequest p alloc s.drv r write epAddr sgl dmaMapped = some (d', res))
    : AllTagged (Function.update s.thr r (some ⟨wait, dmaMapped, .first wait res⟩)) d' := by
  refine h.setThread (fun r' hr => submitRequest_view_of_ne hr hreq) ?_
  have hnone : Thread.builds ⟨wait, dmaMapped, .first wait res⟩ = 0 := by
    cases res with
    | error err => cases wait <;> rfl
    | ok req =>
      cases wait with
      | true => rfl
      | false => exact Thread.builds_goOn_nowait dmaMapped 0 _
  intro j hj
  rw [hnone] at hj
  exact absurd hj (Nat.not_lt_zero j)

theorem UnmapInv.submit (h : UnmapInv r u m s) {alloc : Nat → Bool} {r' : Nat}
    {wait dmaMapped write : Bool} {epAddr : BitVec 64} {sgl : List Scatterlist} {d' : Driver}
    {res : Except Errno XdmaRequestCb} (hth : s.thr r' = none)
    (hreq : submitRequest p alloc s.drv r' write epAddr sgl dmaMapped = some (d', res))
    (hwf : WellFormed (Function.update s.thr r' (some ⟨wait, dmaMapped, .first wait res⟩)) d')
    : UnmapInv r u (m + if r' == r && !dmaMapped && s.drv.mapsSg write sgl then 1 else 0)
        ({ s with drv := d' }.setThread r' ⟨wait, dmaMapped, .first wait res⟩) := by
  refine ⟨hwf, h.tagged.submit hreq, ?_⟩
  have hsgt := submitRequest_sgt hreq
  have hunmap := h.unmap
  by_cases hr : r' = r
  . subst hr
    rw [hth] at hunmap
    simp only [Sys.setThread, Function.update_self, beq_self_eq_true, Bool.true_and]
    exact UnmapOk.submit hunmap hsgt
  . have hne : r ≠ r' := fun heq => hr heq.symm
    simp only [Sys.setThread, Function.update_of_ne hne, beq_eq_false_iff_ne.mpr hr, Bool.false_and,
      Bool.false_eq_true, ↓reduceIte, Nat.add_zero]
    rw [hsgt.of_ne hne]
    exact hunmap

theorem UnmapInv.thread (h : UnmapInv r u m s) {r' : Nat} (hth : s.thr r' = some th) {op : ThreadOp}
    (hstep : s.stepThread p r' th op = some s') (hwf : WellFormed s'.thr s'.drv)
    : UnmapInv r u m s' := by
  refine ⟨hwf, h.tagged.thread hth hstep, ?_⟩
  obtain ⟨pc', hthr, _⟩ := Sys.stepThread_others hstep
  by_cases hr : r' = r
  . subst hr
    rcases th with ⟨wait, dmaMapped, pc⟩
    cases wait with
    | true => exact h.unmap.thread h.tagged hth hstep
    | false =>
      rw [hthr, Function.update_self]
      exact trivial
  . have hne : r ≠ r' := fun heq => hr heq.symm
    rw [Sys.stepThread_sgt_of_ne h.wellFormed h.tagged hth hstep hne, hthr,
      Function.update_of_ne hne]
    exact h.unmap

theorem UnmapInv.service (h : UnmapInv r u m s) (descWriteback : BitVec 32) (hw : HwRegs)
    : UnmapInv r u m { s with drv := engineService p s.drv descWriteback hw } := by
  refine ⟨(h.wellFormed.service p descWriteback hw).1,
    h.tagged.kept (engineService_tags p hw s.drv descWriteback), ?_⟩
  have hsgt := h.wellFormed.service_sgt p hw h.tagged (r := r)
  have hunmap := h.unmap
  dsimp only
  cases hth : s.thr r with
  | none =>
    rw [hth] at hunmap
    rw [hsgt (fun th hth' => by rw [hth] at hth'; contradiction)]
    exact hunmap
  | some th =>
    rcases th with ⟨wait, dmaMapped, pc⟩
    cases wait with
    | false => exact trivial
    | true =>
      rw [hth] at hunmap
      rw [hsgt (fun th hth' => by rw [hth] at hth'; cases hth'; rfl)]
      exact hunmap

theorem UnmapInv.device (h : UnmapInv r u m s) {d' : Driver} (hwf : WellFormed s.thr d')
    (hxfer : d'.xfer = s.drv.xfer) (hsgt : d'.sgt = s.drv.sgt)
    : UnmapInv r u m { s with drv := d' } := by
  refine ⟨hwf, h.tagged.kept (.of_xfer hxfer), ?_⟩
  dsimp only
  rw [hsgt]
  exact h.unmap

theorem UnmapInv.step (h : UnmapInv r u m s) {e : Event} (hstep : s.step p e = some s')
    : UnmapInv r u (m + if e.mapsSg s r then 1 else 0) s' := by
  have hwf := Sys.step_wellFormed h.wellFormed hstep
  cases e with
  | submit r' wait dmaMapped write alloc epAddr sgl =>
    simp only [Sys.step] at hstep
    split at hstep
    . contradiction
    . next hth =>
      split at hstep
      . contradiction
      . next drv err hreq =>
        rw [← Option.some.inj hstep] at hwf ⊢
        exact h.submit hth hreq hwf
      . next drv req hreq =>
        rw [← Option.some.inj hstep] at hwf ⊢
        exact h.submit hth hreq hwf
  | thread r' op =>
    simp only [Sys.step, Option.bind_eq_some_iff] at hstep
    rcases hstep with ⟨th, hth, hstep⟩
    exact h.thread hth hstep hwf
  | service descWriteback hw =>
    rw [← Option.some.inj hstep]
    exact h.service descWriteback hw
  | setOffline =>
    rw [← Option.some.inj hstep] at hwf ⊢
    exact h.device hwf rfl rfl
  | offlineEngine =>
    rw [← Option.some.inj hstep] at hwf ⊢
    exact h.device hwf rfl rfl
  | onlineEngine =>
    rw [← Option.some.inj hstep] at hwf ⊢
    exact h.device hwf rfl rfl
  | clearOffline =>
    rw [← Option.some.inj hstep] at hwf ⊢
    exact h.device hwf rfl rfl

theorem Sys.Initial.unmapInv (h : s.Initial) (r : Nat)
    : UnmapInv r (s.drv.sgt r).unmaps 0 s where
  wellFormed := h.wellFormed
  tagged := by
    intro r' th hth
    rw [h.thr r'] at hth
    contradiction
  unmap := by
    rw [h.thr r]
    exact ⟨rfl, rfl⟩

end Steps

/--
In every run of the submissions on an engine, a blocking one that has returned unmapped the table of its
request once if it mapped it, which it does once at most, and not at all if the caller had mapped it.
-/
theorem xdmaXferSubmit_unmaps (p : ModuleParam) (s s' : Sys) (events : List Event) (hinit : s.Initial)
    (hrun : Transition.run (Sys.step p) s events = some s') (r : Nat) (dmaMapped : Bool)
    (hret : s'.thr r = some ⟨true, dmaMapped, .returned⟩)
    : let maps := Transition.count (Sys.step p) (fun s e => e.mapsSg s r) s events
      (s'.drv.sgt r).unmaps = (s.drv.sgt r).unmaps + maps ∧ maps ≤ 1 ∧ (dmaMapped = true → maps = 0) := by
  have hinv : UnmapInv r (s.drv.sgt r).unmaps
      (0 + Transition.count (Sys.step p) (fun s e => e.mapsSg s r) s events) s' :=
    Transition.count_of_inductive (fun _ _ _ _ h hstep => h.step hstep) (hinit.unmapInv r) hrun
  rw [Nat.zero_add] at hinv
  have hunmap := hinv.unmap
  rw [hret] at hunmap
  cases dmaMapped with
  | true =>
    obtain ⟨hunmaps, hnone⟩ := hunmap
    dsimp only
    rw [hnone]
    exact ⟨hunmaps, Nat.zero_le 1, fun _ => rfl⟩
  | false => exact ⟨hunmap.1, hunmap.2, fun h => absurd h Bool.false_ne_true⟩

/-- A blocking submission that maps its list itself, and whose transfer is completed. -/
def submitUnmapped : List Event :=
  [.submit 0 true false true true 0 [⟨0x1000, 16⟩], .thread 0 .lock, .thread 0 .init, .thread 0 .check,
    .thread 0 (.queue (healthyRegs 0)), .service 0 (healthyRegs 1)] ++ submitLast 0

theorem xdmaXferSubmit_unmaps_completed
    : ∃ s, Transition.run (Sys.step ⟨false, false, 4096⟩) (Sys.init .toDevice false) submitUnmapped = some s
        ∧ (s.drv.sgt 0).unmaps = 1
        ∧ let maps := Transition.count (Sys.step ⟨false, false, 4096⟩) (fun s e => e.mapsSg s 0)
            (Sys.init .toDevice false) submitUnmapped
          (s.drv.sgt 0).unmaps = ((Sys.init .toDevice false).drv.sgt 0).unmaps + maps ∧ maps ≤ 1
            ∧ (false = true → maps = 0) :=
  ⟨_, rfl, rfl, xdmaXferSubmit_unmaps ⟨false, false, 4096⟩ (Sys.init .toDevice false) _ submitUnmapped
    (Sys.init_initial .toDevice false) rfl 0 false rfl⟩

end Xdma
