import Mathlib.Algebra.BigOperators.Group.List.Basic
import ReferenceProjects.Xdma.Lemmas.Step

/-!
This module contains when the driver's count of used descriptors agrees with the transfers that are
initialised and not yet destroyed.
-/

namespace Xdma

/-- Every submission returned; of a nowait one, no transfer waits for its verdict any more. -/
def Sys.AllDone (s : Sys) : Prop :=
  ∀ r th, s.thr r = some th → th.pc = .returned
    ∨ (∃ k, th.pc = .queued k) ∧ ∀ j, .tfer r j ∉ s.drv.engine.transferList

/--
The count of used descriptors is the number of descriptors of the initialised transfers, it is back
at zero when all requests are done, and the credits were right whenever the engine was started.
-/
structure DescUsedSound (s : Sys) : Prop where
  used : s.drv.engine.descUsed = s.drv.liveDescs
  done : s.AllDone → s.drv.engine.descUsed = 0
  credits : ∀ c ∈ s.drv.hist.credits, c.1 = c.2

/--
No submission is refused a transfer after it built it, and none builds a third transfer for a request
that nobody waits for.
-/
def BuildsNone (d : Driver) (th : Thread) : ThreadOp → Prop
  | .init => th.pc.tferIdx < 2
  | .check => d.offline = false
  | .queue _ => d.engine.shutdown.request = false
  | _ => True

/-- The transfers of the same request before this one. -/
def XferPtr.earlier : XferPtr → List XferPtr
  | .tfer r j => (List.range j).map (XferPtr.tfer r)
  | .perf _ => []

/-- No transfer in the queue is the last one of a nowait request with an earlier one that failed. -/
def NoneFailed (d : Driver) : Prop :=
  ∀ t ∈ d.engine.transferList, (d.xfer t).cb.isSome → (d.xfer t).lastInRequest = true →
    ∀ u ∈ t.earlier, (d.xfer u).state ≠ .failed

/--
A step that leaves the count of used descriptors right: no submission is cut short, and a service that
completes transfers finds no request that it would complete in part.
-/
def KeepsAccount (s : Sys) : Event → Prop
  | .thread r op => ∀ th ∈ s.thr r, BuildsNone s.drv th op
  | .service descWriteback hw =>
    s.drv.engine.running = true → serviceCount descWriteback hw ≠ 0 → NoneFailed s.drv
  | _ => True

instance (d : Driver) (th : Thread) : (op : ThreadOp) → Decidable (BuildsNone d th op)
  | .init => inferInstanceAs (Decidable (_ < _))
  | .check => inferInstanceAs (Decidable (_ = _))
  | .queue _ => inferInstanceAs (Decidable (_ = _))
  | .wake _ => inferInstanceAs (Decidable True)
  | .lock => inferInstanceAs (Decidable True)
  | .destroy => inferInstanceAs (Decidable True)
  | .exit => inferInstanceAs (Decidable True)

instance (d : Driver) : Decidable (NoneFailed d) :=
  inferInstanceAs (Decidable (∀ t ∈ d.engine.transferList, (_ → _ → ∀ u ∈ t.earlier, _)))

instance (s : Sys) : (e : Event) → Decidable (KeepsAccount s e)
  | .thread r op => inferInstanceAs (Decidable (∀ th ∈ s.thr r, BuildsNone s.drv th op))
  | .service _ _ => inferInstanceAs (Decidable (_ → _ → NoneFailed s.drv))
  | .submit .. => inferInstanceAs (Decidable True)
  | .setOffline => inferInstanceAs (Decidable True)
  | .offlineEngine => inferInstanceAs (Decidable True)
  | .onlineEngine => inferInstanceAs (Decidable True)
  | .clearOffline => inferInstanceAs (Decidable True)

/-- The transfers of a submission that are initialised and not yet destroyed. -/
def Thread.Live (v : View) (th : Thread) (j : Nat) : Prop :=
  match th.wait, th.pc with
  | true, .built _ _ | true, .checked _ _ | true, .waiting _ | true, .woken _ _ => j = 0
  | false, .loop k _ => j < k
  | false, .built k _ | false, .checked k _ => j ≤ k
  | false, .queued k => j < k ∧ v.linked (k - 1)
  | _, _ => False

/-- What the steps keep that leave the count right. -/
structure Accounted (thr : Nat → Option Thread) (d : Driver) : Prop where
  used : d.engine.descUsed = d.liveDescs
  nodup : d.hist.live.Nodup
  credits : ∀ c ∈ d.hist.credits, c.1 = c.2
  live : ∀ t, t ∈ d.hist.live
    ↔ ∃ r j th, t = .tfer r j ∧ thr r = some th ∧ th.Live (d.view r) j

section Service

variable {p : ModuleParam} {thr : Nat → Option Thread} {d d' : Driver}

theorem liveDescs_congr (hlive : d'.hist.live = d.hist.live)
    (hnum : ∀ t, (d'.xfer t).descNum = (d.xfer t).descNum)
    : d'.liveDescs = d.liveDescs := by
  unfold Driver.liveDescs
  rw [hlive]
  simp only [hnum]

theorem Thread.live_congr {v v' : View} {th : Thread}
    (hlinked : ∀ k, th.wait = false → th.pc = .queued (k + 1) → (v'.linked k ↔ v.linked k)) (j : Nat)
    : th.Live v' j ↔ th.Live v j := by
  rcases th with ⟨wait, dmaMapped, pc⟩
  cases wait <;> cases pc <;> try exact Iff.rfl
  case false.queued k =>
    cases k with
    | zero => simp [Thread.Live]
    | succ k => exact and_congr_right (fun _ => hlinked k rfl rfl)

theorem Accounted.congr (hacc : Accounted thr d) (hused : d'.engine.descUsed = d.engine.descUsed)
    (hlive : d'.hist.live = d.hist.live) (hcredits : d'.hist.credits = d.hist.credits)
    (hnum : ∀ t, (d'.xfer t).descNum = (d.xfer t).descNum)
    (hlist : d'.engine.transferList = d.engine.transferList)
    : Accounted thr d' where
  used := by rw [hused, liveDescs_congr hlive hnum, hacc.used]
  nodup := hlive ▸ hacc.nodup
  credits := hcredits ▸ hacc.credits
  live := by
    intro t
    have hsame : ∀ (th : Thread) r j, th.Live (d'.view r) j ↔ th.Live (d.view r) j :=
      fun th r j => Thread.live_congr (fun k _ _ => by simp only [Driver.view, hlist]) j
    simp only [hlive, hacc.live, hsame]

theorem credits_start {hw : HwRegs} (hstart : engineStart p d hw = some d')
    (hused : d.engine.descUsed = d.liveDescs) (hcredits : ∀ c ∈ d.hist.credits, c.1 = c.2)
    : ∀ c ∈ d'.hist.credits, c.1 = c.2 := by
  rcases engineStart_credits hstart with hsame | hnew
  . rw [hsame]
    exact hcredits
  . rw [hnew]
    intro c hc
    rcases List.mem_cons.mp hc with rfl | hold
    . exact hused
    . exact hcredits c hold

theorem Accounted.start (hacc : Accounted thr d) {hw : HwRegs}
    (hstart : engineStart p d hw = some d')
    : Accounted thr d' := by
  have hcredits := credits_start hstart hacc.used hacc.credits
  rcases engineStart_eq hstart with ⟨_, t, rest, _, heq⟩
  have hsame : Accounted thr { d' with hist.credits := d.hist.credits } := by
    rw [heq]
    exact hacc.congr rfl rfl rfl (fun _ => rfl) rfl
  exact ⟨hsame.used, hsame.nodup, hcredits, hsame.live⟩

theorem enqueue_liveDescs (d : Driver) (t : XferPtr)
    : (d.enqueue t).liveDescs = d.liveDescs := by
  refine liveDescs_congr rfl (fun u => ?_)
  show (Function.update d.xfer t _ u).descNum = _
  by_cases hu : u = t
  . rw [hu, Function.update_self]
  . rw [Function.update_of_ne hu]

theorem liveDescs_destroy (hnodup : d.hist.live.Nodup) {t : XferPtr} (hmem : t ∈ d.hist.live)
    (hlive : d'.hist.live = d.hist.live.filter (fun u => u ≠ t))
    (hnum : ∀ u, (d'.xfer u).descNum = (d.xfer u).descNum)
    : (d.xfer t).descNum + d'.liveDescs = d.liveDescs := by
  have herase : d.hist.live.erase t = d.hist.live.filter (fun u => u ≠ t) := by
    rw [hnodup.erase_eq_filter]
    congr 1
    funext u
    by_cases hu : u = t <;> simp [hu]
  unfold Driver.liveDescs
  rw [hlive, ← herase]
  simp only [hnum]
  exact List.sum_map_erase (fun u => (d.xfer u).descNum) hmem

theorem completionSwitch_more {s : Driver} {t : XferPtr} {hw : HwRegs}
    (hmore : (completionSwitch p s t hw).2.2 = false)
    : (s.xfer t).state ≠ .completed := by
  intro hstate
  unfold completionSwitch at hmore
  dsimp only at hmore
  rw [hstate] at hmore
  dsimp only at hmore
  split at hmore <;> exact Bool.noConfusion hmore

/-- A transfer is destroyed and its descriptors are given back, as `xdma_xfer_completion()` does. -/
def Driver.giveBack (s : Driver) (t : XferPtr) : Driver :=
  { transferDestroy s t with
      engine.descUsed :=
        (transferDestroy s t).engine.descUsed - ((transferDestroy s t).xfer t).descNum }

theorem giveBack_accounts {s : Driver} (hused : s.engine.descUsed = s.liveDescs)
    (hnodup : s.hist.live.Nodup) {t : XferPtr} (hmem : t ∈ s.hist.live)
    : (s.giveBack t).engine.descUsed = (s.giveBack t).liveDescs ∧ (s.giveBack t).hist.live.Nodup
        ∧ ∀ u, u ∈ (s.giveBack t).hist.live ↔ u ∈ s.hist.live ∧ u ≠ t := by
  have hlive : (s.giveBack t).hist.live = s.hist.live.filter (fun u => u ≠ t) := by
    unfold Driver.giveBack
    rw [transferDestroy_eq]
  have hsum := liveDescs_destroy hnodup hmem hlive (fun u => by
    unfold Driver.giveBack
    rw [transferDestroy_eq])
  have hlow : (s.giveBack t).engine.descUsed = s.engine.descUsed - (s.xfer t).descNum := by
    unfold Driver.giveBack
    rw [transferDestroy_eq]
  refine ⟨?_, ?_, ?_⟩
  . rw [hlow, hused]
    omega
  . rw [hlive]
    exact hnodup.filter _
  . intro u
    rw [hlive]
    simp

theorem not_live_of_end {s : Driver} {r i k : Nat}
    (hnum : ∀ j < k, 0 < ((s.view r).xfer j).descNum) (hi : i ≤ k)
    (hdescs : (s.view r).descs i = (s.view r).descs k)
    (hlive : ∀ j, .tfer r j ∈ s.hist.live ↔ i ≤ j ∧ j < k) (j : Nat)
    : .tfer r j ∉ s.hist.live := by
  intro hj
  have hlt := (hlive j).mp hj
  have hstep := View.descs_succ (s.view r) i
  have hmono := View.descs_mono (s.view r) (show i + 1 ≤ k by omega)
  have hpos := hnum i (by omega)
  omega

theorem completionLoop_accounts (r k : Nat) (hw : HwRegs) (fuel i nents : Nat) (s : Driver)
    (done : Nat) (hsettled : ∀ j < k, ((s.view r).xfer j).Settled)
    (hcompleted : ∀ j, j + 1 < k → ((s.view r).xfer j).state = .completed)
    (hnum : ∀ j < k, 0 < ((s.view r).xfer j).descNum) (hi : i ≤ k)
    (hnents : nents + (s.view r).descs i = (s.view r).descs k) (hfuel : nents ≤ fuel)
    (hused : s.engine.descUsed = s.liveDescs) (hnodup : s.hist.live.Nodup)
    (hlive : ∀ j, .tfer r j ∈ s.hist.live ↔ i ≤ j ∧ j < k)
    : let m := (completionLoop p r hw fuel i nents s done).1
      m.engine.descUsed = m.liveDescs ∧ m.hist.live.Nodup
        ∧ ∀ t, t ∈ m.hist.live ↔ t ∈ s.hist.live ∧ t.ofReq r = false := by
  induction fuel generalizing i nents s done with
  | zero =>
    have hnone := not_live_of_end hnum hi (by omega) hlive
    exact ⟨hused, hnodup, fun t => ⟨fun ht => ⟨ht, XferPtr.ofReq_of_not_mem hnone ht⟩, fun ht => ht.1⟩⟩
  | succ fuel ih =>
    unfold completionLoop
    split
    . next hzero =>
      have hnone := not_live_of_end hnum hi (by omega) hlive
      exact ⟨hused, hnodup, fun t => ⟨fun ht => ⟨ht, XferPtr.ofReq_of_not_mem hnone ht⟩, fun ht => ht.1⟩⟩
    . next hne =>
      have hlt : i < k := by
        apply Nat.lt_of_le_of_ne hi
        intro heq
        rw [heq] at hnents
        omega
      have hstep := View.descs_succ (s.view r) i
      have hmono := View.descs_mono (s.view r) (show i + 1 ≤ k from hlt)
      have hpos := hnum i hlt
      have hswitch := completionSwitch_settled p s (.tfer r i) hw (hsettled i hlt)
      have hquiet : CompletionQuiet s (s.giveBack (.tfer r i)) :=
        transferDestroy_quiet s (.tfer r i) _
      have hview := hquiet.view r
      rcases giveBack_accounts hused hnodup ((hlive i).mpr ⟨Nat.le_refl i, hlt⟩) with
        ⟨hused', hnodup', hlive'⟩
      have hgone : ∀ t, t ∈ (s.giveBack (.tfer r i)).hist.live ∧ t.ofReq r = false
          ↔ t ∈ s.hist.live ∧ t.ofReq r = false := by
        intro t
        rw [hlive']
        constructor
        . exact fun h => ⟨h.1.1, h.2⟩
        . rintro ⟨hmem, hof⟩
          refine ⟨⟨hmem, ?_⟩, hof⟩
          rintro rfl
          simp [XferPtr.ofReq] at hof
      dsimp only
      rw [hswitch]
      split
      . have hrest := ih (i + 1) (nents - (s.xfer (.tfer r i)).descNum) (s.giveBack (.tfer r i))
          (done + (completionSwitch p s (.tfer r i) hw).2.1) (by rw [hview]; exact hsettled)
          (by rw [hview]; exact hcompleted) (by rw [hview]; exact hnum) hlt
          (by rw [hview]; rw [Driver.view_xfer] at hstep; omega)
          (by rw [Driver.view_xfer] at hpos; omega) hused' hnodup'
          (by
            intro j
            rw [hlive', hlive]
            simp only [ne_eq, XferPtr.tfer.injEq, true_and]
            omega)
        exact ⟨hrest.1, hrest.2.1, fun t => (hrest.2.2 t).trans (hgone t)⟩
      . next hmore =>
        -- only the last transfer of the request can have failed
        have hlast : i + 1 = k := by
          by_contra hnot
          exact completionSwitch_more (by simpa using hmore) (hcompleted i (by omega))
        have hnone : ∀ j, .tfer r j ∉ (s.giveBack (.tfer r i)).hist.live := by
          intro j hj
          rw [hlive', hlive] at hj
          simp only [ne_eq, XferPtr.tfer.injEq, true_and] at hj
          omega
        refine ⟨hused', hnodup', fun t => ?_⟩
        rw [← hgone]
        exact ⟨fun ht => ⟨ht, XferPtr.ofReq_of_not_mem hnone ht⟩, fun ht => ht.1⟩

theorem xdmaXferCompletion_accounts (s : Driver) (r k : Nat) (hw : HwRegs)
    (hok : AsyncOk (s.view r) r k 0) (hsettled : ∀ j < k, ((s.view r).xfer j).Settled)
    (hcompleted : ∀ j, j + 1 < k → ((s.view r).xfer j).state = .completed)
    (hused : s.engine.descUsed = s.liveDescs) (hnodup : s.hist.live.Nodup)
    (hlive : ∀ j, .tfer r j ∈ s.hist.live ↔ j < k)
    : let m := (xdmaXferCompletion p s r hw).1
      m.engine.descUsed = m.liveDescs ∧ m.hist.live.Nodup
        ∧ ∀ t, t ∈ m.hist.live ↔ t ∈ s.hist.live ∧ t.ofReq r = false := by
  have hloop := completionLoop_accounts (p := p) r k hw (s.req r).swDescCnt 0 (s.req r).swDescCnt s 0
    hsettled hcompleted hok.num (Nat.zero_le k) (by
      have := hok.descs
      simp only [View.descs, Driver.view, List.range_zero, List.map_nil, List.sum_nil] at this ⊢
      omega) (Nat.le_refl _) hused hnodup (fun j => by rw [hlive]; omega)
  unfold xdmaXferCompletion xdmaRequestFree
  dsimp only at hloop ⊢
  rw [Driver.unmapSg_eq]
  generalize (completionLoop p r hw (s.req r).swDescCnt 0 (s.req r).swDescCnt s 0).1 = m at hloop
  have hfilter : m.hist.live.filter (fun u => !u.ofReq r) = m.hist.live := by
    rw [List.filter_eq_self]
    intro t ht
    rw [((hloop.2.2 t).mp ht).2]
    rfl
  have hdescs : ∀ freed sgt, Driver.liveDescs { m with
      sgt := sgt
      hist := { m.hist with freed := freed, live := m.hist.live.filter (fun u => !u.ofReq r) } }
        = m.liveDescs := by
    intro freed sgt
    unfold Driver.liveDescs
    dsimp only
    rw [hfilter]
  refine ⟨hloop.1.trans (congrArg Nat.cast (hdescs _ _).symm), ?_, ?_⟩
  . dsimp only
    rw [hfilter]
    exact hloop.2.1
  . dsimp only
    rw [hfilter]
    exact hloop.2.2

theorem Accounted.unlink (hacc : Accounted thr d) (hwf : WellFormed thr d) {t : XferPtr}
    {rest : List XferPtr} (hlist : d.engine.transferList = t :: rest)
    (hcb : ∀ r, (d.xfer t).cb = some r → (d.xfer t).lastInRequest = false)
    (hused : d'.engine.descUsed = d.engine.descUsed) (hlive : d'.hist.live = d.hist.live)
    (hcredits : d'.hist.credits = d.hist.credits)
    (hnum : ∀ u, (d'.xfer u).descNum = (d.xfer u).descNum)
    (hrest : d'.engine.transferList = rest)
    : Accounted thr d' where
  used := by rw [hused, liveDescs_congr hlive hnum, hacc.used]
  nodup := hlive ▸ hacc.nodup
  credits := hcredits ▸ hacc.credits
  live := by
    intro u
    rw [hlive, hacc.live]
    apply exists_congr
    intro r
    apply exists_congr
    intro j
    apply exists_congr
    intro th
    refine and_congr_right (fun _ => and_congr_right (fun hth => (Thread.live_congr ?_ j).symm))
    rintro k hwait hpc
    rw [Driver.view_linked, Driver.view_linked, hrest, hlist, List.mem_cons]
    refine ⟨Or.inr, fun h => h.resolve_left ?_⟩
    -- the last transfer of a request that is queued as a whole does call back
    rintro rfl
    have hok := hwf.threads r th hth
    rcases th with ⟨wait, dmaMapped, pc⟩
    dsimp only at hwait hpc
    subst hwait hpc
    have hasync : AsyncOk (d.view r) r (k + 1) 0 := hok
    have hlast := (hasync.last k (Nat.lt_succ_self k)).mpr ⟨rfl, rfl⟩
    have hnot := hcb r (hasync.cb k (Nat.lt_succ_self k))
    rw [Driver.view_xfer, hnot] at hlast
    contradiction

theorem Accounted.callback (hacc : Accounted thr d) (hwf : WellFormed thr d) {r j : Nat}
    {rest : List XferPtr} (hlist : d.engine.transferList = .tfer r j :: rest) {dmaMapped : Bool}
    (hth : thr r = some ⟨false, dmaMapped, .queued (j + 1)⟩)
    (hused : d'.engine.descUsed = d'.liveDescs) (hnodup : d'.hist.live.Nodup)
    (hlive : ∀ t, t ∈ d'.hist.live ↔ t ∈ d.hist.live ∧ t.ofReq r = false)
    (hcredits : d'.hist.credits = d.hist.credits)
    (hrest : d'.engine.transferList = rest)
    : Accounted thr d' where
  used := hused
  nodup := hnodup
  credits := hcredits ▸ hacc.credits
  live := by
    intro u
    have hothers : ∀ r' i, r' ≠ r
        → (.tfer r' i ∈ d'.engine.transferList ↔ .tfer r' i ∈ d.engine.transferList) := by
      intro r' i hr
      rw [hrest, hlist, List.mem_cons]
      simp [hr]
    rw [hlive, hacc.live]
    constructor
    . rintro ⟨⟨r', i, th, rfl, hth', hlive'⟩, hof⟩
      simp only [XferPtr.ofReq, beq_eq_false_iff_ne] at hof
      exact ⟨r', i, th, rfl, hth', (Thread.live_congr (fun k _ _ => hothers r' k hof) i).mpr hlive'⟩
    . rintro ⟨r', i, th, rfl, hth', hlive'⟩
      by_cases hr : r' = r
      . subst hr
        rw [hth, Option.some.injEq] at hth'
        subst hth'
        exact absurd (hrest ▸ hlive'.2) (hwf.not_mem_rest hlist (Nat.le_refl j))
      . exact ⟨⟨r', i, th, rfl, hth', (Thread.live_congr (fun k _ _ => hothers r' k hr) i).mp hlive'⟩,
          by simp [XferPtr.ofReq, hr]⟩

theorem Accounted.complete (hacc : Accounted thr d) (hwf : WellFormed thr d) {t : XferPtr}
    {rest : List XferPtr} (hlist : d.engine.transferList = t :: rest) {xfer' : XdmaTransfer}
    (hverdict : Verdict (d.xfer t) xfer') (hw : HwRegs)
    (hearlier : (d.xfer t).cb.isSome → (d.xfer t).lastInRequest = true →
      ∀ u ∈ t.earlier, (d.xfer u).state ≠ .failed)
    : Accounted thr (engineTransferCompletion p (d.setXfer t xfer').listDel t hw) := by
  rcases hwf.complete_eq (p := p) hlist hverdict hw with ⟨_, heq⟩
  have hcases := hwf.completion_cases (p := p) hlist hverdict hw
  have hnum : ∀ u, (Function.update d.xfer t xfer' u).descNum = (d.xfer u).descNum := by
    intro u
    by_cases hu : u = t
    . rw [hu, Function.update_self, hverdict.eq]
    . rw [Function.update_of_ne hu]
  dsimp only at heq hcases
  rcases hcases with ⟨hsame, hcb⟩ | ⟨r, j, rfl, hlast, ⟨dmaMapped, hth⟩, hok, hsettled, hcall⟩
  . rw [hsame]
    refine hacc.unlink hwf hlist hcb rfl rfl rfl hnum ?_
    simp only [Driver.listDel, Driver.setXfer, hlist, List.tail_cons]
  . have hmem : XferPtr.tfer r j ∈ d.engine.transferList := by
      rw [hlist]
      exact List.mem_cons_self
    have hlive : ∀ i, .tfer r i ∈ d.hist.live ↔ i < j + 1 := by
      intro i
      rw [hacc.live]
      constructor
      . rintro ⟨r', i', th, heq', hth', hlive'⟩
        simp only [XferPtr.tfer.injEq] at heq'
        rcases heq' with ⟨rfl, rfl⟩
        rw [hth, Option.some.injEq] at hth'
        subst hth'
        exact hlive'.1
      . exact fun hi => ⟨r, i, _, rfl, hth, hi, hmem⟩
    have hasync : AsyncOk (d.view r) r (j + 1) 0 := hwf.threads r _ hth
    have hcb : (d.xfer (.tfer r j)).cb = some r := hasync.cb j (Nat.lt_succ_self j)
    have hcompleted : ∀ i, i + 1 < j + 1
        → (((d.setXfer (.tfer r j) xfer').listDel.view r).xfer i).state = .completed := by
      intro i hi
      have hxfer : (d.setXfer (.tfer r j) xfer').listDel.xfer (.tfer r i) = d.xfer (.tfer r i) := by
        simp only [Driver.listDel, Driver.setXfer]
        exact Function.update_of_ne (by simp; omega) _ _
      have hset := hsettled i (by omega)
      rw [Driver.view_xfer, hxfer] at hset ⊢
      refine hset.resolve_right (hearlier (Option.isSome_of_eq_some hcb) hlast _ ?_)
      simp only [XferPtr.earlier, List.mem_map, List.mem_range]
      exact ⟨i, by omega, rfl⟩
    have hdescs : Driver.liveDescs { (d.setXfer (.tfer r j) xfer').listDel with
          hist.wakeups := .tfer r j :: (d.setXfer (.tfer r j) xfer').listDel.hist.wakeups }
        = d.liveDescs := liveDescs_congr rfl hnum
    have hcount := xdmaXferCompletion_accounts (p := p)
      { (d.setXfer (.tfer r j) xfer').listDel with
          hist.wakeups := .tfer r j :: (d.setXfer (.tfer r j) xfer').listDel.hist.wakeups }
      r (j + 1) hw hok hsettled hcompleted
      (hacc.used.trans (congrArg Nat.cast hdescs.symm)) hacc.nodup hlive
    rw [← hcall] at hcount
    refine hacc.callback hwf hlist hth hcount.1 hcount.2.1 hcount.2.2 ?_ (by rw [heq])
    rw [(engineTransferCompletion_frame p _ (.tfer r j) hw).eq]
    rfl

theorem Accounted.regs (hacc : Accounted thr d) (hregs : ServiceRegs d d')
    : Accounted thr d' := by
  refine hacc.congr ?_ ?_ ?_ ?_ ?_ <;> rw [hregs.eq]
  exact fun _ => rfl

theorem Accounted.mark (hacc : Accounted thr d) (t : XferPtr) (flags descCmpl : BitVec 32)
    : Accounted thr (d.setXfer t { d.xfer t with flags := flags, descCmpl := descCmpl }) := by
  refine hacc.congr rfl rfl rfl ?_ rfl
  intro u
  simp only [Driver.setXfer]
  by_cases hu : u = t
  . rw [hu, Function.update_self]
  . rw [Function.update_of_ne hu]

theorem NoneFailed.complete (hnone : NoneFailed d) {t : XferPtr} {rest : List XferPtr}
    (hlist : d.engine.transferList = t :: rest) (hmem : t ∉ rest)
    (hrest : d'.engine.transferList = rest)
    (hxfer : d'.xfer = Function.update d.xfer t { d.xfer t with state := .completed })
    : NoneFailed d' := by
  intro u hu hcb hlast v hv
  rw [hrest] at hu
  have hne : u ≠ t := by
    rintro rfl
    exact hmem hu
  rw [hxfer, Function.update_of_ne hne] at hcb hlast
  rw [hxfer]
  by_cases hvt : v = t
  . rw [hvt, Function.update_self]
    simp
  . rw [Function.update_of_ne hvt]
    exact hnone u (by rw [hlist]; exact List.mem_cons_of_mem t hu) hcb hlast v hv

theorem Accounted.serviceLeads (p : ModuleParam) (hw : HwRegs) (thr : Nat → Option Thread)
    : ServiceLeads p hw (fun d => (WellFormed thr d ∧ Accounted thr d) ∧ NoneFailed d)
        (fun d => WellFormed thr d ∧ Accounted thr d) where
  regs := by
    intro s s' hregs h
    refine ⟨⟨?_, h.1.2.regs hregs⟩, ?_⟩
    . refine h.1.1.of_eq ?_ ?_ ?_ ?_ <;> rw [hregs.eq]
    . rw [hregs.eq]
      exact h.2
  complete := by
    intro s t rest hlist h
    have hverdict : Verdict (s.xfer t) { s.xfer t with state := .completed } := ⟨Or.inl rfl, rfl⟩
    have hmem : t ∈ s.engine.transferList := by
      rw [hlist]
      exact List.mem_cons_self
    have hnot : t ∉ rest := by
      rcases h.1.1.owned t hmem with ⟨r, j, th, rfl, _⟩
      exact h.1.1.not_mem_rest hlist (Nat.le_refl j)
    rcases h.1.1.complete_eq (p := p) hlist hverdict hw with ⟨hwf, heq⟩
    exact ⟨⟨hwf, h.1.2.complete h.1.1 hlist hverdict hw (h.2 t hmem)⟩,
      h.2.complete hlist hnot (by rw [heq]) (by rw [heq])⟩
  weaken := fun _ h => h.1
  mark := fun s t rest flags descCmpl _ h => ⟨h.1.1.mark t flags descCmpl, h.1.2.mark t flags descCmpl⟩
  final := by
    intro s t rest xfer' hlist hverdict h
    have hmem : t ∈ s.engine.transferList := by
      rw [hlist]
      exact List.mem_cons_self
    exact ⟨(h.1.1.complete_eq (p := p) hlist hverdict hw).1,
      h.1.2.complete h.1.1 hlist hverdict hw (h.2 t hmem)⟩
  regsAfter := by
    intro s s' hregs h
    refine ⟨?_, h.2.regs hregs⟩
    refine h.1.of_eq ?_ ?_ ?_ ?_ <;> rw [hregs.eq]
  start := by
    intro s s' hstart h
    refine ⟨?_, h.2.start hstart⟩
    rcases engineStart_eq hstart with ⟨_, t, rest, _, heq⟩
    refine h.1.of_eq ?_ ?_ ?_ ?_ <;> rw [heq]

theorem Accounted.service (hacc : Accounted thr d) (hwf : WellFormed thr d)
    {descWriteback : BitVec 32} {hw : HwRegs}
    (hsafe : d.engine.running = true → serviceCount descWriteback hw ≠ 0 → NoneFailed d)
    : Accounted thr (engineService p d descWriteback hw) := by
  have hregs := engineServiceStatus_regs p hw d descWriteback
  unfold engineService
  cases hrun : d.engine.running with
  | false =>
    rw [if_pos Bool.not_false]
    exact hacc.congr rfl rfl rfl (fun _ => rfl) rfl
  | true =>
    rw [if_neg (by simp)]
    dsimp only
    by_cases hzero : serviceCount descWriteback hw = 0
    . rw [if_pos hzero]
      exact hacc.regs hregs
    . rw [if_neg hzero]
      have hstatus := (Accounted.serviceLeads p hw thr).regs d _ hregs
        ⟨⟨hwf, hacc⟩, hsafe hrun hzero⟩
      exact (engineServiceCount_preserves (Accounted.serviceLeads p hw thr) _ _ hstatus).2

end Service

section Step

variable {p : ModuleParam} {s s' : Sys} {r : Nat} {th th' : Thread} {d' : Driver}

theorem Accounted.setThread (hacc : Accounted s.thr s.drv)
    (hused : d'.engine.descUsed = d'.liveDescs) (hnodup : d'.hist.live.Nodup)
    (hcredits : ∀ c ∈ d'.hist.credits, c.1 = c.2)
    (hviews : ∀ r', r' ≠ r → d'.view r' = s.drv.view r')
    (hothers : ∀ t, t.ofReq r = false → (t ∈ d'.hist.live ↔ t ∈ s.drv.hist.live))
    (hself : ∀ j, .tfer r j ∈ d'.hist.live ↔ th'.Live (d'.view r) j)
    : Accounted (Function.update s.thr r (some th')) d' where
  used := hused
  nodup := hnodup
  credits := hcredits
  live := by
    intro t
    cases t with
    | perf n =>
      rw [hothers _ rfl, hacc.live]
      simp
    | tfer r' j =>
      by_cases hr : r' = r
      . rw [hr, hself]
        constructor
        . exact fun h => ⟨r, j, th', rfl, Function.update_self _ _ _, h⟩
        . rintro ⟨r'', j', th'', heq, hth, hlive⟩
          simp only [XferPtr.tfer.injEq] at heq
          rcases heq with ⟨rfl, rfl⟩
          rw [Function.update_self, Option.some.injEq] at hth
          rw [hth]
          exact hlive
      . rw [hothers _ (by simp [XferPtr.ofReq, hr]), hacc.live]
        constructor
        . rintro ⟨r'', j', th'', heq, hth, hlive⟩
          simp only [XferPtr.tfer.injEq] at heq
          rcases heq with ⟨rfl, rfl⟩
          exact ⟨r', j, th'', rfl, by rw [Function.update_of_ne hr]; exact hth,
            by rw [hviews r' hr]; exact hlive⟩
        . rintro ⟨r'', j', th'', heq, hth, hlive⟩
          simp only [XferPtr.tfer.injEq] at heq
          rcases heq with ⟨rfl, rfl⟩
          rw [Function.update_of_ne hr] at hth
          rw [hviews r' hr] at hlive
          exact ⟨r', j, th'', rfl, hth, hlive⟩

theorem Accounted.live_iff (hacc : Accounted s.thr s.drv) (hth : s.thr r = some th) (j : Nat)
    : .tfer r j ∈ s.drv.hist.live ↔ th.Live (s.drv.view r) j := by
  rw [hacc.live]
  constructor
  . rintro ⟨r', j', th', heq, hth', hlive⟩
    simp only [XferPtr.tfer.injEq] at heq
    rcases heq with ⟨rfl, rfl⟩
    rw [hth, Option.some.injEq] at hth'
    rw [hth']
    exact hlive
  . exact fun h => ⟨r, j, th, rfl, hth, h⟩

theorem Accounted.setThread_of_eq (hacc : Accounted s.thr s.drv) (hth : s.thr r = some th)
    (hused : d'.engine.descUsed = s.drv.engine.descUsed) (hlive : d'.hist.live = s.drv.hist.live)
    (hcredits : ∀ c ∈ d'.hist.credits, c.1 = c.2)
    (hnum : ∀ t, (d'.xfer t).descNum = (s.drv.xfer t).descNum)
    (hviews : ∀ r', r' ≠ r → d'.view r' = s.drv.view r')
    (hself : ∀ j, th'.Live (d'.view r) j ↔ th.Live (s.drv.view r) j)
    : Accounted (Function.update s.thr r (some th')) d' := by
  refine hacc.setThread ?_ ?_ hcredits hviews ?_ ?_
  . rw [hused, liveDescs_congr hlive hnum, hacc.used]
  . exact hlive ▸ hacc.nodup
  . exact fun t _ => by rw [hlive]
  . intro j
    rw [hlive, hself]
    exact hacc.live_iff hth j

theorem liveDescs_submitInit {d : Driver} {t : XferPtr} (hmem : t ∉ d.hist.live) (cb : Option Nat)
    (dmaMapped : Bool) (n : Nat)
    : let m := (submitInit d r t cb dmaMapped n).1
      m.liveDescs = (m.xfer t).descNum + d.liveDescs ∧ m.hist.live = t :: d.hist.live := by
  intro m
  have hlive : m.hist.live = t :: d.hist.live := by
    have heq : m.hist.live = t :: d.hist.live.filter (fun u => u ≠ t) := rfl
    rw [heq, List.filter_eq_self.mpr]
    intro u hu
    rw [decide_eq_true_iff]
    rintro rfl
    exact hmem hu
  refine ⟨?_, hlive⟩
  unfold Driver.liveDescs
  rw [hlive, List.map_cons, List.sum_cons]
  congr 2
  apply List.map_congr_left
  intro u hu
  have hne : u ≠ t := by
    rintro rfl
    exact hmem hu
  rw [show m = _ from submitInit_eq d r t cb dmaMapped n]
  dsimp only
  rw [Function.update_of_ne hne]

theorem Accounted.init (hacc : Accounted s.thr s.drv) (hth : s.thr r = some th) {k n : Nat}
    (hpc : th.pc = .loop k n)
    : let m := submitInit s.drv r (th.tfer r k) (th.cb r) th.dmaMapped n
      Accounted (Function.update s.thr r (some { th with pc := .built k m.2 })) m.1 := by
  intro m
  rcases th with ⟨wait, dmaMapped, pc⟩
  dsimp only at hpc
  subst hpc
  have hlive := hacc.live_iff hth
  have hnew : Thread.tfer ⟨wait, dmaMapped, .loop k n⟩ r k ∉ s.drv.hist.live := by
    rw [Thread.tfer, hlive]
    cases wait with
    | true => exact id
    | false => exact Nat.lt_irrefl k
  rcases liveDescs_submitInit hnew (Thread.cb ⟨wait, dmaMapped, .loop k n⟩ r) dmaMapped n with
    ⟨hdescs, hlist⟩
  refine hacc.setThread ?_ ?_ hacc.credits ?_ ?_ ?_
  . rw [hdescs]
    have hnum := (submitInit_xfer s.drv r (Thread.tfer ⟨wait, dmaMapped, .loop k n⟩ r k)
      (Thread.cb ⟨wait, dmaMapped, .loop k n⟩ r) dmaMapped n).2.1
    rw [transferInit_xfer] at hnum
    have hused : m.1.engine.descUsed = s.drv.engine.descUsed
        + (transferDescMax s.drv.engine (s.drv.req r) : Int) := rfl
    rw [hused, hacc.used, hnum]
    dsimp only
    omega
  . exact hlist ▸ List.nodup_cons.mpr ⟨hnew, hacc.nodup⟩
  . exact fun r' hr => submitInit_view_of_ne s.drv r _ _ dmaMapped n hr
  . intro t ht
    rw [hlist, List.mem_cons]
    refine ⟨fun h => h.resolve_left ?_, Or.inr⟩
    rintro rfl
    simp [Thread.tfer, XferPtr.ofReq] at ht
  . intro j
    rw [hlist, List.mem_cons, hlive]
    cases wait with
    | true => simp [Thread.tfer, Thread.Live]
    | false =>
      simp only [Thread.tfer, Thread.Live, Bool.false_eq_true, ↓reduceIte, XferPtr.tfer.injEq,
        true_and]
      omega

theorem Accounted.queue (hacc : Accounted s.thr s.drv) (hth : s.thr r = some th) {k n : Nat}
    (hpc : th.pc = .checked k n) {hw : HwRegs}
    (hqueue : transferQueueLocked p s.drv (th.tfer r k) hw = .ok d')
    : Accounted (Function.update s.thr r
        (some { th with pc := if th.wait then .waiting n else .goOn false (k + 1) n })) d' := by
  rcases th with ⟨wait, dmaMapped, pc⟩
  dsimp only at hpc
  subst hpc
  have hxfer := transferQueueLocked_xfer hqueue
  have hlist := transferQueueLocked_list hqueue
  have heq := transferQueueLocked_eq hqueue
  have hnum : ∀ t, (d'.xfer t).descNum = (s.drv.xfer t).descNum := by
    intro t
    rw [hxfer]
    by_cases ht : t = Thread.tfer ⟨wait, dmaMapped, .checked k n⟩ r k
    . rw [ht, Function.update_self]
    . rw [Function.update_of_ne ht]
  refine hacc.setThread_of_eq hth ?_ ?_ ?_ hnum
    (fun r' hr => transferQueueLocked_view_of_ne hr hqueue) ?_
  . rw [heq]
    rfl
  . rw [heq]
  . rcases transferQueueLocked_cases hqueue with ⟨_, ⟨_, rfl⟩ | ⟨_, hstart⟩⟩
    . exact hacc.credits
    . exact credits_start hstart
        (hacc.used.trans (congrArg Nat.cast (enqueue_liveDescs s.drv _).symm)) hacc.credits
  . intro j
    cases wait with
    | true => exact Iff.rfl
    | false =>
      have hlinked : (d'.view r).linked k := by
        rw [Driver.view_linked, hlist]
        exact List.mem_append_right _ (List.mem_singleton.mpr rfl)
      dsimp only
      rw [if_neg Bool.false_ne_true]
      unfold Pc.goOn
      split
      . exact Nat.lt_succ_iff
      . exact ⟨fun h => Nat.lt_succ_iff.mp h.1, fun h => ⟨Nat.lt_succ_of_le h, hlinked⟩⟩

theorem submitWake_accounts (d : Driver) (t : XferPtr) (hw : HwRegs)
    : let m := submitWake p d t hw
      m.engine.descUsed = d.engine.descUsed ∧ m.hist.live = d.hist.live
        ∧ m.hist.credits = d.hist.credits ∧ ∀ u, (m.xfer u).descNum = (d.xfer u).descNum := by
  intro m
  rcases submitWake_cases p d t hw with ⟨status, heq⟩ | ⟨_, status, xfer, heq, hxfer⟩
  . rw [show m = _ from heq]
    exact ⟨rfl, rfl, rfl, fun _ => rfl⟩
  . have hnum : xfer.descNum = (d.xfer t).descNum := by
      rcases hxfer with rfl | ⟨_, rfl⟩ <;> rfl
    rw [show m = _ from heq]
    refine ⟨rfl, rfl, rfl, ?_⟩
    intro u
    show (Function.update d.xfer t xfer u).descNum = _
    by_cases hu : u = t
    . rw [hu, Function.update_self, hnum]
    . rw [Function.update_of_ne hu]

theorem Accounted.destroy (hacc : Accounted s.thr s.drv) {dmaMapped : Bool} {n : Nat}
    {failed : Bool} (hth : s.thr r = some ⟨true, dmaMapped, .woken n failed⟩)
    : Accounted (Function.update s.thr r
        (some ⟨true, dmaMapped, if failed then .leaving else .goOn true 0 n⟩))
        (submitDestroy s.drv (.tfer r 0)) := by
  have hmem : XferPtr.tfer r 0 ∈ s.drv.hist.live := (hacc.live_iff hth 0).mpr rfl
  have heq := submitDestroy_eq s.drv (.tfer r 0)
  have hlive : (submitDestroy s.drv (.tfer r 0)).hist.live
      = s.drv.hist.live.filter (fun u => u ≠ .tfer r 0) := by rw [heq]
  have hsum := liveDescs_destroy hacc.nodup hmem hlive (fun u => by rw [heq])
  refine hacc.setThread ?_ ?_ ?_ (fun r' _ => submitDestroy_view s.drv _ r') ?_ ?_
  . have hlow : (submitDestroy s.drv (.tfer r 0)).engine.descUsed
        = s.drv.engine.descUsed - (s.drv.xfer (.tfer r 0)).descNum := by rw [heq]
    rw [hlow, hacc.used]
    omega
  . exact hlive ▸ hacc.nodup.filter _
  . exact fun c hc => hacc.credits c (by rw [submitDestroy_eq] at hc; exact hc)
  . intro t ht
    refine (show _ ↔ _ from hlive ▸ List.mem_filter).trans ?_
    refine ⟨fun h => h.1, fun h => ⟨h, ?_⟩⟩
    rw [decide_eq_true_iff]
    rintro rfl
    simp [XferPtr.ofReq] at ht
  . intro j
    refine (show _ ↔ _ from hlive ▸ List.mem_filter).trans ?_
    rw [hacc.live_iff hth, decide_eq_true_iff]
    constructor
    . rintro ⟨rfl, hne⟩
      exact absurd rfl hne
    . intro h
      cases failed with
      | true => exact h.elim
      | false =>
        rw [if_neg Bool.false_ne_true] at h
        unfold Pc.goOn at h
        split at h <;> exact h.elim

theorem Accounted.exit (hacc : Accounted s.thr s.drv) {wait dmaMapped : Bool}
    (hth : s.thr r = some ⟨wait, dmaMapped, .leaving⟩)
    : Accounted (Function.update s.thr r (some ⟨wait, dmaMapped, .returned⟩))
        (submitExit s.drv r dmaMapped) := by
  have hdead : ∀ v j, ¬ Thread.Live v ⟨wait, dmaMapped, .leaving⟩ j := by
    cases wait <;> exact fun _ _ => id
  have hlive : (submitExit s.drv r dmaMapped).hist.live = s.drv.hist.live := by
    rw [submitExit_eq]
    dsimp only
    rw [List.filter_eq_self]
    intro t ht
    rw [XferPtr.ofReq_of_not_mem (fun j hj => hdead _ j ((hacc.live_iff hth j).mp hj)) ht]
    rfl
  refine hacc.setThread_of_eq hth ?_ hlive ?_ ?_ (fun r' _ => submitExit_view s.drv r _ r') ?_
  . rw [submitExit_eq]
  . intro c hc
    rw [submitExit_eq] at hc
    exact hacc.credits c hc
  . intro t
    rw [submitExit_eq]
  . intro j
    cases wait <;> exact Iff.rfl

theorem Accounted.thread (hacc : Accounted s.thr s.drv) (hwf : WellFormed s.thr s.drv)
    {op : ThreadOp} (hth : s.thr r = some th) (hsafe : BuildsNone s.drv th op)
    (h : s.stepThread p r th op = some s')
    : Accounted s'.thr s'.drv := by
  have hok := hwf.threads r th hth
  have hcases := Sys.stepThread_cases h
  rcases th with ⟨wait, dmaMapped, pc⟩
  cases op with
  | lock =>
    rcases hcases with ⟨rfl, rfl, _, rfl⟩
    refine hacc.setThread_of_eq hth rfl rfl hacc.credits (fun _ => rfl) (fun _ _ => rfl) ?_
    intro j
    unfold Pc.goOn
    split <;> exact Iff.rfl
  | init =>
    rcases hcases with ⟨k, n, rfl, rfl⟩
    exact hacc.init hth rfl
  | check =>
    rcases hcases with ⟨k, n, rfl, rfl⟩
    have hnum : (s.drv.xfer (Thread.tfer ⟨wait, dmaMapped, .built k n⟩ r k)).descNum ≠ 0 := by
      cases wait with
      | true => exact Nat.ne_of_gt hok.2.1.num
      | false => exact Nat.ne_of_gt hok.2.1.num
    rw [if_pos ((transferQueueCheck_ok_iff _ _).mpr ⟨hnum, hsafe⟩)]
    refine hacc.setThread_of_eq hth rfl rfl hacc.credits (fun _ => rfl) (fun _ _ => rfl) ?_
    intro j
    cases wait <;> exact Iff.rfl
  | queue hw =>
    rcases hcases with ⟨k, n, rfl, ⟨⟨err, hfail⟩, rfl⟩ | ⟨d', hqueue, rfl⟩⟩
    . have hreq : s.drv.engine.shutdown.request = false := hsafe
      rw [transferQueueLocked_error hfail] at hreq
      contradiction
    . exact hacc.queue hth rfl hqueue
  | wake hw =>
    rcases hcases with ⟨n, rfl, rfl⟩
    cases wait with
    | false => exact absurd hok id
    | true =>
      rcases submitWake_accounts (p := p) s.drv (.tfer r 0) hw with ⟨hused, hlive, hcredits, hnum⟩
      exact hacc.setThread_of_eq hth hused hlive (hcredits ▸ hacc.credits) hnum
        (fun r' hr => submitWake_view_of_ne hr 0 hw) (fun _ => Iff.rfl)
  | destroy =>
    rcases hcases with ⟨n, failed, rfl, rfl⟩
    cases wait with
    | false => exact absurd hok id
    | true => exact hacc.destroy hth
  | exit =>
    rcases hcases with ⟨rfl, rfl⟩
    exact hacc.exit hth

theorem Accounted.submit (hacc : Accounted s.thr s.drv) (hth : s.thr r = none)
    {alloc : Nat → Bool} {write dmaMapped : Bool} {epAddr : BitVec 64} {sgl : List Scatterlist}
    {res : Except Errno XdmaRequestCb}
    (hreq : submitRequest p alloc s.drv r write epAddr sgl dmaMapped = some (d', res))
    (hdead : ∀ v j, ¬ th'.Live v j)
    : Accounted (Function.update s.thr r (some th')) d' := by
  have heq := (submitRequest_eq hreq).1
  have hnone : ∀ j, .tfer r j ∉ s.drv.hist.live := by
    intro j hj
    rcases (hacc.live _).mp hj with ⟨r', j', th, hrj, hth', _⟩
    simp only [XferPtr.tfer.injEq] at hrj
    rw [← hrj.1, hth] at hth'
    contradiction
  have hsame : d'.engine.descUsed = s.drv.engine.descUsed ∧ d'.liveDescs = s.drv.liveDescs
      ∧ d'.hist.live = s.drv.hist.live ∧ d'.hist.credits = s.drv.hist.credits := by
    rw [heq]
    exact ⟨rfl, rfl, rfl, rfl⟩
  refine hacc.setThread ?_ ?_ ?_ (fun r' hr => submitRequest_view_of_ne hr hreq) ?_ ?_
  . rw [hsame.1, hsame.2.1, hacc.used]
  . exact hsame.2.2.1 ▸ hacc.nodup
  . exact hsame.2.2.2 ▸ hacc.credits
  . exact fun t _ => by rw [hsame.2.2.1]
  . intro j
    rw [hsame.2.2.1]
    exact iff_of_false (hnone j) (hdead _ j)

theorem Accounted.step (s : Sys) (e : Event) (s' : Sys)
    (hinv : WellFormed s.thr s.drv ∧ Accounted s.thr s.drv) (hsafe : KeepsAccount s e)
    (h : s.step p e = some s')
    : WellFormed s'.thr s'.drv ∧ Accounted s'.thr s'.drv := by
  refine ⟨Sys.step_wellFormed hinv.1 h, ?_⟩
  rcases hinv with ⟨hwf, hacc⟩
  cases e with
  | submit r wait dmaMapped write alloc epAddr sgl =>
    simp only [Sys.step] at h
    split at h
    . contradiction
    . next hth =>
      split at h
      . contradiction
      . next d err hreq =>
        rw [← Option.some.inj h]
        exact hacc.submit hth hreq (fun v j => by cases wait <;> exact id)
      . next d req hreq =>
        rw [← Option.some.inj h]
        refine hacc.submit hth hreq (fun v j hlive => ?_)
        cases wait with
        | true => exact hlive
        | false =>
          rw [if_neg Bool.false_ne_true] at hlive
          unfold Pc.goOn at hlive
          split at hlive
          . exact absurd hlive (Nat.not_lt_zero j)
          . exact absurd hlive.1 (Nat.not_lt_zero j)
  | thread r op =>
    simp only [Sys.step, Option.bind_eq_some_iff] at h
    rcases h with ⟨th, hth, h⟩
    exact hacc.thread hwf hth (hsafe th hth) h
  | service descWriteback hw =>
    rw [← Option.some.inj h]
    exact hacc.service hwf hsafe
  | setOffline =>
    rw [← Option.some.inj h]
    exact hacc.congr rfl rfl rfl (fun _ => rfl) rfl
  | offlineEngine =>
    rw [← Option.some.inj h]
    exact hacc.congr rfl rfl rfl (fun _ => rfl) rfl
  | onlineEngine =>
    rw [← Option.some.inj h]
    exact hacc.congr rfl rfl rfl (fun _ => rfl) rfl
  | clearOffline =>
    rw [← Option.some.inj h]
    exact hacc.congr rfl rfl rfl (fun _ => rfl) rfl

theorem Accounted.descUsedSound (hacc : Accounted s.thr s.drv)
    : DescUsedSound s where
  used := hacc.used
  credits := hacc.credits
  done := by
    intro hdone
    have hnone : s.drv.hist.live = [] := by
      rw [List.eq_nil_iff_forall_not_mem]
      intro t ht
      rcases (hacc.live t).mp ht with ⟨r, j, ⟨wait, dmaMapped, pc⟩, rfl, hth, hlive⟩
      rcases hdone r _ hth with hret | ⟨⟨k, hqueued⟩, hfinished⟩
      . dsimp only at hret
        subst hret
        cases wait <;> exact hlive
      . dsimp only at hqueued
        subst hqueued
        cases wait with
        | true => exact hlive
        | false => exact hfinished (k - 1) hlive.2
    rw [hacc.used, Driver.liveDescs, hnone]
    rfl

end Step

/--
In a run in which no submission is cut short and no request is completed in part, the count of used
descriptors is right in every state.
-/
theorem descUsedSound_of_keepsAccount (p : ModuleParam) (s : Sys) (hinit : s.Initial)
    (es : List Event)
    (hsafe : Transition.StepsHold (Sys.step p) (fun s e _ => KeepsAccount s e) s es)
    : Transition.StatesHold (Sys.step p) DescUsedSound s es := by
  have hacc : Accounted s.thr s.drv := by
    refine ⟨?_, ?_, ?_, ?_⟩
    . rw [hinit.descUsed, Driver.liveDescs, hinit.live]
      rfl
    . rw [hinit.live]
      exact List.nodup_nil
    . rw [hinit.credits]
      simp
    . intro t
      rw [hinit.live]
      simp [hinit.thr]
  exact Transition.statesHold_of_invariant (fun _ h => h.2.descUsedSound) Accounted.step
    ⟨hinit.wellFormed, hacc⟩ hsafe

/-- A nowait and a blocking request on a C2H streaming engine with credits, and one that times out. -/
theorem descUsedSound_of_keepsAccount_credits
    : Transition.StatesHold (Sys.step ⟨false, true, 4096⟩) DescUsedSound (Sys.init .fromDevice true)
        (submitFirst 0 false false ++ submitFirst 1 true false
          ++ [.service 0 (healthyRegs 1), .service 0 (healthyRegs 1)] ++ submitLast 1
          ++ submitFirst 2 true false ++ submitLast 2) :=
  descUsedSound_of_keepsAccount _ _ (Sys.init_initial .fromDevice true) _ (by decide)

/--
The device goes offline after a blocking submission built its transfer: the request is refused and
freed, and its descriptor is counted as used for good.
-/
theorem not_descUsedSound_offline
    : (Sys.init .fromDevice true).Initial
        ∧ ¬ Transition.StatesHold (Sys.step ⟨false, true, 4096⟩) DescUsedSound
          (Sys.init .fromDevice true)
          [.submit 0 true true false true 0 [⟨0x1000, 16⟩], .thread 0 .lock, .thread 0 .init,
            .setOffline, .thread 0 .check, .thread 0 .exit] := by
  refine ⟨Sys.init_initial .fromDevice true, ?_⟩
  intro h
  have hrun : (Transition.run (Sys.step ⟨false, true, 4096⟩) (Sys.init .fromDevice true)
      [.submit 0 true true false true 0 [⟨0x1000, 16⟩], .thread 0 .lock, .thread 0 .init,
        .setOffline, .thread 0 .check, .thread 0 .exit]).map
          (fun s => (s.drv.engine.descUsed, s.drv.liveDescs)) = some (1, 0) := by decide
  simp only [Option.map_eq_some_iff, Prod.mk.injEq] at hrun
  rcases hrun with ⟨s', hs', hused, hlive⟩
  have hsound := (h.of_run hs').used
  rw [hused, hlive] at hsound
  contradiction

end Xdma
