import Mathlib.Data.List.Pairwise
import ReferenceProjects.Lib.Run
import ReferenceProjects.Xdma.Impl.System
import ReferenceProjects.Xdma.Lemmas.Service
import ReferenceProjects.Xdma.Lemmas.Submit

/-!
This module contains what holds in every state that the submissions on one engine reach, however they
interleave: which transfers are linked, in which order, and where the submission of each is.
-/

namespace Xdma

/-- What a submission can see of its request: its transfers, which of them are linked, and itself. -/
@[ext]
structure View where
  xfer : Nat → XdmaTransfer
  linked : Nat → Prop
  req : XdmaRequestCb

def Driver.view (d : Driver) (r : Nat) : View where
  xfer := fun j => d.xfer (.tfer r j)
  linked := fun j => .tfer r j ∈ d.engine.transferList
  req := d.req r

@[simp]
theorem Driver.view_xfer (d : Driver) (r j : Nat)
    : (d.view r).xfer j = d.xfer (.tfer r j) := rfl

@[simp]
theorem Driver.view_linked (d : Driver) (r j : Nat)
    : (d.view r).linked j ↔ .tfer r j ∈ d.engine.transferList := Iff.rfl

@[simp]
theorem Driver.view_req (d : Driver) (r : Nat)
    : (d.view r).req = d.req r := rfl

/-- The number of descriptors of the first `k` transfers of a request. -/
def View.descs (v : View) (k : Nat) : Nat := ((List.range k).map (fun j => (v.xfer j).descNum)).sum

/--
A nowait submission queued `k` transfers, with `n` software descriptors left for more: the last one is
marked, and each is linked until it has its verdict.
-/
structure AsyncOk (v : View) (r k n : Nat) : Prop where
  descs : v.descs k + n = v.req.swDescCnt
  num : ∀ j < k, 0 < (v.xfer j).descNum
  cb : ∀ j < k, (v.xfer j).cb = some r
  last : ∀ j < k, (v.xfer j).lastInRequest = true ↔ j + 1 = k ∧ n = 0
  linked : ∀ j < k, v.linked j ∨ (v.xfer j).Settled
  bound : ∀ j, v.linked j → j < k

/-- Transfer `j` is built and `n` software descriptors are left after it. -/
structure BuiltOk (v : View) (cb : Option Nat) (j n : Nat) : Prop where
  num : 0 < (v.xfer j).descNum
  cb : (v.xfer j).cb = cb
  last : (v.xfer j).lastInRequest = true ↔ n = 0

/-- A blocking submission links its one transfer at most, which has no callback. -/
def SyncOk (v : View) : Prop := ∀ j, v.linked j → j = 0 ∧ (v.xfer 0).cb = none

/-- The count of what a submission has left is that of its request, unless it gave up on the rest. -/
def LeftOk (v : View) (n : Nat) : Prop := n ≠ 0 → n = v.req.rest.length

/-- What holds of a submission at each place of its program. -/
def Thread.Ok (v : View) (r : Nat) (th : Thread) : Prop :=
  match th.wait, th.pc with
  | true, .ready => (∀ j, ¬ v.linked j) ∧ v.req.swDescIdx = 0
  | true, .loop _ n => (∀ j, ¬ v.linked j) ∧ n ≠ 0 ∧ LeftOk v n
  | true, .built _ n | true, .checked _ n =>
    (∀ j, ¬ v.linked j) ∧ BuiltOk v none 0 n ∧ LeftOk v n
  | true, .waiting n => SyncOk v ∧ LeftOk v n
  | true, .woken n failed => SyncOk v ∧ LeftOk v n ∧ (failed = false → ∀ j, ¬ v.linked j)
  | true, .leaving | true, .returned => SyncOk v
  | true, .queued _ => False
  | false, .loop k n => AsyncOk v r k n ∧ n ≠ 0 ∧ LeftOk v n
  | false, .built k n | false, .checked k n =>
    AsyncOk v r k (n + (v.xfer k).descNum) ∧ BuiltOk v (some r) k n ∧ LeftOk v n
  | false, .queued k => AsyncOk v r k 0
  | false, .leaving | false, .returned =>
    ∀ j, v.linked j → (v.xfer j).lastInRequest = false
  | false, .ready | false, .waiting _ | false, .woken _ _ => False

/-- Among the transfers of one request, the earlier one. -/
def XferPtr.Before (t u : XferPtr) : Prop := ∀ r i j, t = .tfer r i → u = .tfer r j → i < j

/-- What every reachable state keeps. -/
structure WellFormed (thr : Nat → Option Thread) (d : Driver) : Prop where
  ring : d.engine.descIdx < 2048
  owned : ∀ t ∈ d.engine.transferList, ∃ r j th, t = .tfer r j ∧ thr r = some th
  sorted : d.engine.transferList.Pairwise XferPtr.Before
  pending : ∀ t ∈ d.engine.transferList, ¬ (d.xfer t).Settled
  threads : ∀ r th, thr r = some th → th.Ok (d.view r) r

/--
The steps that do not belong to a submission leave its transfers alone but for their verdicts, and
unlink those that have one.
-/
structure View.Serviced (v v' : View) : Prop where
  req : v'.req = v.req
  descNum : ∀ j, (v'.xfer j).descNum = (v.xfer j).descNum
  cb : ∀ j, (v'.xfer j).cb = (v.xfer j).cb
  last : ∀ j, (v'.xfer j).lastInRequest = (v.xfer j).lastInRequest
  settled : ∀ j, (v.xfer j).Settled → (v'.xfer j).Settled
  linked : ∀ j, v'.linked j → v.linked j
  unlinked : ∀ j, v.linked j → v'.linked j ∨ (v'.xfer j).Settled

theorem View.Serviced.refl (v : View) : v.Serviced v where
  req := rfl
  descNum := fun _ => rfl
  cb := fun _ => rfl
  last := fun _ => rfl
  settled := fun _ h => h
  linked := fun _ h => h
  unlinked := fun _ h => Or.inl h

theorem View.Serviced.trans {v v' v'' : View} (h : v.Serviced v') (h' : v'.Serviced v'')
    : v.Serviced v'' where
  req := h'.req.trans h.req
  descNum := fun j => (h'.descNum j).trans (h.descNum j)
  cb := fun j => (h'.cb j).trans (h.cb j)
  last := fun j => (h'.last j).trans (h.last j)
  settled := fun j hj => h'.settled j (h.settled j hj)
  linked := fun j hj => h.linked j (h'.linked j hj)
  unlinked := by
    intro j hj
    cases h.unlinked j hj with
    | inl hlinked => exact h'.unlinked j hlinked
    | inr hsettled => exact Or.inr (h'.settled j hsettled)

theorem View.descs_congr {v v' : View} {k : Nat}
    (hnum : ∀ j < k, (v'.xfer j).descNum = (v.xfer j).descNum)
    : v'.descs k = v.descs k := by
  unfold View.descs
  congr 1
  apply List.map_congr_left
  intro j hj
  exact hnum j (List.mem_range.mp hj)

theorem View.Serviced.descs {v v' : View} (h : v.Serviced v') (k : Nat)
    : v'.descs k = v.descs k :=
  View.descs_congr (fun j _ => h.descNum j)

theorem AsyncOk.serviced {v v' : View} (h : v.Serviced v') {r k n : Nat} (hok : AsyncOk v r k n)
    : AsyncOk v' r k n where
  descs := by
    rw [h.descs, h.req]
    exact hok.descs
  num := by
    intro j hj
    rw [h.descNum]
    exact hok.num j hj
  cb := by
    intro j hj
    rw [h.cb]
    exact hok.cb j hj
  last := by
    intro j hj
    rw [h.last]
    exact hok.last j hj
  linked := by
    intro j hj
    cases hok.linked j hj with
    | inl hlinked => exact h.unlinked j hlinked
    | inr hsettled => exact Or.inr (h.settled j hsettled)
  bound := fun j hj => hok.bound j (h.linked j hj)

theorem BuiltOk.serviced {v v' : View} (h : v.Serviced v') {cb : Option Nat} {j n : Nat}
    (hok : BuiltOk v cb j n)
    : BuiltOk v' cb j n where
  num := by
    rw [h.descNum]
    exact hok.num
  cb := by
    rw [h.cb]
    exact hok.cb
  last := by
    rw [h.last]
    exact hok.last

theorem SyncOk.serviced {v v' : View} (h : v.Serviced v') (hok : SyncOk v)
    : SyncOk v' := by
  intro j hj
  rw [h.cb]
  exact hok j (h.linked j hj)

theorem LeftOk.serviced {v v' : View} (h : v.Serviced v') {n : Nat} (hok : LeftOk v n)
    : LeftOk v' n := by
  unfold LeftOk
  rw [h.req]
  exact hok

theorem Thread.Ok.serviced {v v' : View} (h : v.Serviced v') {r : Nat} {th : Thread}
    (hok : th.Ok v r)
    : th.Ok v' r := by
  have hnone : (∀ j, ¬ v.linked j) → ∀ j, ¬ v'.linked j := fun hn j hj => hn j (h.linked j hj)
  rcases th with ⟨wait, dmaMapped, pc⟩
  cases wait <;> cases pc <;> simp only [Thread.Ok] at hok ⊢
  case true.ready => exact ⟨hnone hok.1, by rw [h.req]; exact hok.2⟩
  case true.loop => exact ⟨hnone hok.1, hok.2.1, hok.2.2.serviced h⟩
  case true.built => exact ⟨hnone hok.1, hok.2.1.serviced h, hok.2.2.serviced h⟩
  case true.checked => exact ⟨hnone hok.1, hok.2.1.serviced h, hok.2.2.serviced h⟩
  case true.waiting => exact ⟨hok.1.serviced h, hok.2.serviced h⟩
  case true.woken =>
    exact ⟨hok.1.serviced h, hok.2.1.serviced h, fun hf => hnone (hok.2.2 hf)⟩
  case true.leaving => exact hok.serviced h
  case true.returned => exact hok.serviced h
  case false.loop => exact ⟨hok.1.serviced h, hok.2.1, hok.2.2.serviced h⟩
  case false.built k n =>
    rw [h.descNum]
    exact ⟨hok.1.serviced h, hok.2.1.serviced h, hok.2.2.serviced h⟩
  case false.checked k n =>
    rw [h.descNum]
    exact ⟨hok.1.serviced h, hok.2.1.serviced h, hok.2.2.serviced h⟩
  case false.queued => exact hok.serviced h
  case false.leaving =>
    intro j hj
    rw [h.last]
    exact hok j (h.linked j hj)
  case false.returned =>
    intro j hj
    rw [h.last]
    exact hok j (h.linked j hj)

section Completion

variable (p : ModuleParam)

theorem View.descs_succ (v : View) (k : Nat)
    : v.descs (k + 1) = v.descs k + (v.xfer k).descNum := by
  simp [View.descs, List.range_succ]

theorem View.descs_mono (v : View) {i k : Nat} (h : i ≤ k)
    : v.descs i ≤ v.descs k := by
  induction k with
  | zero =>
    obtain rfl : i = 0 := by omega
    exact Nat.le_refl _
  | succ k ih =>
    cases Nat.eq_or_lt_of_le h with
    | inl heq => rw [heq]
    | inr hlt =>
      rw [View.descs_succ]
      exact Nat.le_trans (ih (Nat.le_of_lt_succ hlt)) (Nat.le_add_right _ _)

/-- The completion of a request all of whose transfers have their verdict: nothing is aborted. -/
structure CompletionQuiet (d d' : Driver) : Prop where
  eq : d' = { d with
    engine := { d.engine with
      desc := d'.engine.desc
      descUsed := d'.engine.descUsed
    }
    sgt := d'.sgt
    hist := { d.hist with live := d'.hist.live }
  }

theorem CompletionQuiet.view {d d' : Driver} (h : CompletionQuiet d d') (r : Nat)
    : d'.view r = d.view r := by
  rw [h.eq]
  rfl

theorem completionSwitch_settled (s : Driver) (t : XferPtr) (hw : HwRegs)
    (hsettled : (s.xfer t).Settled)
    : (completionSwitch p s t hw).1 = s := by
  unfold completionSwitch
  dsimp only
  cases hsettled with
  | inl h =>
    rw [h]
    dsimp only
    split <;> rfl
  | inr h => rw [h]

theorem transferDestroy_quiet (s : Driver) (t : XferPtr) (used : Int)
    : CompletionQuiet s { transferDestroy s t with engine.descUsed := used } := by
  rw [transferDestroy_eq]
  exact ⟨rfl⟩

theorem completionLoop_quiet (r k : Nat) (hw : HwRegs) (fuel i nents : Nat) (s : Driver)
    (done : Nat) (hsettled : ∀ j < k, ((s.view r).xfer j).Settled)
    (hnum : ∀ j < k, 0 < ((s.view r).xfer j).descNum) (hi : i ≤ k)
    (hnents : nents + (s.view r).descs i = (s.view r).descs k)
    : CompletionQuiet s (completionLoop p r hw fuel i nents s done).1 := by
  induction fuel generalizing i nents s done with
  | zero => exact ⟨rfl⟩
  | succ fuel ih =>
    unfold completionLoop
    split
    . exact ⟨rfl⟩
    . next hne =>
      have hlt : i < k := by
        apply Nat.lt_of_le_of_ne hi
        intro heq
        rw [heq] at hnents
        omega
      have hstep := View.descs_succ (s.view r) i
      have hmono := View.descs_mono (s.view r) (show i + 1 ≤ k from hlt)
      have hswitch := completionSwitch_settled p s (.tfer r i) hw (hsettled i hlt)
      dsimp only
      rw [hswitch]
      have hquiet := transferDestroy_quiet s (.tfer r i)
        ((transferDestroy s (.tfer r i)).engine.descUsed
          - ((transferDestroy s (.tfer r i)).xfer (.tfer r i)).descNum)
      have hview := hquiet.view r
      split
      . have hrest := ih (i + 1) (nents - (s.xfer (.tfer r i)).descNum) _
          (done + (completionSwitch p s (.tfer r i) hw).2.1) (by rw [hview]; exact hsettled)
          (by rw [hview]; exact hnum) hlt
          (by rw [hview]; rw [Driver.view_xfer] at hstep; omega)
        exact ⟨by rw [hrest.eq, hquiet.eq]⟩
      . exact hquiet

theorem xdmaXferCompletion_quiet (s : Driver) (r k : Nat) (hw : HwRegs)
    (hok : AsyncOk (s.view r) r k 0) (hsettled : ∀ j < k, ((s.view r).xfer j).Settled)
    : ∃ m, CompletionQuiet s m ∧ (xdmaXferCompletion p s r hw).1
        = { m with hist.freed := (r, s.engine.transferList) :: s.hist.freed } := by
  have hloop := completionLoop_quiet p r k hw (s.req r).swDescCnt 0 (s.req r).swDescCnt s 0
    hsettled hok.num (Nat.zero_le k) (by
      have := hok.descs
      simp only [View.descs, Driver.view, List.range_zero, List.map_nil, List.sum_nil] at this ⊢
      omega)
  unfold xdmaXferCompletion
  dsimp only
  generalize completionLoop p r hw (s.req r).swDescCnt 0 (s.req r).swDescCnt s 0 = m at hloop
  refine ⟨{ m.1.unmapSg r with hist.live := m.1.hist.live.filter (fun u => !u.ofReq r) }, ?_, ?_⟩
  . rw [Driver.unmapSg_eq]
    exact ⟨by rw [hloop.eq]⟩
  . unfold xdmaRequestFree
    rw [Driver.unmapSg_eq, hloop.eq]

end Completion

section Service

variable {p : ModuleParam} {thr : Nat → Option Thread} {d d' : Driver}

theorem WellFormed.serviced (hwf : WellFormed thr d)
    (hidx : d'.engine.descIdx = d.engine.descIdx)
    (hviews : ∀ r, (d.view r).Serviced (d'.view r))
    (hlist : d'.engine.transferList.Sublist d.engine.transferList)
    (hpending : ∀ t ∈ d'.engine.transferList, ¬ (d'.xfer t).Settled)
    : WellFormed thr d' where
  ring := by
    rw [hidx]
    exact hwf.ring
  owned := fun t ht => hwf.owned t (hlist.subset ht)
  sorted := hwf.sorted.sublist hlist
  pending := hpending
  threads := fun r th hth => (hwf.threads r th hth).serviced (hviews r)

theorem Driver.view_congr {r : Nat} (hxfer : ∀ j, d'.xfer (.tfer r j) = d.xfer (.tfer r j))
    (hlinked : ∀ j, .tfer r j ∈ d'.engine.transferList ↔ .tfer r j ∈ d.engine.transferList)
    (hreq : d'.req r = d.req r)
    : d'.view r = d.view r := by
  unfold Driver.view
  rw [hreq]
  simp only [hxfer, hlinked]

theorem WellFormed.of_eq (hwf : WellFormed thr d)
    (hidx : d'.engine.descIdx = d.engine.descIdx) (hxfer : d'.xfer = d.xfer) (hreq : d'.req = d.req)
    (hlist : d'.engine.transferList = d.engine.transferList)
    : WellFormed thr d' := by
  refine hwf.serviced hidx ?_ (by rw [hlist]) ?_
  . intro r
    rw [Driver.view_congr (fun j => by rw [hxfer]) (fun j => by rw [hlist]) (by rw [hreq])]
    exact View.Serviced.refl _
  . rw [hlist, hxfer]
    exact hwf.pending

theorem WellFormed.queued_of_last (hwf : WellFormed thr d) {r j : Nat}
    (hmem : XferPtr.tfer r j ∈ d.engine.transferList) {r' : Nat}
    (hcb : (d.xfer (.tfer r j)).cb = some r')
    (hlast : (d.xfer (.tfer r j)).lastInRequest = true)
    : r' = r ∧ (∃ dmaMapped, thr r = some ⟨false, dmaMapped, .queued (j + 1)⟩)
        ∧ AsyncOk (d.view r) r (j + 1) 0 := by
  rcases hwf.owned _ hmem with ⟨r'', j'', ⟨wait, dmaMapped, pc⟩, heq, hth⟩
  simp only [XferPtr.tfer.injEq] at heq
  obtain ⟨rfl, rfl⟩ := heq
  have hok := hwf.threads r _ hth
  have hsync : SyncOk (d.view r) → r' = r
      ∧ (∃ dmaMapped, thr r = some ⟨false, dmaMapped, .queued (j + 1)⟩)
      ∧ AsyncOk (d.view r) r (j + 1) 0 := by
    intro h
    rcases h j hmem with ⟨rfl, hnone⟩
    simp only [Driver.view_xfer] at hnone
    rw [hcb] at hnone
    contradiction
  have hasync : ∀ k n, AsyncOk (d.view r) r k n → j + 1 = k ∧ n = 0 ∧ r' = r := by
    intro k n h
    have hj := h.bound j hmem
    have hown := h.cb j hj
    simp only [Driver.view_xfer, hcb, Option.some.injEq] at hown
    have hpos := (h.last j hj).mp hlast
    exact ⟨hpos.1, hpos.2, hown⟩
  cases wait <;> cases pc <;> simp only [Thread.Ok] at hok
  case true.ready => exact absurd hmem (hok.1 j)
  case true.loop => exact absurd hmem (hok.1 j)
  case true.built => exact absurd hmem (hok.1 j)
  case true.checked => exact absurd hmem (hok.1 j)
  case true.waiting => exact hsync hok.1
  case true.woken => exact hsync hok.1
  case true.leaving => exact hsync hok
  case true.returned => exact hsync hok
  case false.loop => exact absurd (hasync _ _ hok.1).2.1 hok.2.1
  case false.built =>
    have := (hasync _ _ hok.1).2.1
    have := hok.2.1.num
    omega
  case false.checked =>
    have := (hasync _ _ hok.1).2.1
    have := hok.2.1.num
    omega
  case false.queued k =>
    rcases hasync _ _ hok with ⟨rfl, _, hr⟩
    exact ⟨hr, ⟨dmaMapped, hth⟩, hok⟩
  case false.leaving =>
    have := hok j hmem
    simp only [Driver.view_xfer, hlast, Bool.true_eq_false] at this
  case false.returned =>
    have := hok j hmem
    simp only [Driver.view_xfer, hlast, Bool.true_eq_false] at this

theorem WellFormed.not_mem_rest (hwf : WellFormed thr d) {r j : Nat} {rest : List XferPtr}
    (hlist : d.engine.transferList = .tfer r j :: rest) {i : Nat} (hi : i ≤ j)
    : XferPtr.tfer r i ∉ rest := by
  intro hmem
  have hsorted := hwf.sorted
  rw [hlist, List.pairwise_cons] at hsorted
  have := hsorted.1 _ hmem r j i rfl rfl
  omega

theorem Driver.listDel_serviced {t : XferPtr} {rest : List XferPtr}
    (hlist : d.engine.transferList = t :: rest) {xfer' : XdmaTransfer}
    (hverdict : Verdict (d.xfer t) xfer') (r : Nat)
    : (d.view r).Serviced ((d.setXfer t xfer').listDel.view r) := by
  have hrest : (d.setXfer t xfer').listDel.engine.transferList = rest := by
    simp only [Driver.listDel, Driver.setXfer, hlist, List.tail_cons]
  have hself : (d.setXfer t xfer').listDel.xfer t = xfer' := by
    simp only [Driver.listDel, Driver.setXfer, Function.update_self]
  have hshape : ∀ i, ((d.setXfer t xfer').listDel.xfer (.tfer r i)).descNum
        = (d.xfer (.tfer r i)).descNum
      ∧ ((d.setXfer t xfer').listDel.xfer (.tfer r i)).cb = (d.xfer (.tfer r i)).cb
      ∧ ((d.setXfer t xfer').listDel.xfer (.tfer r i)).lastInRequest
        = (d.xfer (.tfer r i)).lastInRequest
      ∧ ((d.xfer (.tfer r i)).Settled
        → ((d.setXfer t xfer').listDel.xfer (.tfer r i)).Settled) := by
    intro i
    by_cases hi : XferPtr.tfer r i = t
    . rw [hi, hself, hverdict.eq]
      exact ⟨rfl, rfl, rfl, fun _ => hverdict.eq ▸ hverdict.settled⟩
    . have hxfer : (d.setXfer t xfer').listDel.xfer (.tfer r i) = d.xfer (.tfer r i) := by
        simp only [Driver.listDel, Driver.setXfer, Function.update_of_ne hi]
      rw [hxfer]
      exact ⟨rfl, rfl, rfl, id⟩
  refine ⟨rfl, fun i => (hshape i).1, fun i => (hshape i).2.1, fun i => (hshape i).2.2.1,
    fun i => (hshape i).2.2.2, ?_, ?_⟩
  . intro i hi
    rw [Driver.view_linked, hrest] at hi
    rw [Driver.view_linked, hlist]
    exact List.mem_cons_of_mem _ hi
  . intro i hi
    rw [Driver.view_linked, hlist, List.mem_cons] at hi
    rw [Driver.view_linked, hrest, Driver.view_xfer]
    cases hi with
    | inl hhead =>
      rw [hhead, hself]
      exact Or.inr hverdict.settled
    | inr hmem => exact Or.inl hmem

theorem WellFormed.listDel (hwf : WellFormed thr d) {t : XferPtr} {rest : List XferPtr}
    (hlist : d.engine.transferList = t :: rest) {xfer' : XdmaTransfer}
    (hverdict : Verdict (d.xfer t) xfer')
    : WellFormed thr (d.setXfer t xfer').listDel := by
  have hrest : (d.setXfer t xfer').listDel.engine.transferList = rest := by
    simp only [Driver.listDel, Driver.setXfer, hlist, List.tail_cons]
  refine hwf.serviced rfl (Driver.listDel_serviced hlist hverdict) ?_ ?_
  . rw [hrest, hlist]
    exact List.sublist_cons_self _ _
  . intro u hu
    rw [hrest] at hu
    have hne : u ≠ t := by
      rintro rfl
      rcases hwf.owned u (by rw [hlist]; exact List.mem_cons_self) with ⟨r, j, th, rfl, _⟩
      exact hwf.not_mem_rest hlist (Nat.le_refl j) hu
    have hxfer : (d.setXfer t xfer').listDel.xfer u = d.xfer u := by
      simp only [Driver.listDel, Driver.setXfer, Function.update_of_ne hne]
    rw [hxfer]
    exact hwf.pending u (by rw [hlist]; exact List.mem_cons_of_mem _ hu)

/--
The completion of a transfer that was unlinked calls back only for the last transfer of a request
that is queued as a whole and has all its verdicts.
-/
theorem WellFormed.completion_cases (hwf : WellFormed thr d) {t : XferPtr} {rest : List XferPtr}
    (hlist : d.engine.transferList = t :: rest) {xfer' : XdmaTransfer}
    (hverdict : Verdict (d.xfer t) xfer') (hw : HwRegs)
    : let d' := (d.setXfer t xfer').listDel
      let s := { d' with hist.wakeups := t :: d'.hist.wakeups }
      engineTransferCompletion p d' t hw = s
        ∧ (∀ r, (d.xfer t).cb = some r → (d.xfer t).lastInRequest = false)
      ∨ ∃ r j, t = .tfer r j
        ∧ (d.xfer t).lastInRequest = true
        ∧ (∃ dmaMapped, thr r = some ⟨false, dmaMapped, .queued (j + 1)⟩)
        ∧ AsyncOk (d'.view r) r (j + 1) 0
        ∧ (∀ i < j + 1, ((d'.view r).xfer i).Settled)
        ∧ engineTransferCompletion p d' t hw = (xdmaXferCompletion p s r hw).1 := by
  rcases hwf.owned t (by rw [hlist]; exact List.mem_cons_self) with ⟨r, j, th, rfl, hth⟩
  intro d' s
  have hself : d'.xfer (.tfer r j) = xfer' := by
    simp only [d', Driver.listDel, Driver.setXfer, Function.update_self]
  have hmem : XferPtr.tfer r j ∈ d.engine.transferList := by
    rw [hlist]
    exact List.mem_cons_self
  have hcb : (d'.xfer (.tfer r j)).cb = (d.xfer (.tfer r j)).cb := by
    rw [hself, hverdict.eq]
  have hlast : (d'.xfer (.tfer r j)).lastInRequest = (d.xfer (.tfer r j)).lastInRequest := by
    rw [hself, hverdict.eq]
  cases hcallback : (d.xfer (.tfer r j)).cb with
  | none =>
    rw [hcallback] at hcb
    exact Or.inl ⟨engineTransferCompletion_of_blocking p hw hcb, by simp⟩
  | some r' =>
    rw [hcallback] at hcb
    cases hlastin : (d.xfer (.tfer r j)).lastInRequest with
    | false =>
      rw [hlastin] at hlast
      exact Or.inl ⟨engineTransferCompletion_notLast p hw hlast, by simp⟩
    | true =>
      rw [hlastin] at hlast
      rcases hwf.queued_of_last hmem hcallback hlastin with ⟨rfl, ⟨dmaMapped, hth'⟩, _⟩
      have hok : AsyncOk (d'.view r') r' (j + 1) 0 :=
        (hwf.listDel hlist hverdict).threads r' _ hth'
      refine Or.inr ⟨r', j, rfl, rfl, ⟨dmaMapped, hth'⟩, hok, ?_,
        engineTransferCompletion_last p hw hcb hlast⟩
      intro i hi
      refine (hok.linked i hi).resolve_left ?_
      have hrest : d'.engine.transferList = rest := by
        simp only [d', Driver.listDel, Driver.setXfer, hlist, List.tail_cons]
      rw [Driver.view_linked, hrest]
      exact hwf.not_mem_rest hlist (by omega)

/--
Completing a transfer keeps the state well-formed and touches neither the queue nor the engine
further. A request that is freed by it has no transfer in the queue.
-/
theorem WellFormed.complete (hwf : WellFormed thr d) {t : XferPtr} {rest : List XferPtr}
    (hlist : d.engine.transferList = t :: rest) {xfer' : XdmaTransfer}
    (hverdict : Verdict (d.xfer t) xfer') (hw : HwRegs)
    : let d' := (d.setXfer t xfer').listDel
      ∃ m freed, CompletionQuiet { d' with hist.wakeups := t :: d'.hist.wakeups } m
        ∧ engineTransferCompletion p d' t hw = { m with hist.freed := freed }
        ∧ (freed = d.hist.freed
          ∨ ∃ r, freed = (r, rest) :: d.hist.freed ∧ ∀ j, XferPtr.tfer r j ∉ rest) := by
  intro d'
  rcases hwf.completion_cases (p := p) hlist hverdict hw with
    ⟨heq, _⟩ | ⟨r, j, rfl, _, _, hok, hsettled, heq⟩
  . exact ⟨{ d' with hist.wakeups := t :: d'.hist.wakeups }, d.hist.freed, ⟨rfl⟩, heq, Or.inl rfl⟩
  . have hrest : d'.engine.transferList = rest := by
      simp only [d', Driver.listDel, Driver.setXfer, hlist, List.tail_cons]
    rcases xdmaXferCompletion_quiet p { d' with hist.wakeups := .tfer r j :: d'.hist.wakeups } r
      (j + 1) hw hok hsettled with ⟨m, hquiet, hfree⟩
    refine ⟨m, (r, rest) :: d.hist.freed, hquiet, ?_, Or.inr ⟨r, rfl, ?_⟩⟩
    . rw [heq, hfree]
      dsimp only
      rw [hrest]
      rfl
    . intro i hi
      have hlt : i < j + 1 := hok.bound i (by rw [Driver.view_linked, hrest]; exact hi)
      exact hwf.not_mem_rest hlist (by omega) hi

theorem WellFormed.complete_eq (hwf : WellFormed thr d) {t : XferPtr} {rest : List XferPtr}
    (hlist : d.engine.transferList = t :: rest) {xfer' : XdmaTransfer}
    (hverdict : Verdict (d.xfer t) xfer') (hw : HwRegs)
    : let d' := engineTransferCompletion p (d.setXfer t xfer').listDel t hw
      WellFormed thr d' ∧ d' = { d with
        engine := { d.engine with
          transferList := rest
          desc := d'.engine.desc
          descUsed := d'.engine.descUsed
        }
        xfer := Function.update d.xfer t xfer'
        sgt := d'.sgt
        hist := d'.hist
      } := by
  intro d'
  rcases hwf.complete (p := p) hlist hverdict hw with ⟨m, freed, hquiet, heq, _⟩
  have hd : d' = { m with hist.freed := freed } := heq
  rw [hd]
  refine ⟨?_, ?_⟩
  . refine (hwf.listDel hlist hverdict).of_eq ?_ ?_ ?_ ?_ <;> rw [hquiet.eq]
  . rw [hquiet.eq]
    simp only [Driver.listDel, Driver.setXfer, hlist, List.tail_cons]

theorem Driver.mark_serviced (t : XferPtr) (flags descCmpl : BitVec 32) (r : Nat)
    : (d.view r).Serviced
        ((d.setXfer t { d.xfer t with flags := flags, descCmpl := descCmpl }).view r) := by
  have hxfer : ∀ j, ((d.setXfer t { d.xfer t with flags := flags, descCmpl := descCmpl }).view r).xfer
        j = { (d.view r).xfer j with
          flags := (((d.setXfer t
            { d.xfer t with flags := flags, descCmpl := descCmpl }).view r).xfer j).flags
          descCmpl := (((d.setXfer t
            { d.xfer t with flags := flags, descCmpl := descCmpl }).view r).xfer j).descCmpl } := by
    intro j
    simp only [Driver.view_xfer, Driver.setXfer]
    by_cases hj : XferPtr.tfer r j = t
    . rw [hj, Function.update_self]
    . rw [Function.update_of_ne hj]
  refine ⟨rfl, ?_, ?_, ?_, ?_, fun _ h => h, fun _ h => Or.inl h⟩
  . intro j
    rw [hxfer]
  . intro j
    rw [hxfer]
  . intro j
    rw [hxfer]
  . intro j hj
    rw [hxfer]
    exact hj

theorem WellFormed.mark (hwf : WellFormed thr d) (t : XferPtr) (flags descCmpl : BitVec 32)
    : WellFormed thr (d.setXfer t { d.xfer t with flags := flags, descCmpl := descCmpl }) := by
  refine hwf.serviced rfl (Driver.mark_serviced t flags descCmpl) (List.Sublist.refl _) ?_
  intro u hu hsettled
  apply hwf.pending u hu
  simp only [Driver.setXfer] at hsettled
  by_cases hself : u = t
  . rw [hself, Function.update_self] at hsettled
    rw [hself]
    exact hsettled
  . rw [Function.update_of_ne hself] at hsettled
    exact hsettled

/--
The servicing of the engine keeps the state well-formed, and to every submission its transfers are
serviced and nothing else.
-/
theorem WellFormed.serviceLeads (p : ModuleParam) (hw : HwRegs) (thr : Nat → Option Thread)
    (d : Driver)
    : let P := fun d' => WellFormed thr d' ∧ ∀ r, (d.view r).Serviced (d'.view r)
      ServiceLeads p hw P P := by
  apply ServiceLeads.of_keeps
  . intro s s' hregs h
    refine ⟨?_, ?_⟩
    . refine h.1.of_eq ?_ ?_ ?_ ?_ <;> rw [hregs.eq]
    . rw [hregs.eq]
      exact h.2
  . intro s s' hstart h
    rcases engineStart_eq hstart with ⟨_, t, rest, _, heq⟩
    refine ⟨?_, ?_⟩
    . refine h.1.of_eq ?_ ?_ ?_ ?_ <;> rw [heq]
    . rw [heq]
      exact h.2
  . intro s t rest flags descCmpl hlist h
    exact ⟨h.1.mark t flags descCmpl, fun r => (h.2 r).trans (Driver.mark_serviced t flags descCmpl r)⟩
  . intro s t rest xfer' hlist hverdict h
    rcases h.1.complete_eq (p := p) hlist hverdict hw with ⟨hwf, heq⟩
    refine ⟨hwf, fun r => ?_⟩
    have hview : (engineTransferCompletion p (s.setXfer t xfer').listDel t hw).view r
        = (s.setXfer t xfer').listDel.view r := by
      rw [heq]
      simp only [Driver.view, Driver.listDel, Driver.setXfer, hlist, List.tail_cons]
    rw [hview]
    exact (h.2 r).trans (Driver.listDel_serviced hlist hverdict r)

theorem WellFormed.service (hwf : WellFormed thr d) (p : ModuleParam) (descWriteback : BitVec 32)
    (hw : HwRegs)
    : WellFormed thr (engineService p d descWriteback hw)
        ∧ ∀ r, (d.view r).Serviced ((engineService p d descWriteback hw).view r) :=
  engineService_preserves (WellFormed.serviceLeads p hw thr d) d descWriteback
    ⟨hwf, fun _ => View.Serviced.refl _⟩

theorem WellFormed.service_keeps (hwf : WellFormed thr d) {G : Driver → Prop} (hG : G d)
    (descWriteback : BitVec 32) (hw : HwRegs)
    (regs : ∀ s s', ServiceRegs s s' → G s → G s')
    (start : ∀ s s', engineStart p s hw = some s' → G s → G s')
    (mark : ∀ s t flags descCmpl, G s
      → G (s.setXfer t { s.xfer t with flags := flags, descCmpl := descCmpl }))
    (final : ∀ s t rest xfer', WellFormed thr s → s.engine.transferList = t :: rest
      → Verdict (s.xfer t) xfer' → G s
      → G (engineTransferCompletion p (s.setXfer t xfer').listDel t hw))
    : G (engineService p d descWriteback hw) := by
  have hleads : let P := fun s => G s ∧ WellFormed thr s ∧ ∀ r, (d.view r).Serviced (s.view r)
      ServiceLeads p hw P P := by
    have hwf := WellFormed.serviceLeads p hw thr d
    apply ServiceLeads.of_keeps
    . exact fun s s' hregs h => ⟨regs s s' hregs h.1, hwf.regs s s' hregs h.2⟩
    . exact fun s s' hstart h => ⟨start s s' hstart h.1, hwf.start s s' hstart h.2⟩
    . exact fun s t rest flags descCmpl hlist h =>
        ⟨mark s t flags descCmpl h.1, hwf.mark s t rest flags descCmpl hlist h.2⟩
    . exact fun s t rest xfer' hlist hverdict h =>
        ⟨final s t rest xfer' h.2.1 hlist hverdict h.1, hwf.final s t rest xfer' hlist hverdict h.2⟩
  exact (engineService_preserves hleads d descWriteback
    ⟨hG, hwf, fun _ => View.Serviced.refl _⟩).1

end Service

section Threads

variable {p : ModuleParam} {s : Sys} {r : Nat} {th th' : Thread} {d' : Driver}

theorem WellFormed.setThread (hwf : WellFormed s.thr s.drv) (hring : d'.engine.descIdx < 2048)
    (hothers : ∀ r', r' ≠ r → d'.view r' = s.drv.view r')
    (howned : ∀ t ∈ d'.engine.transferList, t ∈ s.drv.engine.transferList ∨ ∃ j, t = .tfer r j)
    (hsorted : d'.engine.transferList.Pairwise XferPtr.Before)
    (hpending : ∀ t ∈ d'.engine.transferList, ¬ (d'.xfer t).Settled)
    (hok : th'.Ok (d'.view r) r)
    : WellFormed (Function.update s.thr r (some th')) d' where
  ring := hring
  owned := by
    intro t ht
    have hself : ∀ j, ∃ r' j' th'', XferPtr.tfer r j = .tfer r' j'
        ∧ Function.update s.thr r (some th') r' = some th'' :=
      fun j => ⟨r, j, th', rfl, Function.update_self _ _ _⟩
    cases howned t ht with
    | inl hmem =>
      rcases hwf.owned t hmem with ⟨r', j, th'', rfl, hth⟩
      by_cases hr : r' = r
      . rw [hr]
        exact hself j
      . exact ⟨r', j, th'', rfl, by rw [Function.update_of_ne hr]; exact hth⟩
    | inr hnew =>
      rcases hnew with ⟨j, rfl⟩
      exact hself j
  sorted := hsorted
  pending := hpending
  threads := by
    intro r' th'' hth
    by_cases hr : r' = r
    . subst hr
      rw [Function.update_self, Option.some.injEq] at hth
      rw [← hth]
      exact hok
    . rw [Function.update_of_ne hr] at hth
      rw [hothers r' hr]
      exact hwf.threads r' th'' hth

theorem WellFormed.setThread_of_eq (hwf : WellFormed s.thr s.drv)
    (hidx : d'.engine.descIdx = s.drv.engine.descIdx) (hxfer : d'.xfer = s.drv.xfer)
    (hreq : d'.req = s.drv.req) (hlist : d'.engine.transferList = s.drv.engine.transferList)
    (hok : th'.Ok (s.drv.view r) r)
    : WellFormed (Function.update s.thr r (some th')) d' := by
  have hview : ∀ r', d'.view r' = s.drv.view r' := fun r' =>
    Driver.view_congr (fun j => by rw [hxfer]) (fun j => by rw [hlist]) (by rw [hreq])
  refine hwf.setThread ?_ (fun r' _ => hview r') ?_ ?_ ?_ (by rw [hview]; exact hok)
  . rw [hidx]
    exact hwf.ring
  . rw [hlist]
    exact fun t ht => Or.inl ht
  . rw [hlist]
    exact hwf.sorted
  . rw [hlist, hxfer]
    exact hwf.pending

theorem WellFormed.not_linked_of_none (hwf : WellFormed s.thr s.drv) (hth : s.thr r = none) (j : Nat)
    : ¬ (s.drv.view r).linked j := by
  intro hmem
  rcases hwf.owned _ hmem with ⟨r', j', th', heq, hth'⟩
  simp only [XferPtr.tfer.injEq] at heq
  rw [← heq.1, hth] at hth'
  contradiction

theorem SyncOk.of_not_linked {v : View} (h : ∀ j, ¬ v.linked j) : SyncOk v :=
  fun j hj => absurd hj (h j)

theorem Thread.ok_goOn_wait {v : View} {dmaMapped : Bool} {n : Nat} (hnone : ∀ j, ¬ v.linked j)
    (hleft : LeftOk v n)
    : Thread.Ok v r ⟨true, dmaMapped, .goOn true 0 n⟩ := by
  unfold Pc.goOn
  split
  . next hne => exact ⟨hnone, hne, hleft⟩
  . exact SyncOk.of_not_linked hnone

theorem Thread.ok_goOn_nowait {v : View} {dmaMapped : Bool} {k n : Nat} (hok : AsyncOk v r k n)
    (hleft : LeftOk v n)
    : Thread.Ok v r ⟨false, dmaMapped, .goOn false k n⟩ := by
  unfold Pc.goOn
  split
  . next hne => exact ⟨hok, hne, hleft⟩
  . next hzero =>
    rw [not_not] at hzero
    rw [hzero] at hok
    exact hok

theorem Thread.ok_leaving {v : View} {k n : Nat} {dmaMapped wait : Bool}
    (hok : Thread.Ok v r ⟨wait, dmaMapped, .built k n⟩)
    : Thread.Ok v r ⟨wait, dmaMapped, .leaving⟩ := by
  cases wait with
  | true => exact SyncOk.of_not_linked hok.1
  | false =>
    rcases hok with ⟨hasync, hbuilt, _⟩
    intro j hj
    by_contra hlast
    rw [Bool.not_eq_false] at hlast
    have hlast' := (hasync.last j (hasync.bound j hj)).mp hlast
    have hnum := hbuilt.num
    omega

end Threads

end Xdma
