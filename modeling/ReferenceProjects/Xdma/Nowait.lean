import Mathlib.Tactic.Cases
import ReferenceProjects.Xdma.Impl.Nowait
import ReferenceProjects.Xdma.Lemmas.Step

/-!
This module contains when the two transfers that are embedded in a request are enough for it: a request
that is submitted without waiting is cut at the ends of the descriptor ring, as often as it takes.
-/

namespace Xdma

/--
What the other users of the engine keep of request `r` between the rounds of its submission: the request
and the size of its transfers. Before round `k` they take `advance k` descriptors from the ring.
-/
structure Elsewhere (r : Nat) (env : Nat → NowaitRound) (advance : Nat → Nat) : Prop where
  req : ∀ k s, ((env k).others s).req r = s.req r
  descNum : ∀ k s j, (((env k).others s).xfer (.tfer r j)).descNum = (s.xfer (.tfer r j)).descNum
  descIdx : ∀ k s, s.engine.descIdx < 2048 →
    ((env k).others s).engine.descIdx = (s.engine.descIdx + advance k) % 2048

/-- The descriptors that are left from an index of the ring to its end. -/
def ringRoom (descIdx : Nat) : Nat := 2048 - descIdx % 2048

section Round

/--
A transfer takes what its request has left, up to the end of the ring.
-/
theorem transferDescMax_eq {e : XdmaEngine} {req : XdmaRequestCb} (hidx : e.descIdx < 2048)
    : transferDescMax e req = min (req.swDescCnt - req.swDescIdx) (ringRoom e.descIdx) := by
  unfold transferDescMax ringRoom
  dsimp only
  split
  . next h =>
    simp only [xdmaTransferMaxDesc] at h ⊢
    omega
  . next h =>
    simp only [xdmaTransferMaxDesc] at h ⊢
    omega

def Driver.swDescLeft (s : Driver) (r : Nat) : Nat := (s.req r).swDescCnt - (s.req r).swDescIdx

/-- What a round that queues the transfer `k` of `n` descriptors does. -/
structure RoundTakes (r k n : Nat) (s s' : Driver) : Prop where
  swDescCnt : (s'.req r).swDescCnt = (s.req r).swDescCnt
  left : s'.swDescLeft r = s.swDescLeft r - n
  descIdx : s'.engine.descIdx = (s.engine.descIdx + n) % 2048
  descNum : (s'.xfer (.tfer r k)).descNum = n
  others : ∀ j, j ≠ k → (s'.xfer (.tfer r j)).descNum = (s.xfer (.tfer r j)).descNum

variable {p : ModuleParam} {r k : Nat} {s s' : Driver} {hw : HwRegs}

theorem submitInit_takes (s : Driver) (r k nents : Nat) (dmaMapped : Bool)
    : RoundTakes r k (transferDescMax s.engine (s.req r)) s
        (submitInit s r (.tfer r k) (some r) dmaMapped nents).1 := by
  have hreq := submitInit_req s r (.tfer r k) (some r) dmaMapped nents
  rw [transferInit_req] at hreq
  constructor
  . rw [hreq]
    rfl
  . unfold Driver.swDescLeft XdmaRequestCb.swDescCnt
    rw [hreq]
    dsimp only
    omega
  . rw [submitInit_engine]
    rfl
  . have hxfer := submitInit_xfer s r (.tfer r k) (some r) dmaMapped nents
    rw [hxfer.2.1, transferInit_xfer]
  . intro j hj
    rw [submitInit_eq]
    show (Function.update s.xfer _ _ (.tfer r j)).descNum = _
    rw [Function.update_of_ne]
    intro heq
    injection heq with _ hjk
    exact hj hjk

theorem RoundTakes.queue {n : Nat} {m : Driver} (h : RoundTakes r k n s m) {t : XferPtr}
    (hqueue : transferQueue p m t hw = .ok s')
    : RoundTakes r k n s s' := by
  have heq := transferQueueLocked_eq (transferQueue_ok hqueue).2.2
  have hreq : s'.req = m.req := by rw [heq]; rfl
  have hidx : s'.engine.descIdx = m.engine.descIdx := by rw [heq]; rfl
  have hnum : ∀ u, (s'.xfer u).descNum = (m.xfer u).descNum := by
    intro u
    rw [heq]
    show (Function.update m.xfer _ _ u).descNum = _
    rw [Function.update_apply]
    split
    . next hu => rw [hu]
    . rfl
  constructor
  . rw [hreq]
    apply h.swDescCnt
  . unfold Driver.swDescLeft
    rw [hreq]
    apply h.left
  . rw [hidx]
    apply h.descIdx
  . rw [hnum]
    apply h.descNum
  . intro j hj
    rw [hnum]
    apply h.others j hj

end Round

section Loop

variable {p : ModuleParam} {r : Nat} {dmaMapped : Bool} {env : Nat → NowaitRound}
variable {advance : Nat → Nat} {fuel k nents : Nat} {s : Driver} {result : NowaitResult}

def Driver.ringAt (s : Driver) (n : Nat) : Driver :=
  { s with engine.descIdx := (s.engine.descIdx + n) % 2048 }

theorem nowaitLoop_zero (hloop : nowaitLoop p r dmaMapped env fuel k s 0 = some result)
    : result = ⟨none, [], s⟩ := by
  unfold nowaitLoop at hloop
  simp only [↓reduceIte, Option.some.injEq] at hloop
  exact hloop.symm

/--
An accepted submission goes on from one round to the next with what is left.
-/
theorem nowaitLoop_round (helse : Elsewhere r env advance)
    (hloop : nowaitLoop p r dmaMapped env fuel k s nents = some result) (herr : result.err = none)
    (hnents : nents ≠ 0) (hleft : nents = s.swDescLeft r) (hidx : s.engine.descIdx < 2048)
    : ∃ fuel' s' result',
      let n := min nents (ringRoom (s.engine.descIdx + advance k))
      RoundTakes r k n (s.ringAt (advance k)) s' ∧ s'.engine.descIdx < 2048
        ∧ nents - n = s'.swDescLeft r
        ∧ nowaitLoop p r dmaMapped env fuel' (k + 1) s' (nents - n) = some result'
        ∧ result'.err = none ∧ result.tferIdx = k :: result'.tferIdx ∧ result.drv = result'.drv := by
  cases fuel with
  | zero =>
    unfold nowaitLoop at hloop
    simp only [hnents, ↓reduceIte, reduceCtorEq] at hloop
  | succ fuel =>
    generalize hm : (env k).others s = m
    have hreq : m.req r = s.req r := by
      rw [← hm]
      apply helse.req
    have hring : m.engine.descIdx = (s.engine.descIdx + advance k) % 2048 := by
      rw [← hm]
      apply helse.descIdx k s hidx
    have hmax : transferDescMax m.engine (m.req r)
        = min nents (ringRoom (s.engine.descIdx + advance k)) := by
      rw [transferDescMax_eq (by omega), hring, hreq, hleft]
      unfold ringRoom Driver.swDescLeft
      rw [Nat.mod_mod]
    have hinit : RoundTakes r k (min nents (ringRoom (s.engine.descIdx + advance k)))
        (s.ringAt (advance k)) (submitInit m r (.tfer r k) (some r) dmaMapped nents).1 := by
      have htakes := submitInit_takes m r k nents dmaMapped
      rw [hmax] at htakes
      constructor
      . rw [htakes.swDescCnt, hreq]
        rfl
      . rw [htakes.left]
        unfold Driver.swDescLeft
        rw [hreq]
        rfl
      . rw [htakes.descIdx, hring]
        rfl
      . apply htakes.descNum
      . intro j hj
        rw [htakes.others j hj, ← hm, helse.descNum]
        rfl
    have hrest : (submitInit m r (.tfer r k) (some r) dmaMapped nents).2
        = nents - min nents (ringRoom (s.engine.descIdx + advance k)) := by
      rw [submitInit_nents, hmax]
    unfold nowaitLoop at hloop
    simp only [hnents, ↓reduceIte, hm, hrest] at hloop
    split at hloop
    . cases hloop
      contradiction
    . next s' hqueue =>
      rw [Option.map_eq_some_iff] at hloop
      obtain ⟨result', hloop, rfl⟩ := hloop
      have htakes := hinit.queue hqueue
      have hlt : s'.engine.descIdx < 2048 := by
        rw [htakes.descIdx]
        apply Nat.mod_lt
        decide
      have hleft' : s'.swDescLeft r = s.swDescLeft r - _ := htakes.left
      rw [← hleft] at hleft'
      exact ⟨fuel, s', result', htakes, hlt, hleft'.symm, hloop, herr, rfl, rfl⟩

/--
The rounds from `k` on keep the request and the size of the transfers before `k`.
-/
theorem nowaitLoop_keeps (helse : Elsewhere r env advance)
    (hloop : nowaitLoop p r dmaMapped env fuel k s nents = some result) (herr : result.err = none)
    (hleft : nents = s.swDescLeft r) (hidx : s.engine.descIdx < 2048)
    : (result.drv.req r).swDescCnt = (s.req r).swDescCnt
      ∧ ∀ j, j < k → (result.drv.xfer (.tfer r j)).descNum = (s.xfer (.tfer r j)).descNum := by
  induction h : nents using Nat.strongRecOn generalizing fuel k s nents result with
  | ind m ih =>
    subst h
    by_cases hnents : nents = 0
    . rw [hnents] at hloop
      rw [nowaitLoop_zero hloop]
      exact ⟨rfl, fun _ _ => rfl⟩
    . obtain ⟨fuel', s', result', htakes, hidx', hleft', hloop', herr', _, hdrv⟩ :=
        nowaitLoop_round helse hloop herr hnents hleft hidx
      have hroom : 0 < ringRoom (s.engine.descIdx + advance k) := by
        unfold ringRoom
        omega
      have hih := ih _ (by omega) hloop' herr' hleft' hidx' rfl
      rw [hdrv, hih.1, htakes.swDescCnt]
      refine ⟨rfl, ?_⟩
      intro j hj
      rw [hih.2 j (by omega), htakes.others j (by omega)]
      rfl

/--
The room that the first two transfers of a submission find in the ring.
-/
def twoRooms (s : Driver) (advance : Nat → Nat) : Nat :=
  ringRoom (s.engine.descIdx + advance 0) + ringRoom (advance 1)

/--
An accepted submission has used at most two transfers, which are the request, or it has used a third.
-/
theorem nowaitLoop_two (helse : Elsewhere r env advance)
    (hloop : nowaitLoop p r dmaMapped env fuel 0 s nents = some result) (herr : result.err = none)
    (hleft : nents = s.swDescLeft r) (hidx : s.engine.descIdx < 2048)
    : nents ≤ twoRooms s advance ∧ (∀ i ∈ result.tferIdx, i < 2)
        ∧ (nents ≤ (result.drv.xfer (.tfer r 0)).descNum
          ∨ nents ≤ (result.drv.xfer (.tfer r 0)).descNum + (result.drv.xfer (.tfer r 1)).descNum)
      ∨ twoRooms s advance < nents ∧ 2 ∈ result.tferIdx := by
  unfold twoRooms
  by_cases hnents : nents = 0
  . rw [hnents] at hloop
    rw [nowaitLoop_zero hloop, hnents]
    refine .inl ⟨Nat.zero_le _, ?_, .inl (Nat.zero_le _)⟩
    intro i hi
    contradiction
  . -- the first transfer
    obtain ⟨fuel', s', result', htakes, hlt, hleft', hloop', herr', htfer, hdrv⟩ :=
      nowaitLoop_round helse hloop herr hnents hleft hidx
    have hkeeps := (nowaitLoop_keeps helse hloop' herr' hleft' hlt).2 0 (by decide)
    rw [htakes.descNum] at hkeeps
    rw [htfer, hdrv, hkeeps]
    by_cases hone : nents ≤ ringRoom (s.engine.descIdx + advance 0)
    . rw [Nat.min_eq_left hone, Nat.sub_self] at hloop'
      have hdone : result'.tferIdx = [] := by rw [nowaitLoop_zero hloop']
      refine .inl ⟨by omega, ?_, .inl (by omega)⟩
      rw [hdone]
      decide
    . -- the ring starts again, and the second transfer follows
      change nowaitLoop p r dmaMapped env fuel' 1 s' _ = _ at hloop'
      rw [Nat.min_eq_right (by omega)] at htakes hloop' hleft' ⊢
      have hring : s'.engine.descIdx = 0 := by
        rw [htakes.descIdx]
        unfold Driver.ringAt ringRoom
        dsimp only
        omega
      obtain ⟨fuel'', s'', result'', htakes', hlt', hleft'', hloop'', herr'', htfer', hdrv'⟩ :=
        nowaitLoop_round helse hloop' herr' (by omega) hleft' hlt
      have hkeeps' := (nowaitLoop_keeps helse hloop'' herr'' hleft'' hlt').2 1 (by decide)
      have hnum : (s''.xfer (.tfer r 1)).descNum = _ := htakes'.descNum
      rw [hnum] at hkeeps'
      rw [htfer', hdrv', hkeeps']
      rw [hring, Nat.zero_add (advance 1)] at hloop'' hleft'' ⊢
      by_cases htwo : nents ≤ ringRoom (s.engine.descIdx + advance 0) + ringRoom (advance 1)
      . rw [Nat.min_eq_left (by omega)] at hloop'' ⊢
        rw [Nat.sub_self] at hloop''
        have hdone : result''.tferIdx = [] := by rw [nowaitLoop_zero hloop'']
        refine .inl ⟨htwo, ?_, .inr (by omega)⟩
        rw [hdone]
        decide
      . rw [Nat.min_eq_right (by omega)] at hloop'' hleft''
        obtain ⟨_, _, _, _, _, _, _, _, htfer'', _⟩ :=
          nowaitLoop_round helse hloop'' herr'' (by omega) hleft'' hlt'
        refine .inr ⟨by omega, ?_⟩
        rw [htfer'']
        exact .tail _ (.tail _ (.head _))

end Loop

section Completion

variable {p : ModuleParam} {r : Nat} {hw : HwRegs}

theorem completionSwitch_descNum (s : Driver) (t u : XferPtr)
    : ((completionSwitch p s t hw).1.xfer u).descNum = (s.xfer u).descNum := by
  cases (completionSwitch_frame p s t hw).xfer u with
  | inl hsame => rw [hsame]
  | inr habort => rw [habort.2]

/--
The loop of the completion ends with the transfer that completes the count.
-/
theorem completionTferIdx_le (fuel k nents : Nat) (s : Driver)
    (h : nents ≤ (s.xfer (.tfer r k)).descNum)
    : ∀ i ∈ completionTferIdx p r hw fuel k nents s, i = k := by
  intro i hi
  unfold completionTferIdx at hi
  cases fuel with
  | zero => contradiction
  | succ fuel =>
    simp only [Nat.sub_eq_zero_of_le h] at hi
    split at hi
    . contradiction
    . rw [List.mem_cons] at hi
      cases hi with
      | inl heq => apply heq
      | inr hrest =>
        split at hrest
        . unfold completionTferIdx at hrest
          cases fuel with
          | zero => contradiction
          | succ fuel =>
            simp only [↓reduceIte] at hrest
            contradiction
        . contradiction

theorem completionTferIdx_le_two (fuel k nents : Nat) (s : Driver)
    (h : nents ≤ (s.xfer (.tfer r k)).descNum + (s.xfer (.tfer r (k + 1))).descNum)
    : ∀ i ∈ completionTferIdx p r hw fuel k nents s, i = k ∨ i = k + 1 := by
  intro i hi
  unfold completionTferIdx at hi
  cases fuel with
  | zero => contradiction
  | succ fuel =>
    dsimp only at hi
    split at hi
    . contradiction
    . rw [List.mem_cons] at hi
      cases hi with
      | inl heq => exact .inl heq
      | inr hrest =>
        split at hrest
        . refine .inr (completionTferIdx_le fuel (k + 1) _ _ ?_ i hrest)
          rw [transferDestroy_eq]
          show nents - _ ≤ ((completionSwitch p s (.tfer r k) hw).1.xfer (.tfer r (k + 1))).descNum
          rw [completionSwitch_descNum]
          omega
        . contradiction

end Completion

section Accepted

variable {p : ModuleParam} {alloc : Nat → Bool} {s m : Driver} {r : Nat} {write dmaMapped : Bool}
variable {epAddr : BitVec 64} {sgl : List Scatterlist} {req : XdmaRequestCb}

theorem xdmaXferSubmitNowait_accepted {env : Nat → NowaitRound} {result : NowaitResult}
    (h : xdmaXferSubmitNowait p alloc s r write epAddr sgl dmaMapped env = some result)
    (herr : result.err = none)
    : ∃ m req, submitRequest p alloc s r write epAddr sgl dmaMapped = some (m, .ok req)
        ∧ nowaitLoop p r dmaMapped env req.swDescCnt 0 m req.swDescCnt = some result := by
  unfold xdmaXferSubmitNowait at h
  split at h
  . contradiction
  . cases h
    contradiction
  . next m req hsubmit =>
    refine ⟨m, req, hsubmit, ?_⟩
    split at h
    . contradiction
    . next hloop =>
      cases h
      apply hloop
    . cases h
      contradiction

structure TakesTransfers (s : Driver) : Prop where
  running : s.engine.running = true
  offline : s.offline = false
  request : s.engine.shutdown.request = false
  descIdx : s.engine.descIdx < 2048

theorem transferQueue_of_takes (p : ModuleParam) (h : TakesTransfers m) {t : XferPtr} (hw : HwRegs)
    (hnum : (m.xfer t).descNum ≠ 0)
    : ∃ m', transferQueue p m t hw = .ok m' ∧ TakesTransfers m' ∧ m'.req = m.req := by
  let m' : Driver := { m.setXfer t { m.xfer t with state := .submitted } with
    engine.transferList := m.engine.transferList ++ [t] }
  refine ⟨m', ?_, ⟨h.running, h.offline, h.request, h.descIdx⟩, rfl⟩
  have hcheck : transferQueueCheck m t = .ok () := by
    rw [transferQueueCheck_ok_iff]
    exact ⟨hnum, h.offline⟩
  unfold transferQueue
  rw [hcheck]
  show transferQueueLocked p m t hw = _
  unfold transferQueueLocked
  rw [if_neg (by simp [h.request])]
  dsimp only
  rw [if_pos]
  . rfl
  . apply h.running

/--
With nobody else at the engine a running one accepts every request.
-/
theorem nowaitLoop_accepted (p : ModuleParam) (dmaMapped : Bool) {env : Nat → NowaitRound}
    (hquiet : ∀ k s, (env k).others s = s) (fuel k nents : Nat) (h : TakesTransfers m) (hleft : nents = m.swDescLeft r)
    (hfuel : nents ≤ fuel)
    : ∃ result, nowaitLoop p r dmaMapped env fuel k m nents = some result ∧ result.err = none := by
  induction fuel generalizing k nents m with
  | zero =>
    unfold nowaitLoop
    rw [if_pos (by omega)]
    exact ⟨_, rfl, rfl⟩
  | succ fuel ih =>
    unfold nowaitLoop
    by_cases hnents : nents = 0
    . rw [if_pos hnents]
      exact ⟨_, rfl, rfl⟩
    . have htakes := submitInit_takes m r k nents dmaMapped
      have hpos : 0 < transferDescMax m.engine (m.req r) := by
        apply transferDescMax_pos m.engine (m.req r) h.descIdx
        unfold Driver.swDescLeft at hleft
        omega
      have hinit : TakesTransfers (submitInit m r (.tfer r k) (some r) dmaMapped nents).1 := by
        constructor
        . rw [submitInit_engine]
          apply h.running
        . apply h.offline
        . rw [submitInit_engine]
          apply h.request
        . rw [htakes.descIdx]
          apply Nat.mod_lt
          decide
      have hnum := htakes.descNum
      obtain ⟨m', hqueue, hm', hreq⟩ :=
        transferQueue_of_takes p hinit (t := .tfer r k) (env k).hwQueue (by omega)
      have hleft' : nents - transferDescMax m.engine (m.req r) = m'.swDescLeft r := by
        unfold Driver.swDescLeft
        rw [hreq]
        have := htakes.left
        unfold Driver.swDescLeft at this hleft
        omega
      obtain ⟨result, hloop, herr⟩ :=
        ih (k + 1) (nents - transferDescMax m.engine (m.req r)) hm' hleft' (by omega)
      rw [if_neg hnents]
      dsimp only
      rw [hquiet, hqueue, submitInit_nents]
      dsimp only
      rw [hloop]
      exact ⟨_, rfl, herr⟩

theorem xdmaXferSubmitNowait_of_takes (p : ModuleParam) (r : Nat) (write dmaMapped : Bool)
    (env : Nat → NowaitRound) (hquiet : ∀ k s, (env k).others s = s) (h : TakesTransfers s)
    (hdir : s.engine.dir = if write then .toDevice else .fromDevice) (hsgl : sgl.length ≠ 0)
    (hinit : xdmaInitRequest p.descBlenMax alloc sgl epAddr = .ok req)
    : ∃ result, xdmaXferSubmitNowait p alloc s r write epAddr sgl dmaMapped env = some result
        ∧ result.err = none := by
  have hidx : req.swDescIdx = 0 := xdmaInitRequest_start hinit
  let m : Driver := { s.mapSg r sgl with req := Function.update s.req r req }
  have hsubmit : submitRequest p alloc s r write epAddr sgl dmaMapped = some (m, .ok req) := by
    unfold submitRequest
    rw [if_neg (by simp [h.offline]), if_neg (not_not.mpr hdir), if_neg hsgl, hinit]
    rfl
  have hreq : m.req r = req := Function.update_self _ _ _
  have hm : TakesTransfers m := ⟨h.running, h.offline, h.request, h.descIdx⟩
  have hleft : req.swDescCnt = m.swDescLeft r := by
    unfold Driver.swDescLeft
    rw [hreq, hidx, Nat.sub_zero]
  obtain ⟨result, hloop, herr⟩ := nowaitLoop_accepted p dmaMapped hquiet
    req.swDescCnt 0 req.swDescCnt hm hleft (Nat.le_refl _)
  obtain ⟨err, tferIdx, drv⟩ := result
  obtain rfl : err = none := herr
  refine ⟨⟨none, tferIdx, drv⟩, ?_, rfl⟩
  unfold xdmaXferSubmitNowait
  rw [hsubmit]
  dsimp only
  rw [hloop]

/--
An accepted submission has used at most two transfers, which are its request, or it has used a third.
-/
theorem xdmaXferSubmitNowait_two {env : Nat → NowaitRound} {advance : Nat → Nat}
    {result : NowaitResult} (helse : Elsewhere r env advance) (hidx : s.engine.descIdx < 2048)
    (haccepted : xdmaXferSubmitNowait p alloc s r write epAddr sgl dmaMapped env = some result)
    (herr : result.err = none) (hinit : xdmaInitRequest p.descBlenMax alloc sgl epAddr = .ok req)
    : (result.drv.req r).swDescCnt = req.swDescCnt
      ∧ (req.swDescCnt ≤ twoRooms s advance ∧ (∀ i ∈ result.tferIdx, i < 2)
          ∧ (req.swDescCnt ≤ (result.drv.xfer (.tfer r 0)).descNum
            ∨ req.swDescCnt ≤ (result.drv.xfer (.tfer r 0)).descNum
              + (result.drv.xfer (.tfer r 1)).descNum)
        ∨ twoRooms s advance < req.swDescCnt ∧ 2 ∈ result.tferIdx) := by
  obtain ⟨m, req', hsubmit, hloop⟩ := xdmaXferSubmitNowait_accepted haccepted herr
  obtain rfl : req' = req := by
    have hsame := (submitRequest_ok hsubmit).1
    rw [hinit] at hsame
    exact (Except.ok.inj hsame).symm
  obtain ⟨heq, hres⟩ := submitRequest_eq hsubmit
  have hmreq : m.req r = req' := by
    cases hres with
    | inl herror =>
      obtain ⟨⟨_, herror⟩, _⟩ := herror
      cases herror
    | inr hok =>
      obtain ⟨_, hok, hupdate, _⟩ := hok
      cases hok
      rw [hupdate, Function.update_self]
  have hleft : req'.swDescCnt = m.swDescLeft r := by
    unfold Driver.swDescLeft
    rw [hmreq, xdmaInitRequest_start hinit, Nat.sub_zero]
  have hring : m.engine = s.engine := by rw [heq]
  have hrooms : twoRooms m advance = twoRooms s advance := by
    unfold twoRooms
    rw [hring]
  rw [← hring] at hidx
  have htwo := nowaitLoop_two helse hloop herr hleft hidx
  rw [hrooms] at htwo
  exact ⟨by rw [(nowaitLoop_keeps helse hloop herr hleft hidx).1, hmreq], htwo⟩

end Accepted

/--
An accepted request stays within its two transfers, in the loop that submits them and in the one that
completes them, exactly if its software descriptors fit the room that two transfers find in the ring:
what there is to the end of it, and once more from where the second transfer finds it.
-/
theorem xdmaXferSubmitNowait_tferIdx_iff (p : ModuleParam) (alloc : Nat → Bool) (s s' : Driver)
    (r : Nat) (write dmaMapped : Bool) (epAddr : BitVec 64) (sgl : List Scatterlist)
    (env : Nat → NowaitRound) (advance : Nat → Nat) (result : NowaitResult) (req : XdmaRequestCb)
    (hw : HwRegs) (helse : Elsewhere r env advance) (hidx : s.engine.descIdx < 2048)
    (haccepted : xdmaXferSubmitNowait p alloc s r write epAddr sgl dmaMapped env = some result)
    (herr : result.err = none) (hinit : xdmaInitRequest p.descBlenMax alloc sgl epAddr = .ok req)
    (hreq : s'.req r = result.drv.req r)
    (hnum : ∀ j, (s'.xfer (.tfer r j)).descNum = (result.drv.xfer (.tfer r j)).descNum)
    : (∀ i ∈ result.tferIdx
          ++ completionTferIdx p r hw (s'.req r).swDescCnt 0 (s'.req r).swDescCnt s', i < 2)
        ↔ req.swDescCnt ≤ twoRooms s advance := by
  obtain ⟨hcnt, htwo⟩ := xdmaXferSubmitNowait_two helse hidx haccepted herr hinit
  rw [hreq, hcnt, List.forall_mem_append]
  rcases htwo with ⟨hfits, hboth, hsum⟩ | ⟨hover, hthird⟩
  . refine ⟨fun _ => hfits, fun _ => ⟨hboth, ?_⟩⟩
    rw [← hnum, ← hnum] at hsum
    intro i hi
    cases hsum with
    | inl hone =>
      have := completionTferIdx_le _ 0 _ s' hone i hi
      omega
    | inr hboth =>
      have := completionTferIdx_le_two _ 0 _ s' hboth i hi
      omega
  . constructor
    . intro h
      exact absurd (h.1 2 hthird) (by decide)
    . intro h
      omega

/-- An H2C engine that runs, with its ring at the last descriptor. -/
def ringEndDriver : Driver :=
  Driver.init { XdmaEngine.init .toDevice false 0 0 with running := true, descIdx := 2047 }

theorem ringEndDriver_takes
    : TakesTransfers ringEndDriver := ⟨rfl, rfl, rfl, by decide⟩

def alone : Nat → NowaitRound := fun _ => ⟨id, ⟨0, 0, 0, 0⟩⟩

theorem alone_elsewhere (r : Nat)
    : Elsewhere r alone (fun _ => 0) where
  req := fun _ _ => rfl
  descNum := fun _ _ _ => rfl
  descIdx := by
    intro k s hidx
    exact (Nat.mod_eq_of_lt hidx).symm

/-- A request of as many software descriptors as there are segments of one byte. -/
theorem xdmaInitRequest_bytes {n : Nat}
    (h : (xdmaInitRequest 4096 (fun _ => true) (List.replicate n ⟨0, 1⟩) 0).toOption.map
      XdmaRequestCb.swDescCnt = some n)
    : ∃ req, xdmaInitRequest 4096 (fun _ => true) (List.replicate n ⟨0, 1⟩) 0 = .ok req
        ∧ req.swDescCnt = n := by
  cases hinit : xdmaInitRequest 4096 (fun _ => true) (List.replicate n ⟨0, 1⟩) 0 with
  | error fault =>
    rw [hinit] at h
    contradiction
  | ok req =>
    rw [hinit] at h
    exact ⟨req, rfl, Option.some.inj h⟩

theorem xdmaXferSubmitNowait_tferIdx_one
    : ∃ result, xdmaXferSubmitNowait ⟨false, false, 4096⟩ (fun _ => true) ringEndDriver 0 true 0
        [⟨0, 1⟩] true alone = some result
      ∧ ∀ i ∈ result.tferIdx ++ completionTferIdx ⟨false, false, 4096⟩ 0 ⟨0, 0, 0, 0⟩
          (result.drv.req 0).swDescCnt 0 (result.drv.req 0).swDescCnt result.drv, i < 2 := by
  obtain ⟨req, hinit, hcnt⟩ := xdmaInitRequest_bytes (n := 1) (by decide)
  obtain ⟨result, haccepted, herr⟩ := xdmaXferSubmitNowait_of_takes
    ⟨false, false, 4096⟩ 0 true true alone (fun _ _ => rfl) ringEndDriver_takes rfl (by decide) hinit
  refine ⟨result, haccepted, ?_⟩
  refine (xdmaXferSubmitNowait_tferIdx_iff ⟨false, false, 4096⟩ (fun _ => true) ringEndDriver
    result.drv 0 true true 0 [⟨0, 1⟩] alone (fun _ => 0) result req ⟨0, 0, 0, 0⟩
    (alone_elsewhere 0) (by decide) haccepted herr hinit rfl (fun _ => rfl)).mpr ?_
  rw [hcnt]
  decide

/--
From the last index of the ring, 2050 software descriptors are cut into transfers of 1, 2048 and 1.
-/
theorem xdmaXferSubmitNowait_third
    : ∃ result, xdmaXferSubmitNowait ⟨false, false, 4096⟩ (fun _ => true) ringEndDriver 0 true 0
        (List.replicate 2050 ⟨0, 1⟩) true alone = some result
      ∧ result.err = none ∧ 2 ∈ result.tferIdx := by
  obtain ⟨req, hinit, hcnt⟩ := xdmaInitRequest_bytes (n := 2050) (by decide +kernel)
  obtain ⟨result, haccepted, herr⟩ := xdmaXferSubmitNowait_of_takes
    ⟨false, false, 4096⟩ 0 true true alone (fun _ _ => rfl) ringEndDriver_takes rfl (by rw [List.length_replicate]; decide) hinit
  refine ⟨result, haccepted, herr, ?_⟩
  have hrooms : twoRooms ringEndDriver (fun _ => 0) = 2049 := by decide
  rcases (xdmaXferSubmitNowait_two (alone_elsewhere 0) (by decide) haccepted herr hinit).2
    with ⟨hfits, _⟩ | ⟨_, hthird⟩
  . omega
  . apply hthird

end Xdma
