import ReferenceProjects.Xdma.Impl.Submit
import ReferenceProjects.Xdma.Lemmas.Submit
import ReferenceProjects.Xdma.Lemmas.Request
import ReferenceProjects.Xdma.Lemmas.Transfer

/-!
This module contains the correctness of the blocking submission of a scatter list, across its three
splittings: segments at the descriptor size, requests at the ring size, and at the end of the ring.
-/

namespace Xdma

open Copy

/-- The fields of an engine that stay as they are while it is open. -/
def XdmaEngine.config (e : XdmaEngine) : DmaDataDirection × Bool × Bool :=
  (e.dir, e.streaming, e.nonIncrAddr)

/-- The engine accepts transfers. -/
structure Driver.Accepting (s : Driver) : Prop where
  online : s.offline = false
  open_ : s.engine.shutdown.request = false
  ring : s.engine.descIdx < 2048

/--
What happens to the transfer of request `r` that the submit loop queued completes it, and leaves an
engine that accepts the next one.
-/
def Wait.Completes (r : Nat) (w : Wait) : Prop :=
  ∀ s : Driver, s.Accepting → XferPtr.tfer r 0 ∈ s.engine.transferList
    → (w.others s).Accepting
      ∧ (w.others s).engine.config = s.engine.config
      ∧ (w.others s).req r = s.req r
      ∧ ((w.others s).xfer (.tfer r 0)).state = .completed
      ∧ ((w.others s).xfer (.tfer r 0)).len = (s.xfer (.tfer r 0)).len

/--
The submission moved the bytes of the scatter list once each, in order, and returned their number.
-/
structure SubmitResult.MovesAll (res : SubmitResult) (e : XdmaEngine) (descBlenMax : Nat)
    (epAddr : BitVec 64) (sgl : List Scatterlist) : Prop where
  ret : res.ret = .ok (sgTotal sgl)
  host : (res.descs.flatten.map (fun d => (d.move e.dir).hostSegment)).flatMap Segment.cells
    = (sgl.map Scatterlist.segment).flatMap Segment.cells
  bytes : ∀ d ∈ res.descs.flatten, 0 < d.bytes.toNat ∧ d.bytes.toNat ≤ descBlenMax
  incr : e.nonIncrAddr = false →
    (res.descs.flatten.map (XdmaDesc.move e.dir)).flatMap Move.pairs
      = ((sgl.map Scatterlist.segment).flatMap Segment.cells).zip (cells epAddr (sgTotal sgl))
  nonIncr : e.nonIncrAddr = true → ∀ d ∈ res.descs.flatten, (d.move e.dir).dev = epAddr

section SubmitLoop

variable (p : ModuleParam) {r : Nat} (dmaMapped : Bool)

theorem submitInit_queue {s : Driver} (hs : s.Accepting) (nents : Nat)
    (hrest : (s.req r).rest ≠ []) (hw : HwRegs)
    : let t := XferPtr.tfer r 0
      let m := (submitInit s r t none dmaMapped nents).1
      ∃ q, transferQueue p m t hw = .ok q
        ∧ q.Accepting
        ∧ t ∈ q.engine.transferList
        ∧ q.engine.config = s.engine.config
        ∧ q.req r = (transferInit s.engine (s.req r)).2.1
        ∧ (q.xfer t).len = swTotal (transferSdesc s.engine (s.req r)) % 2 ^ 32 := by
  have hcnt : (s.req r).swDescIdx < (s.req r).swDescCnt := by
    have := List.length_pos_of_ne_nil hrest
    simp only [XdmaRequestCb.rest, List.length_drop] at this
    unfold XdmaRequestCb.swDescCnt
    omega
  have hmax := transferDescMax_pos s.engine (s.req r) hs.ring hcnt
  have hxfer := submitInit_xfer s r (.tfer r 0) none dmaMapped nents
  have hengine := submitInit_engine s r (.tfer r 0) none dmaMapped nents
  have hreq := submitInit_req s r (.tfer r 0) none dmaMapped nents
  have hoffline := submitInit_offline s r (.tfer r 0) none dmaMapped nents
  dsimp only at hxfer ⊢
  rw [transferInit_xfer] at hxfer
  rw [hs.online] at hoffline
  generalize (submitInit s r (.tfer r 0) none dmaMapped nents).1 = m at *
  have hcheck : transferQueueCheck m (.tfer r 0) = .ok () := by
    unfold transferQueueCheck
    rw [if_neg (by rw [hxfer.2.1]; dsimp only; omega), hoffline]
    rfl
  have hopen : m.engine.shutdown.request = false := by
    rw [hengine]
    exact hs.open_
  rcases transferQueueLocked_isOk p hopen (.tfer r 0) hw with ⟨q, hq⟩
  have hqreq := transferQueueLocked_request hq
  refine ⟨q, ?_, ?_, ?_⟩
  . simp only [transferQueue, hcheck, bind, Except.bind]
    exact hq
  . refine ⟨?_, hqreq, ?_⟩
    . rw [transferQueueLocked_eq hq]
      exact hoffline
    . rw [transferQueueLocked_eq hq]
      simp only [Driver.enqueue, hengine]
      exact Nat.mod_lt _ (by simp)
  . rw [transferQueueLocked_eq hq]
    simp only [Driver.enqueue, Function.update_self, hengine, hreq, hxfer.2.2]
    exact ⟨by simp, rfl, trivial, trivial⟩

variable {env : Nat → Wait} (henv : ∀ k, (env k).Completes r)

include henv

/--
One round of the submit loop: the transfer it builds moves the next software descriptors, is queued,
completes, and leaves the loop ready for the descriptors after them.
-/
theorem submitLoop_round (fuel k : Nat) {s : Driver} (hs : s.Accepting)
    (hst : s.engine.streamC2h = false) {l : SubmitLoop}
    (hnents : l.nents = (s.req r).rest.length) (hpos : l.nents ≠ 0)
    (htotal : swTotal (s.req r).rest < 2 ^ 32)
    : let t := XferPtr.tfer r 0
      let m := (submitInit s r t none dmaMapped l.nents).1
      ∃ s', s'.Accepting ∧ s'.engine.config = s.engine.config
        ∧ s'.req r = (transferInit s.engine (s.req r)).2.1
        ∧ submitLoop p r dmaMapped env (fuel + 1) k s l
            =
          (submitLoop p r dmaMapped env fuel (k + 1) s'
            { rv := none
              done := l.done + swTotal (transferSdesc s.engine (s.req r))
              nents := (s'.req r).rest.length
            }).map (fun (l, rest, s) => (l, m.xferDescs t :: rest, s)) := by
  have hrest : (s.req r).rest ≠ [] := by
    intro hnil
    rw [hnil] at hnents
    exact hpos hnents
  have hmod : swTotal (transferSdesc s.engine (s.req r)) % 2 ^ 32
      = swTotal (transferSdesc s.engine (s.req r)) := by
    apply Nat.mod_eq_of_lt
    rw [XdmaRequestCb.rest_transferInit s.engine] at htotal
    simp only [swTotal, total, List.map_append, List.sum_append] at htotal ⊢
    omega
  rcases submitInit_queue p dmaMapped hs l.nents hrest (env k).hwQueue
    with ⟨q, hqueue, hqacc, hmem, hqcfg, hqreq, hqlen⟩
  rcases henv k q hqacc hmem with ⟨hacc, hcfg, hreq, hstate, hlen⟩
  have hround := submitLoop_succ p dmaMapped env fuel k s hpos hqueue
  dsimp only at hround ⊢
  generalize (env k).others q = o at *
  have hconfig := hcfg.trans hqcfg
  have hwake : submitWake p o (.tfer r 0) (env k).hwWake = o := by
    simp only [submitWake, hstate]
  have hstream : o.engine.streamC2h = false := by
    simp only [XdmaEngine.config, Prod.mk.injEq] at hconfig
    simp only [XdmaEngine.streamC2h, hconfig.1, hconfig.2.1]
    exact hst
  have hdestroy := submitDestroy_eq o (.tfer r 0)
  have hnents' : (submitInit s r (.tfer r 0) none dmaMapped l.nents).2
      = ((submitDestroy o (.tfer r 0)).req r).rest.length := by
    rw [submitInit_nents, hdestroy, hnents]
    dsimp only
    rw [hreq, hqreq, XdmaRequestCb.length_rest_transferInit]
  have hswitch : submitSwitch o.engine (o.xfer (.tfer r 0))
      { l with nents := (submitInit s r (.tfer r 0) none dmaMapped l.nents).2 }
        =
      { rv := none
        done := l.done + swTotal (transferSdesc s.engine (s.req r))
        nents := ((submitDestroy o (.tfer r 0)).req r).rest.length } := by
    simp only [submitSwitch, hstate, hstream, Bool.false_eq_true, ↓reduceIte, hlen, hqlen, hmod,
      hnents']
  rw [hwake, hswitch] at hround
  refine ⟨submitDestroy o (.tfer r 0), ?_, ?_, ?_, hround⟩
  . rw [hdestroy]
    exact ⟨hacc.online, hacc.open_, hacc.ring⟩
  . rw [hdestroy]
    exact hconfig
  . rw [hdestroy]
    exact hreq.trans hqreq

theorem submitLoop_moves (fuel k : Nat) {s : Driver} (hs : s.Accepting)
    (hst : s.engine.streamC2h = false) {l : SubmitLoop} (hrv : l.rv = none)
    (hnents : l.nents = (s.req r).rest.length) (hfuel : l.nents ≤ fuel)
    (hlen : ∀ sd ∈ (s.req r).sdesc, sd.len < 2 ^ 32) (htotal : swTotal (s.req r).rest < 2 ^ 32)
    : ∃ l' descs s', submitLoop p r dmaMapped env fuel k s l = some (l', descs, s')
        ∧ l'.rv = none
        ∧ l'.done = l.done + swTotal (s.req r).rest
        ∧ descs.flatten.map (XdmaDesc.move s.engine.dir)
            = swMoves s.engine.nonIncrAddr (s.req r).epAddr (s.req r).rest := by
  induction fuel generalizing k s l with
  | zero =>
    have hnil : (s.req r).rest = [] := List.eq_nil_of_length_eq_zero (by omega)
    refine ⟨l, [], s, ?_, hrv, by simp [hnil], by simp [hnil]⟩
    unfold submitLoop
    rw [if_pos (by omega)]
  | succ fuel ih =>
    by_cases hzero : l.nents = 0
    . have hnil : (s.req r).rest = [] := List.eq_nil_of_length_eq_zero (by omega)
      refine ⟨l, [], s, ?_, hrv, by simp [hnil], by simp [hnil]⟩
      unfold submitLoop
      rw [if_pos hzero]
    . have hmoves := submitInit_moves s r (.tfer r 0) none dmaMapped l.nents hs.ring hst hlen
      have hrest := XdmaRequestCb.rest_transferInit s.engine (s.req r)
      have hless := XdmaRequestCb.length_rest_transferInit s.engine (s.req r)
      have hcnt : (s.req r).swDescIdx < (s.req r).swDescCnt := by
        simp only [XdmaRequestCb.rest, List.length_drop] at hnents
        unfold XdmaRequestCb.swDescCnt
        omega
      have hmax := transferDescMax_pos s.engine (s.req r) hs.ring hcnt
      rcases submitLoop_round p dmaMapped henv fuel k hs hst hnents hzero
        htotal with ⟨s', hs', hcfg, hreq, hloop⟩
      have htotal' := htotal
      rw [hrest] at htotal'
      simp only [swTotal, total, List.map_append, List.sum_append] at htotal'
      simp only [XdmaEngine.config, Prod.mk.injEq] at hcfg
      have hst' : s'.engine.streamC2h = false := by
        simp only [XdmaEngine.streamC2h, hcfg.1, hcfg.2.1]
        exact hst
      have hlen' : ∀ sd ∈ (s'.req r).sdesc, sd.len < 2 ^ 32 := by
        rw [hreq, transferInit_req]
        exact hlen
      have hrest' : (s'.req r).rest.length ≤ fuel ∧ swTotal (s'.req r).rest < 2 ^ 32 := by
        rw [hreq, hless]
        simp only [swTotal, total]
        omega
      rcases ih (k + 1) hs' hst'
        (l := ⟨none, l.done + swTotal (transferSdesc s.engine (s.req r)), (s'.req r).rest.length⟩)
        rfl rfl hrest'.1 hlen' hrest'.2 with ⟨l', descs, s'', heq, hrv', hdone, hdescs⟩
      refine ⟨l', (submitInit s r (.tfer r 0) none dmaMapped l.nents).1.xferDescs (.tfer r 0)
        :: descs, s'', ?_, hrv', ?_, ?_⟩
      . rw [hloop, heq]
        rfl
      . rw [hdone, hreq, Nat.add_assoc, hrest]
        simp [swTotal, total]
      . have happend := swMoves_append s.engine.nonIncrAddr (s.req r).epAddr
          (transferSdesc s.engine (s.req r)) (s'.req r).rest
        rw [hcfg.1, hcfg.2.2, hreq] at hdescs
        rw [List.flatten_cons, List.map_append, hmoves, hdescs, hrest, ← hreq, happend, hreq,
          transferInit_req]

end SubmitLoop

section XferSubmit

variable (p : ModuleParam) (hb : 1 ≤ p.descBlenMax) (hb' : p.descBlenMax ≤ xdmaDescBlenMax)
variable (s : Driver) (hs : s.Accepting) (r : Nat) (write : Bool)
variable (hdir : s.engine.dir = if write then .toDevice else .fromDevice)
variable (epAddr : BitVec 64) (sgl : List Scatterlist) (htotal : sgTotal sgl < 2 ^ 31)
variable (dmaMapped : Bool) (env : Nat → Wait)

theorem movesAll_of_moves {res : SubmitResult} {e : XdmaEngine} {sds : List SwDesc} {b : Nat}
    {epAddr : BitVec 64} {sgl : List Scatterlist}
    (hret : res.ret = .ok (sgTotal sgl))
    (hlen : ∀ sd ∈ sds, 0 < sd.len ∧ sd.len ≤ b)
    (hcells : (sds.map SwDesc.segment).flatMap Segment.cells
      = (sgl.map Scatterlist.segment).flatMap Segment.cells)
    (hmoves : res.descs.flatten.map (XdmaDesc.move e.dir) = swMoves e.nonIncrAddr epAddr sds)
    : res.MovesAll e b epAddr sgl := by
  have hhost : res.descs.flatten.map (fun d => (d.move e.dir).hostSegment)
      = sds.map SwDesc.segment := by
    have := congrArg (List.map Move.hostSegment) hmoves
    rw [List.map_map] at this
    refine Eq.trans this ?_
    unfold swMoves
    split <;> simp
  refine ⟨hret, ?_, ?_, ?_, ?_⟩
  . rw [hhost, hcells]
  . intro d hd
    have hmem : (d.move e.dir).hostSegment ∈ sds.map SwDesc.segment := by
      rw [← hhost]
      exact List.mem_map_of_mem hd
    rcases List.mem_map.mp hmem with ⟨sd, hsd, heq⟩
    have hbytes : sd.len = d.bytes.toNat := by
      have := congrArg Segment.len heq
      unfold XdmaDesc.move at this
      split at this <;> exact this
    rw [← hbytes]
    exact hlen sd hsd
  . intro hincr
    rw [hmoves, hincr, ← hcells, ← swTotal_eq_sgTotal hcells]
    exact pairs_place epAddr (sds.map SwDesc.segment)
  . intro hnon d hd
    have hmem : d.move e.dir ∈ swMoves e.nonIncrAddr epAddr sds := by
      rw [← hmoves]
      exact List.mem_map_of_mem hd
    rw [hnon] at hmem
    simp only [swMoves, ↓reduceIte, placeFixed, List.mem_map] at hmem
    rcases hmem with ⟨seg, _, heq⟩
    rw [← heq]

include hs hdir

theorem xdmaXferSubmit_of_overlong (hne : 0 < sgl.length)
    (hinit : xdmaInitRequest p.descBlenMax (fun _ => true) sgl epAddr = .error .overlong)
    : ∃ drv, xdmaXferSubmit p (fun _ => true) s r write epAddr sgl dmaMapped env
        = some ⟨.error .enomem, [], drv⟩ := by
  unfold xdmaXferSubmit submitRequest
  rw [if_neg (by simp [hs.online]), if_neg (by simpa using hdir), if_neg (by omega)]
  dsimp only
  rw [hinit]
  exact ⟨_, rfl⟩

theorem xdmaXferSubmit_of_ok (hne : 0 < sgl.length) {req : XdmaRequestCb}
    (hinit : xdmaInitRequest p.descBlenMax (fun _ => true) sgl epAddr = .ok req)
    {l : SubmitLoop} {descs : List (List XdmaDesc)} {s' : Driver}
    (hloop : submitLoop p r dmaMapped env req.swDescCnt 0
      { s.mapSg r sgl with req := Function.update s.req r req } ⟨none, 0, req.swDescCnt⟩
      = some (l, descs, s'))
    : xdmaXferSubmit p (fun _ => true) s r write epAddr sgl dmaMapped env
        = some ⟨submitReturn l, descs, submitExit s' r dmaMapped⟩ := by
  unfold xdmaXferSubmit submitRequest
  rw [if_neg (by simp [hs.online]), if_neg (by simpa using hdir), if_neg (by omega)]
  dsimp only [Driver.mapSg] at hloop ⊢
  rw [hinit]
  dsimp only
  rw [hloop]

include hb hb' htotal

theorem xdmaXferSubmit_moves (hst : s.engine.streamC2h = false)
    (henv : ∀ k, (env k).Completes r) (hne : 0 < sgl.length)
    (hcount : sgEntries p.descBlenMax sgl < 2 ^ 31)
    : ∃ res, xdmaXferSubmit p (fun _ => true) s r write epAddr sgl dmaMapped env = some res
        ∧ res.MovesAll s.engine p.descBlenMax epAddr sgl := by
  rcases xdmaInitRequest_ok hb hb' htotal epAddr hcount with ⟨sds, hinit, hmem, hcells⟩
  have htot := swTotal_eq_sgTotal hcells
  have hready : Driver.Accepting
      { s.mapSg r sgl with req := Function.update s.req r ⟨epAddr, 0, sds⟩ } :=
    ⟨hs.online, hs.open_, hs.ring⟩
  have hlen : ∀ sd ∈ sds, sd.len < 2 ^ 32 := by
    intro sd hsd
    have hle := (hmem sd hsd).2
    simp only [xdmaDescBlenMax] at hb'
    omega
  rcases submitLoop_moves p dmaMapped henv sds.length 0 hready hst
    (l := ⟨none, 0, sds.length⟩) rfl (by simp [XdmaRequestCb.rest]) (Nat.le_refl _)
    (by simpa using hlen) (by simp [XdmaRequestCb.rest]; omega)
    with ⟨l, descs, s', hloop, hrv, hdone, hmoves⟩
  have hsubmit := xdmaXferSubmit_of_ok p s hs r write hdir epAddr sgl dmaMapped env hne hinit hloop
  simp only [Function.update_self, XdmaRequestCb.rest, List.drop_zero] at hdone hmoves
  have hret : submitReturn l = .ok (sgTotal sgl) := by
    unfold submitReturn
    rw [hdone, hrv, htot, Nat.zero_add]
    split
    . rfl
    . next h => exact congrArg Except.ok (not_ne_iff.mp h).symm
  exact ⟨_, hsubmit, movesAll_of_moves hret hmem hcells hmoves⟩

/--
The submission moves the scatter list exactly when the list is not empty and the number of entries
that the request asks for fits the `int` it is counted in.
-/
theorem xdmaXferSubmit_movesAll_iff (hn : sgl.length < 2 ^ 32)
    (hst : s.engine.streamC2h = false) (henv : ∀ k, (env k).Completes r)
    : (∃ res, xdmaXferSubmit p (fun _ => true) s r write epAddr sgl dmaMapped env = some res
        ∧ res.MovesAll s.engine p.descBlenMax epAddr sgl)
        ↔
      0 < sgl.length ∧ sgEntries p.descBlenMax sgl < 2 ^ 31 := by
  constructor
  . intro h
    rcases h with ⟨res, hres, hmoves⟩
    have hret := hmoves.ret
    by_cases hne : 0 < sgl.length
    . refine ⟨hne, ?_⟩
      by_contra hcount
      have hinit := xdmaInitRequest_overlong hb hb' htotal epAddr hn (not_lt.mp hcount)
      rcases xdmaXferSubmit_of_overlong p s hs r write hdir epAddr sgl dmaMapped env hne hinit
        with ⟨drv, hdrv⟩
      rw [hdrv, Option.some.injEq] at hres
      rw [← hres] at hret
      contradiction
    . unfold xdmaXferSubmit submitRequest at hres
      rw [if_neg (by simp [hs.online]), if_neg (by simpa using hdir), if_pos (by omega),
        Option.some.injEq] at hres
      rw [← hres] at hret
      contradiction
  . rintro ⟨hne, hcount⟩
    exact xdmaXferSubmit_moves p hb hb' s hs r write hdir epAddr sgl htotal dmaMapped env hst henv
      hne hcount

end XferSubmit

/-- The hardware that completes the transfer of request 0 before anything else happens. -/
def promptWait : Wait where
  hwQueue := ⟨0, 0, 0, 0⟩
  hwWake := ⟨0, 0, 0, 0⟩
  others := fun s => s.setXfer (.tfer 0 0) { s.xfer (.tfer 0 0) with state := .completed }

theorem promptWait_completes : promptWait.Completes 0 := by
  intro s hs _
  refine ⟨⟨hs.online, hs.open_, hs.ring⟩, rfl, rfl, ?_, ?_⟩ <;> simp [promptWait, Driver.setXfer]

/-- An H2C engine whose next free descriptor is the last but one of its ring. -/
def nearEndOfRing : Driver :=
  Driver.init { XdmaEngine.init .toDevice false 0x100000 0 with descIdx := 2046 }

theorem nearEndOfRing_accepting : nearEndOfRing.Accepting := ⟨rfl, rfl, by decide⟩

/-- Four descriptors, two on each side of the end of the ring. -/
theorem xdmaXferSubmit_movesAll_iff_end_of_ring
    : ∃ res, xdmaXferSubmit ⟨false, false, 4⟩ (fun _ => true) nearEndOfRing 0 true 0x40
          [⟨0x1000, 10⟩, ⟨0x8000, 0⟩, ⟨0x9000, 3⟩] true (fun _ => promptWait) = some res
        ∧ res.MovesAll nearEndOfRing.engine 4 0x40 [⟨0x1000, 10⟩, ⟨0x8000, 0⟩, ⟨0x9000, 3⟩] :=
  (xdmaXferSubmit_movesAll_iff ⟨false, false, 4⟩ (by decide) (by decide) nearEndOfRing
    nearEndOfRing_accepting 0 true rfl 0x40 _ (by decide) true _ (by decide) rfl
    (fun _ => promptWait_completes)).mpr ⟨by decide, by decide⟩

/--
One segment of `2 ^ 31 - 1` bytes cut into descriptors of one byte: `1 + (2 ^ 31 - 1)` entries
overflow `max`, and nothing is moved.
-/
theorem xdmaXferSubmit_not_movesAll
    : sgTotal [⟨0, 2 ^ 31 - 1⟩] < 2 ^ 31
        ∧ ¬ ∃ res, xdmaXferSubmit ⟨false, false, 1⟩ (fun _ => true) nearEndOfRing 0 true 0
            [⟨0, 2 ^ 31 - 1⟩] true (fun _ => promptWait) = some res
          ∧ res.MovesAll nearEndOfRing.engine 1 0 [⟨0, 2 ^ 31 - 1⟩] := by
  have htotal : sgTotal [⟨0, 2 ^ 31 - 1⟩] < 2 ^ 31 := by simp
  refine ⟨htotal, ?_⟩
  rintro ⟨res, hres, hmoves⟩
  have hinit := xdmaInitRequest_overlong (b := 1) (by omega) (by simp) htotal 0 (by simp)
    (by simp [sgEntries, sgExtra])
  rcases xdmaXferSubmit_of_overlong ⟨false, false, 1⟩ nearEndOfRing nearEndOfRing_accepting 0 true
    rfl 0 _ true (fun _ => promptWait) (by simp) hinit with ⟨drv, hdrv⟩
  rw [hdrv, Option.some.injEq] at hres
  have hret := hmoves.ret
  rw [← hres] at hret
  exact absurd hret (by simp only [reduceCtorEq, not_false_eq_true])

end Xdma
