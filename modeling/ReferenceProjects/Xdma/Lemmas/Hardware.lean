import Mathlib.Data.List.Zip
import ReferenceProjects.Xdma.Align
import ReferenceProjects.Xdma.Fault
import ReferenceProjects.Xdma.Impl.Hardware
import ReferenceProjects.Xdma.Lemmas.Submit
import ReferenceProjects.Xdma.Scatter
import ReferenceProjects.Xdma.Verdict

/-!
This module contains one round of the blocking submission with the engine at work beside it: what the
engine copies for the transfer that is queued, and what is left of that when the waiter goes on.
-/

namespace Xdma

open Copy

/-- Pairs of a byte of the host and one of the card, as an engine of a direction copies them. -/
def DmaDataDirection.orient (dir : DmaDataDirection) (pairs : List (BitVec 64 × BitVec 64))
    : List (BitVec 64 × BitVec 64) :=
  match dir with
  | .toDevice => pairs
  | .fromDevice => pairs.map Prod.swap

section Orient

variable (dir : DmaDataDirection)

theorem orient_toDevice (pairs : List (BitVec 64 × BitVec 64))
    : DmaDataDirection.toDevice.orient pairs = pairs := rfl

theorem orient_fromDevice (pairs : List (BitVec 64 × BitVec 64))
    : DmaDataDirection.fromDevice.orient pairs = pairs.map Prod.swap := rfl

@[simp]
theorem length_orient (pairs : List (BitVec 64 × BitVec 64))
    : (dir.orient pairs).length = pairs.length := by
  cases dir <;> simp [DmaDataDirection.orient]

theorem orient_append (pairs pairs' : List (BitVec 64 × BitVec 64))
    : dir.orient (pairs ++ pairs') = dir.orient pairs ++ dir.orient pairs' := by
  cases dir <;> simp [DmaDataDirection.orient]

theorem copies_eq_orient (d : XdmaDesc)
    : d.copies = dir.orient (d.move dir).pairs := by
  cases dir with
  | toDevice => rfl
  | fromDevice =>
    unfold XdmaDesc.copies DmaDataDirection.orient Move.pairs XdmaDesc.move
    dsimp only
    rw [List.zip_swap]

theorem flatMap_copies (ds : List XdmaDesc)
    : ds.flatMap XdmaDesc.copies = dir.orient ((ds.map (XdmaDesc.move dir)).flatMap Move.pairs) := by
  induction ds with
  | nil => cases dir <;> rfl
  | cons d ds ih =>
    rw [List.flatMap_cons, List.map_cons, List.flatMap_cons, orient_append, ← ih,
      ← copies_eq_orient]

end Orient

namespace Memories

variable (m : Memories) (dir : DmaDataDirection)

@[simp]
theorem dma_nil : m.dma dir [] = m := by
  cases dir <;> rfl

/-- An engine does not write the memory that it reads. -/
theorem dma_append (copies copies' : List (BitVec 64 × BitVec 64))
    : m.dma dir (copies ++ copies') = (m.dma dir copies).dma dir copies' := by
  cases dir <;> simp only [dma, store_append]

end Memories

/-- An engine without work that takes transfers, of the memory-mapped kind. -/
structure Driver.Quiet (s : Driver) : Prop extends s.Accepting where
  running : s.engine.running = false
  queue : s.engine.transferList = []
  memoryMapped : s.engine.streaming = false
  eopFlush : s.engine.eopFlush = false

theorem Driver.Quiet.streamC2h {s : Driver} (h : s.Quiet) : s.engine.streamC2h = false := by
  unfold XdmaEngine.streamC2h
  rw [h.memoryMapped, Bool.false_and]

/--
The services of a transfer that started on an idle engine lead from `q` to `s`: it is still queued, or has
its verdict and the engine is idle again.
-/
structure Serviced (q s : Driver) (t : XferPtr) : Prop where
  eq : s = { q with
    engine := { q.engine with
      shutdown := { q.engine.shutdown with idle := s.engine.shutdown.idle }
      running := s.engine.running
      descDequeued := s.engine.descDequeued
      status := s.engine.status
      transferList := s.engine.transferList
      xdmaPerf := s.engine.xdmaPerf
      regs := s.engine.regs
    }
    xfer := s.xfer
    hist := s.hist
  }
  xfer : s.xfer t = { q.xfer t with
    state := (s.xfer t).state
    descCmpl := (s.xfer t).descCmpl
    flags := (s.xfer t).flags
  }
  queue : s.engine.transferList = [t] ∧ s.xfer t = q.xfer t
      ∧ s.engine.descDequeued = q.engine.descDequeued
    ∨ s.engine.transferList = [] ∧ s.engine.running = false ∧ (s.xfer t).Settled

/-- A transfer that was queued for a blocking submission on an idle engine. -/
structure QueuedAlone (q : Driver) (t : XferPtr) (n : Nat) : Prop where
  open_ : q.engine.shutdown.request = false
  eopFlush : q.engine.eopFlush = false
  list : q.engine.transferList = [t]
  dequeued : q.engine.descDequeued = 0
  state : (q.xfer t).state = .submitted
  cb : (q.xfer t).cb = none
  num : (q.xfer t).descNum = n
  pos : 0 < n
  ring : n ≤ 2048

section Service

variable (p : ModuleParam) {q s : Driver} {t : XferPtr} {n : Nat}

theorem Serviced.refl (h : QueuedAlone q t n) : Serviced q q t where
  eq := rfl
  xfer := rfl
  queue := Or.inl ⟨h.list, rfl, rfl⟩

/-- The bookkeeping of a service leaves a transfer where it is. -/
theorem Serviced.regs {s' : Driver} (h : Serviced q s t) (hregs : ServiceRegs s s')
    (hdeq : s'.engine.descDequeued = s.engine.descDequeued)
    : Serviced q s' t := by
  have hrun := hregs.running
  have heq := hregs.eq
  constructor
  . rw [heq, h.eq]
  . rw [heq]
    exact h.xfer
  . have hlist : s'.engine.transferList = s.engine.transferList := by rw [heq]
    have hxfer : s'.xfer = s.xfer := by rw [heq]
    rw [hlist, hxfer, hdeq]
    cases h.queue with
    | inl hwait => exact Or.inl hwait
    | inr hdone =>
      refine Or.inr ⟨hdone.1, ?_, hdone.2.2⟩
      by_contra hrun'
      have := hrun (by simpa using hrun')
      rw [hdone.2.1] at this
      contradiction

/--
The service from a count on: the transfer at the head gets its verdict, and completes only if the count
is that of its descriptors.
-/
theorem Serviced.count {m : Driver} (hq : QueuedAlone q t n) (hm : Serviced q m t)
    (hlist : m.engine.transferList = [t] ∧ m.xfer t = q.xfer t
      ∧ m.engine.descDequeued = q.engine.descDequeued)
    {descCount : BitVec 32} (hle : descCount.toNat ≤ n) (hw : HwRegs)
    : let s' := engineServiceCount p m descCount hw
      Serviced q s' t ∧ s'.engine.transferList = []
        ∧ ((s'.xfer t).state = .completed → descCount.toNat = n)
        ∧ ((s'.xfer t).state = .failed →
            statusError m.engine m.engine.status ∨ descCount.toNat ≠ n) := by
  intro s'
  have hring := hq.ring
  have hnum : (BitVec.ofNat 32 n).toNat = n := by
    rw [BitVec.toNat_ofNat]
    omega
  have hnum' : (m.xfer t).descNum = n := by rw [hlist.2.1, hq.num]
  have hdeq : m.engine.descDequeued = 0 := by rw [hlist.2.2, hq.dequeued]
  have heop : m.engine.eopFlush = false := by rw [hm.eq]; exact hq.eopFlush
  have hperf := engineServicePerf_eq m descCount
  generalize hk : engineServicePerf m descCount = k at hperf
  have hregs : ServiceRegs m k := by
    rw [← hk]
    apply engineServicePerf_regs
  have hkxfer : k.xfer t = m.xfer t := by rw [hperf]
  rcases @finalVerdict_of_not_eopFlush p k (by rw [hperf]; exact heop) t descCount with
    ⟨d, xfer', hfinal, hdregs, hverdict, _, hcompl, hfail⟩
  rw [hkxfer] at hverdict hcompl hfail
  -- the only transfer is the last one
  have hserved : countServed p hw m descCount
      = engineTransferCompletion p (d.setXfer t xfer').listDel t hw := by
    have hhead := @countServed_head p hw m t [] descCount hlist.1
    have hzero : descCount - 0 = descCount := by simp
    dsimp only at hhead
    rw [hk, hdeq, hzero, engineServiceTransferList_stop (by
      rw [hkxfer, hnum', BitVec.le_def, hnum]
      exact Or.inr hle)] at hhead
    rw [hhead]
    unfold engineServiceFinalTransfer
    dsimp only
    rw [hfinal]
  have hcb : ((d.setXfer t xfer').listDel.xfer t).cb = none := by
    show (Function.update d.xfer t xfer' t).cb = none
    rw [Function.update_self, hverdict.eq, hlist.2.1]
    exact hq.cb
  rw [engineTransferCompletion_of_blocking p hw hcb] at hserved
  generalize hc : countServed p hw m descCount = c at hserved
  have hclist : c.engine.transferList = [] := by
    have hdlist : d.engine.transferList = m.engine.transferList := by rw [hdregs.eq, hregs.eq]
    rw [hserved]
    show d.engine.transferList.tail = []
    rw [hdlist, hlist.1]
    rfl
  have hcxfer : c.xfer t = xfer' := by
    rw [hserved]
    apply Function.update_self
  have hceop : c.engine.eopFlush = false := by
    rw [hserved]
    show d.engine.eopFlush = false
    rw [hdregs.eq, hregs.eq]
    exact heop
  have hs' : s' = engineServiceResume p c hw := by
    show engineServiceCount p m descCount hw = _
    rw [engineServiceCount_eq, hc, if_neg (by simp [hceop])]
  cases engineServiceResume_cases p hw c with
  | inl hstart =>
    have hnone := (engineStart_none_iff p c hw).mpr (Or.inr hclist)
    rw [hstart.2] at hnone
    contradiction
  | inr hrest =>
    obtain ⟨hresume, _, hrun⟩ := hrest
    rw [← hs'] at hresume hrun
    have hlist' : s'.engine.transferList = [] := by
      rw [hresume.eq]
      exact hclist
    have hxfer' : s'.xfer t = xfer' := by
      rw [hresume.eq]
      exact hcxfer
    refine ⟨⟨?_, ?_, ?_⟩, hlist', ?_, ?_⟩
    . rw [hresume.eq, hserved, hdregs.eq, hregs.eq, hm.eq]
      rfl
    . rw [hxfer', hverdict.eq, hlist.2.1]
    . refine Or.inr ⟨hlist', ?_, ?_⟩
      . by_contra h
        exact hrun (by simpa using h) hclist
      . rw [hxfer']
        exact hverdict.settled
    . intro hstate
      rw [hxfer'] at hstate
      have hge := hcompl hstate
      rw [hnum', BitVec.lt_def, hnum] at hge
      omega
    . intro hstate
      rw [hxfer'] at hstate
      have hreason := hfail hstate
      rw [hnum', BitVec.lt_def, hnum, hperf] at hreason
      apply hreason.imp_right
      intro hlt heq
      omega

theorem Serviced.step (hq : QueuedAlone q t n) (h : Serviced q s t)
    (descWriteback : BitVec 32) (hw : HwRegs) (hle : (serviceCount descWriteback hw).toNat ≤ n)
    : let s' := engineService p s descWriteback hw
      Serviced q s' t
        ∧ ((s'.xfer t).state = .completed →
            (s.xfer t).state = .completed ∨ (serviceCount descWriteback hw).toNat = n) := by
  intro s'
  by_cases hrun : s.engine.running = true
  . have hs' : s' = if serviceCount descWriteback hw = 0 then
          engineServiceStatus p s descWriteback hw
        else
          engineServiceCount p (engineServiceStatus p s descWriteback hw)
            (serviceCount descWriteback hw) hw := by
      show engineService p s descWriteback hw = _
      unfold engineService
      rw [if_neg (by simp [hrun])]
    have hlist := h.queue.resolve_right (by simp [hrun])
    have hregs := engineServiceStatus_regs p hw s descWriteback
    have hdeq := engineServiceStatus_dequeued p hw s descWriteback
    have hm := h.regs hregs hdeq
    generalize engineServiceStatus p s descWriteback hw = m at *
    have hmxfer : m.xfer = s.xfer := by rw [hregs.eq]
    rw [hs']
    split
    . exact ⟨hm, fun hstate => Or.inl (by rwa [hmxfer] at hstate)⟩
    . have hmlist : m.engine.transferList = s.engine.transferList := by rw [hregs.eq]
      have hcount := Serviced.count p hq hm
        (by rw [hmlist, hmxfer, hdeq]; exact hlist) hle hw
      exact ⟨hcount.1, fun hstate => Or.inr (hcount.2.2.1 hstate)⟩
  . have hs' : s' = { s with engine.status := hw.statusRc } := by
      show engineService p s descWriteback hw = _
      unfold engineService
      rw [if_pos (by simp [hrun])]
    rw [hs']
    exact ⟨h.regs ⟨rfl, id⟩ rfl, Or.inl⟩

/-- Any number of services; the transfer completes only in one that counts all its descriptors. -/
theorem Serviced.run (hq : QueuedAlone q t n) (services : List (BitVec 32 × HwRegs))
    (hle : ∀ x ∈ services, (serviceCount x.1 x.2).toNat ≤ n) (h : Serviced q s t)
    : let s' := services.foldl (fun s x => engineService p s x.1 x.2) s
      Serviced q s' t
        ∧ ((s'.xfer t).state = .completed →
            (s.xfer t).state = .completed
              ∨ ∃ x ∈ services, (serviceCount x.1 x.2).toNat = n) := by
  induction services generalizing s with
  | nil => exact ⟨h, Or.inl⟩
  | cons x services ih =>
    rw [List.forall_mem_cons] at hle
    have hstep := h.step p hq x.1 x.2 hle.1
    have hrest := ih hle.2 hstep.1
    refine ⟨hrest.1, ?_⟩
    intro hstate
    cases hrest.2 hstate with
    | inl hmid =>
      cases hstep.2 hmid with
      | inl hfirst => exact Or.inl hfirst
      | inr hcount => exact Or.inr ⟨x, List.mem_cons_self, hcount⟩
    | inr hlater =>
      obtain ⟨y, hy, hcount⟩ := hlater
      exact Or.inr ⟨y, List.mem_cons_of_mem _ hy, hcount⟩

end Service

/-- One service that counts everything and finds no error. -/
structure EngineTurn.Prompt (h : EngineTurn) : Prop where
  queue : ∀ e, ¬ statusError e h.hwQueue.status
  service : ∀ e slots, e.fetched = some slots → ∃ descWriteback hw,
    h.services e = [(descWriteback, hw)]
      ∧ (serviceCount descWriteback hw).toNat = slots.length ∧ ¬ statusError e hw.statusRc

theorem Serviced.prompt (p : ModuleParam) {h : EngineTurn} (hprompt : h.Prompt) {q : Driver}
    {t : XferPtr} {n : Nat} (hq : QueuedAlone q t n) (hrun : q.engine.running = true)
    (hstatus : q.engine.status = h.hwQueue.status) {slots : List Nat}
    (hslots : q.engine.fetched = some slots) (hlength : slots.length = n)
    : ((h.others p q).xfer t).state = .completed := by
  have hpos := hq.pos
  rcases hprompt.service q.engine slots hslots with ⟨descWriteback, hw, hservices, hcount, herr⟩
  rw [hlength] at hcount
  have hne : serviceCount descWriteback hw ≠ 0 := by
    intro hzero
    have hcount' : (0 : BitVec 32).toNat = n := by rw [← hzero, hcount]
    rw [show (0 : BitVec 32).toNat = 0 from rfl] at hcount'
    omega
  have hothers : h.others p q = engineServiceCount p (engineServiceStatus p q descWriteback hw)
      (serviceCount descWriteback hw) hw := by
    unfold EngineTurn.others
    rw [hservices]
    show engineService p q descWriteback hw = _
    unfold engineService
    rw [if_neg (by simp [hrun])]
    dsimp only
    rw [if_neg hne]
  have hread : (engineServiceStatus p q descWriteback hw).engine.status = hw.statusRc
      ∨ (engineServiceStatus p q descWriteback hw).engine.status = q.engine.status := by
    unfold engineServiceStatus engineServiceShutdown
    dsimp only
    split <;> split <;> first | exact Or.inl rfl | exact Or.inr rfl
  have hregs := engineServiceStatus_regs p hw q descWriteback
  have hdeq := engineServiceStatus_dequeued p hw q descWriteback
  have hm := (Serviced.refl hq).regs hregs hdeq
  generalize engineServiceStatus p q descWriteback hw = m at *
  have hmlist : m.engine.transferList = [t] ∧ m.xfer t = q.xfer t
      ∧ m.engine.descDequeued = q.engine.descDequeued := by
    refine ⟨?_, ?_, hdeq⟩
    . rw [hregs.eq]
      exact hq.list
    . rw [hregs.eq]
  have hverdict := Serviced.count p hq hm hmlist (Nat.le_of_eq hcount) hw
  rw [← hothers] at hverdict
  obtain ⟨hserved, hnil, _, hfail⟩ := hverdict
  have hsettled : ((h.others p q).xfer t).Settled := by
    cases hserved.queue with
    | inl hwait =>
      rw [hnil] at hwait
      simp at hwait
    | inr hdone => exact hdone.2.2
  cases hsettled with
  | inl hcompl => exact hcompl
  | inr hstate =>
    have hdir : m.engine.dir = q.engine.dir := by rw [hregs.eq]
    unfold statusError at hfail herr
    rw [hdir] at hfail
    cases hfail hstate with
    | inl hbad =>
      cases hread with
      | inl hrc => rw [hrc] at hbad; exact absurd hbad herr
      | inr hold =>
        rw [hold, hstatus] at hbad
        exact absurd hbad (hprompt.queue q.engine)
    | inr hmiss => exact absurd hcount hmiss

theorem engineStart_control {p : ModuleParam} {s s' : Driver} {hw : HwRegs}
    (hstart : engineStart p s hw = some s')
    : s'.engine.regs.control &&& xdmaCtrlRunStop ≠ 0 := by
  have hword (nonIncrAddr : Bool)
      : (if nonIncrAddr then xdmaCtrlRunStop ||| ctrlCommon p ||| xdmaCtrlNonIncrAddr
          else xdmaCtrlRunStop ||| ctrlCommon p) &&& xdmaCtrlRunStop ≠ 0 := by
    unfold ctrlCommon
    cases nonIncrAddr <;> cases p.pollMode <;> decide
  unfold engineStart at hstart
  split at hstart
  . contradiction
  . split at hstart
    . contradiction
    . simp only [engineStartModeConfig, Driver.writeControl, Option.some.injEq] at hstart
      rw [← hstart]
      split <;> split <;> exact hword s.engine.nonIncrAddr

section Queue

variable (p : ModuleParam) {s : Driver} (hs : s.Quiet) {r : Nat} (dmaMapped : Bool) (nents : Nat)
variable (hrest : (s.req r).rest ≠ [])

include hs hrest

/-- The transfer that the submit loop queues on an idle engine. -/
theorem submitInit_queuedAlone (hw : HwRegs)
    : let t := XferPtr.tfer r 0
      let m := (submitInit s r t none dmaMapped nents).1
      let n := transferDescMax s.engine (s.req r)
      ∃ q, transferQueue p m t hw = .ok q
        ∧ engineStart p (m.enqueue t) hw = some q
        ∧ QueuedAlone q t n := by
  have hcnt : (s.req r).swDescIdx < (s.req r).swDescCnt := by
    have := List.length_pos_of_ne_nil hrest
    simp only [XdmaRequestCb.rest, List.length_drop] at this
    unfold XdmaRequestCb.swDescCnt
    omega
  have hpos := transferDescMax_pos s.engine (s.req r) hs.ring hcnt
  have hring := transferDescMax_ring s.engine (s.req r) hs.ring
  have hxfer := submitInit_xfer s r (.tfer r 0) none dmaMapped nents
  have hnew := submitInit_new s r (.tfer r 0) none dmaMapped nents
  have hengine := submitInit_engine s r (.tfer r 0) none dmaMapped nents
  have heop : (submitInit s r (.tfer r 0) none dmaMapped nents).1.engine.eopFlush = false := by
    rw [hengine]
    exact hs.eopFlush
  have hlist : (submitInit s r (.tfer r 0) none dmaMapped nents).1.engine.transferList = [] := by
    rw [hengine]
    exact hs.queue
  have hrun : (submitInit s r (.tfer r 0) none dmaMapped nents).1.engine.running = false := by
    rw [hengine]
    exact hs.running
  rcases submitInit_queue p dmaMapped hs.toAccepting nents hrest hw with ⟨q, hqueue, hacc, _⟩
  dsimp only at hxfer hnew ⊢
  rw [transferInit_xfer] at hxfer
  generalize (submitInit s r (.tfer r 0) none dmaMapped nents).1 = m at *
  have hlocked := (transferQueue_ok hqueue).2.2
  rcases transferQueueLocked_cases hlocked with ⟨_, ⟨hrun', _⟩ | ⟨_, hstart⟩⟩
  . rw [hrun] at hrun'
    contradiction
  . refine ⟨q, hqueue, hstart, ?_⟩
    rcases engineStart_eq hstart with ⟨_, _, _, _, heq⟩
    have hqxfer : q.xfer (.tfer r 0) = { m.xfer (.tfer r 0) with state := .submitted } := by
      rw [heq]
      exact Function.update_self _ _ _
    refine ⟨hacc.open_, ?_, ?_, ?_, ?_, ?_, ?_, hpos, by omega⟩
    . rw [heq]
      exact heop
    . rw [heq]
      show m.engine.transferList ++ [_] = _
      rw [hlist]
      rfl
    . rw [heq]
    . rw [hqxfer]
    . rw [hqxfer]
      exact hnew.2.1
    . rw [hqxfer]
      exact hxfer.2.1

/-- The engine fetches the descriptors of that transfer, and copies what they say. -/
theorem submitInit_fetched (hlen : ∀ sd ∈ (s.req r).sdesc, sd.len < 2 ^ 32) {hw : HwRegs} {q : Driver}
    (hstart : engineStart p
      ((submitInit s r (.tfer r 0) none dmaMapped nents).1.enqueue (.tfer r 0)) hw = some q)
    : let slots := List.range' s.engine.descIdx (transferDescMax s.engine (s.req r))
      q.engine.fetched = some slots
        ∧ q.engine.copies slots
          = s.engine.dir.orient ((swMoves s.engine.nonIncrAddr (s.req r).epAddr
              (transferSdesc s.engine (s.req r))).flatMap Move.pairs) := by
  have hcnt : (s.req r).swDescIdx < (s.req r).swDescCnt := by
    have := List.length_pos_of_ne_nil hrest
    simp only [XdmaRequestCb.rest, List.length_drop] at this
    unfold XdmaRequestCb.swDescCnt
    omega
  have hpos := transferDescMax_pos s.engine (s.req r) hs.ring hcnt
  have hring := transferDescMax_ring s.engine (s.req r) hs.ring
  have hengine := submitInit_engine s r (.tfer r 0) none dmaMapped nents
  have hmoves := transferInit_moves s.engine (s.req r) hs.ring hs.streamC2h hlen
  have hxfer : ((submitInit s r (.tfer r 0) none dmaMapped nents).1.enqueue (.tfer r 0)).xfer (.tfer r 0)
      = { (submitInit s r (.tfer r 0) none dmaMapped nents).1.xfer (.tfer r 0) with
          state := .submitted } := Function.update_self _ _ _
  have hstarted : ((submitInit s r (.tfer r 0) none dmaMapped nents).1.xfer (.tfer r 0)).descBus
        = slotAddr s.engine s.engine.descIdx
      ∧ ((submitInit s r (.tfer r 0) none dmaMapped nents).1.xfer (.tfer r 0)).descAdjacent
        = transferDescMax s.engine (s.req r) := by
    have hinit := transferInit_xfer s.engine (s.req r)
    simp only [submitInit, Driver.setXfer, Driver.transferInit, Function.update_self]
    split <;> split <;> (rw [hinit]; exact ⟨rfl, rfl⟩)
  have hlist : ((submitInit s r (.tfer r 0) none dmaMapped nents).1.enqueue (.tfer r 0)).engine.transferList
      = [.tfer r 0] := by
    show _ ++ [_] = _
    rw [hengine]
    show s.engine.transferList ++ [_] = _
    rw [hs.queue]
    rfl
  have hchain := transferInit_chained s.engine (s.req r) hs.ring
  generalize (submitInit s r (.tfer r 0) none dmaMapped nents).1 = m at *
  have hrun := engineStart_control hstart
  rcases engineStart_regs hlist hstart with ⟨hlo, hhi, hfirst⟩
  rcases engineStart_eq hstart with ⟨_, _, _, _, heq⟩
  rw [hxfer] at hlo hhi hfirst
  dsimp only at hlo hhi hfirst
  rw [hstarted.1] at hlo hhi hfirst
  rw [hstarted.2] at hfirst
  have hqdesc : q.engine.desc = (transferInit s.engine (s.req r)).1.desc := by
    rw [heq, ← hengine]
    rfl
  have hqbus : q.engine.descBus = s.engine.descBus := by
    rw [heq]
    show m.engine.descBus = _
    rw [hengine]
    rfl
  have hqeop : q.engine.eopFlush = s.engine.eopFlush := by
    rw [heq]
    show m.engine.eopFlush = _
    rw [hengine]
    rfl
  have haddr : slotAddr q.engine = slotAddr s.engine := by
    funext k
    simp only [slotAddr, hqbus]
  constructor
  . have hwalk := (hchain.congr hqdesc hqbus hqeop).walk 0 xdmaTransferMaxDesc hpos
      (by simp only [xdmaTransferMaxDesc]; omega)
    rw [haddr, Nat.add_zero, Nat.sub_zero] at hwalk
    rcases hwalk with ⟨blocks, hfetch, hflat, _⟩
    unfold XdmaEngine.fetched
    rw [if_neg hrun, hlo, hhi, hfirst, pciDmaH_append_pciDmaL, hfetch]
    exact congrArg some hflat
  . unfold XdmaEngine.copies
    rw [hqdesc, ← hmoves, List.range'_eq_map_range, List.flatMap_map]
    have hdescs := flatMap_copies s.engine.dir ((List.range (transferDescMax s.engine (s.req r))).map
      (fun i => (transferInit s.engine (s.req r)).1.desc (s.engine.descIdx + i)))
    rw [List.flatMap_map, List.map_map] at hdescs
    exact hdescs

end Queue

/-- The bytes of the host and the card that software descriptors connect. -/
def swPairs (nonIncrAddr : Bool) (epAddr : BitVec 64) (sds : List SwDesc)
    : List (BitVec 64 × BitVec 64) :=
  (swMoves nonIncrAddr epAddr sds).flatMap Move.pairs

theorem swPairs_append (nonIncrAddr : Bool) (epAddr : BitVec 64) (sds sds' : List SwDesc)
    : swPairs nonIncrAddr epAddr (sds ++ sds')
        =
      swPairs nonIncrAddr epAddr sds
        ++ swPairs nonIncrAddr (swEpAddr nonIncrAddr epAddr sds) sds' := by
  unfold swPairs
  rw [swMoves_append, List.flatMap_append]

theorem length_swPairs (nonIncrAddr : Bool) (epAddr : BitVec 64) (sds : List SwDesc)
    : (swPairs nonIncrAddr epAddr sds).length = swTotal sds := by
  induction sds generalizing epAddr with
  | nil => simp [swPairs]
  | cons sd sds ih =>
    have hhead : (Move.pairs (⟨sd.addr, epAddr, sd.len⟩ : Move (BitVec 64) (BitVec 64))).length
        = sd.len := by
      simp [Move.pairs]
    have htail := ih (swEpAddr nonIncrAddr epAddr [sd])
    unfold swPairs at htail ⊢
    rw [swMoves_cons, List.flatMap_cons, List.length_append, htail, hhead, swTotal_cons]

/--
What the submit loop leaves behind after the transfer `t`: the engine is idle again, the state and the
length of the transfer are those that the waiter looked at.
-/
theorem Serviced.leave (p : ModuleParam) {q o : Driver} {r n : Nat}
    (hq : QueuedAlone q (.tfer r 0) n) (ho : Serviced q o (.tfer r 0)) {hw : HwRegs}
    (hpresent : engineRegDump hw = .ok ()) (honline : q.offline = false)
    (hring : q.engine.descIdx < 2048) (hmm : q.engine.streaming = false)
    : let s' := submitDestroy (submitWake p o (.tfer r 0) hw) (.tfer r 0)
      s'.Quiet ∧ s'.engine.config = q.engine.config ∧ s'.req = q.req := by
  intro s'
  have hshape : ∃ w : Driver, submitWake p o (.tfer r 0) hw = w
      ∧ w = { q with
          engine := { q.engine with
            shutdown := { q.engine.shutdown with idle := w.engine.shutdown.idle }
            running := false
            descDequeued := w.engine.descDequeued
            status := w.engine.status
            transferList := []
            xdmaPerf := w.engine.xdmaPerf
            regs := w.engine.regs
          }
          xfer := w.xfer
          hist := w.hist
        } := by
    refine ⟨_, rfl, ?_⟩
    have heq := ho.eq
    by_cases hsettled : (o.xfer (.tfer r 0)).Settled
    . -- the engine is idle already
      have hidle := ho.queue.resolve_left (by
        rintro ⟨_, hx, _⟩
        rw [hx] at hsettled
        unfold XdmaTransfer.Settled at hsettled
        rw [hq.state] at hsettled
        simp at hsettled)
      rw [submitWake_of_settled p hsettled]
      rw [hidle.1, hidle.2.1] at heq
      exact heq
    . -- the waiter aborts the transfer and stops the engine
      have hwait := ho.queue.resolve_right (by
        rintro ⟨_, _, h⟩
        exact hsettled h)
      have hstate : (o.xfer (.tfer r 0)).state = .submitted := by rw [hwait.2.1, hq.state]
      have hnum : (o.xfer (.tfer r 0)).descNum ≠ 0 := by
        rw [hwait.2.1, hq.num]
        exact Nat.ne_of_gt hq.pos
      have hid : hw.identifier &&& blockIdMask = blockIdHead := by
        unfold engineRegDump at hpresent
        by_contra h
        rw [if_pos h] at hpresent
        contradiction
      have hunlink : unlinkHead (.tfer r 0) [.tfer r 0] = [] := by simp [unlinkHead]
      have hwake : submitWake p o (.tfer r 0) hw
          = xdmaEngineStop p (({ o with
              engine.status := hw.status
              engine.transferList := [] } : Driver).setXfer (.tfer r 0)
                { o.xfer (.tfer r 0) with state := .aborted }) := by
        unfold submitWake submitTimeout
        rw [hstate]
        dsimp only
        rw [engineStatusRead_dump, if_neg (by simp [hid])]
        dsimp only
        unfold transferAbort
        dsimp only
        rw [if_neg hnum, if_pos hstate, hwait.1, hunlink]
      rw [hwake, heq]
      rfl
  rcases hshape with ⟨w, hw', hshape⟩
  have hs' : s' = submitDestroy w (.tfer r 0) := by rw [← hw']
  rw [submitDestroy_eq, hshape] at hs'
  rw [hs']
  refine ⟨⟨⟨honline, hq.open_, hring⟩, rfl, rfl, hmm, hq.eopFlush⟩, rfl, rfl⟩

theorem orient_take (dir : DmaDataDirection) (pairs : List (BitVec 64 × BitVec 64)) (k : Nat)
    : (dir.orient pairs).take k = dir.orient (pairs.take k) := by
  cases dir <;> simp [DmaDataDirection.orient]

section Loop

variable (p : ModuleParam) {r : Nat} (dmaMapped : Bool) (hw : Nat → EngineTurn)

/-- The bytes that the next transfer of request `r` connects. -/
def nextPairs (s : Driver) (r : Nat) : List (BitVec 64 × BitVec 64) :=
  swPairs s.engine.nonIncrAddr (s.req r).epAddr (transferSdesc s.engine (s.req r))

/--
What one round of the submit loop comes to: the first `moved` bytes of the transfer are copied, all of
them if the loop goes on.
-/
structure RoundDone (s s' : Driver) (r : Nat) (turn : EngineTurn) (l l' : SubmitLoop) (moved : Nat)
    : Prop where
  quiet : s'.Quiet
  config : s'.engine.config = s.engine.config
  req : s'.req r = (transferInit s.engine (s.req r)).2.1
  nents : l'.nents = (s'.req r).rest.length
  le : moved ≤ (nextPairs s r).length
  verdict : l'.rv = none ∧ l'.done = l.done + moved ∧ moved = (nextPairs s r).length
    ∨ l'.rv ≠ none ∧ l'.done = l.done ∧ ¬ turn.Prompt

theorem submitLoopDma_succ (fuel k : Nat) (s : Driver) (m : Memories) {l : SubmitLoop}
    (hpos : l.nents ≠ 0) {q : Driver} {slots : List Nat}
    (hqueue : transferQueue p (submitInit s r (.tfer r 0) none dmaMapped l.nents).1 (.tfer r 0)
      (hw k).hwQueue = .ok q)
    (hslots : q.engine.fetched = some slots)
    : submitLoopDma p r dmaMapped hw (fuel + 1) k s m l
        =
      let nents := (submitInit s r (.tfer r 0) none dmaMapped l.nents).2
      let m' := m.dma q.engine.dir ((q.engine.copies slots).take ((hw k).bytes q.engine))
      let o := (hw k).others p q
      let l' := submitSwitch o.engine (o.xfer (.tfer r 0)) { l with nents := nents }
      let s' := submitDestroy (submitWake p o (.tfer r 0) (hw k).hwWake) (.tfer r 0)
      if l'.rv.isSome then
        some (l', s', m')
      else
        submitLoopDma p r dmaMapped hw fuel (k + 1) s' m' l' := by
  rw [submitLoopDma, if_neg hpos]
  dsimp only
  rw [hqueue]
  dsimp only [EngineTurn.dma]
  rw [hslots]
  rfl

theorem submitLoopDma_round (fuel k : Nat) {s : Driver} (hs : s.Quiet) (m : Memories)
    {l : SubmitLoop} (hnents : l.nents = (s.req r).rest.length) (hpos : l.nents ≠ 0)
    (hlen : ∀ sd ∈ (s.req r).sdesc, sd.len < 2 ^ 32) (htotal : swTotal (s.req r).rest < 2 ^ 32)
    : ∃ s' l' moved, RoundDone s s' r (hw k) l l' moved
        ∧ submitLoopDma p r dmaMapped hw (fuel + 1) k s m l
          =
        let m' := m.dma s.engine.dir (s.engine.dir.orient ((nextPairs s r).take moved))
        if l'.rv.isSome then
          some (l', s', m')
        else
          submitLoopDma p r dmaMapped hw fuel (k + 1) s' m' l' := by
  have hrest : (s.req r).rest ≠ [] := by
    intro hnil
    rw [hnil] at hnents
    exact hpos hnents
  have hmod : swTotal (transferSdesc s.engine (s.req r)) % 2 ^ 32 = (nextPairs s r).length := by
    unfold nextPairs
    rw [length_swPairs]
    apply Nat.mod_eq_of_lt
    rw [XdmaRequestCb.rest_transferInit s.engine] at htotal
    simp only [swTotal, total, List.map_append, List.sum_append] at htotal ⊢
    omega
  rcases submitInit_queuedAlone p hs dmaMapped l.nents hrest (hw k).hwQueue with
    ⟨q, hqueue, hstart, hq⟩
  rcases submitInit_queue p dmaMapped hs.toAccepting l.nents hrest (hw k).hwQueue with
    ⟨q', hqueue', hqacc, _, hqcfg, hqreq, hqlen⟩
  rw [hqueue, Except.ok.injEq] at hqueue'
  subst hqueue'
  obtain ⟨hfetched, hcopies⟩ := submitInit_fetched p hs dmaMapped l.nents hrest hlen hstart
  have hround := submitLoopDma_succ p dmaMapped hw fuel k s m hpos hqueue hfetched
  have hnents' := submitInit_nents s r (.tfer r 0) none dmaMapped l.nents
  have hless := XdmaRequestCb.length_rest_transferInit s.engine (s.req r)
  rcases engineStart_eq hstart with ⟨_, _, _, _, heq⟩
  have hqrun : q.engine.running = true := by rw [heq]
  have hqstatus : q.engine.status = (hw k).hwQueue.status := by rw [heq]
  have hqcfg' := hqcfg
  simp only [XdmaEngine.config, Prod.mk.injEq] at hqcfg'
  have hslots : (List.range' s.engine.descIdx (transferDescMax s.engine (s.req r))).length
      = transferDescMax s.engine (s.req r) := List.length_range'
  have hhonest := (hw k).honest q.engine _ hfetched
  rw [hslots, hcopies, length_orient] at hhonest
  have hserved := Serviced.run p hq ((hw k).services q.engine) (fun x hx => (hhonest x hx).1)
    (Serviced.refl hq)
  change Serviced q ((hw k).others p q) (.tfer r 0) ∧ _ at hserved
  obtain ⟨hserved, hcompl⟩ := hserved
  have hprompt := fun h : (hw k).Prompt => Serviced.prompt p h hq hqrun hqstatus hfetched hslots
  have hleave := Serviced.leave p hq hserved (hw k).present hqacc.online hqacc.ring
    (by rw [hqcfg'.2.1]; exact hs.memoryMapped)
  have hstream : ((hw k).others p q).engine.streamC2h = false := by
    rw [hserved.eq]
    show (q.engine.streaming && _) = false
    rw [hqcfg'.2.1, hs.memoryMapped, Bool.false_and]
  have hxlen : (((hw k).others p q).xfer (.tfer r 0)).len = (nextPairs s r).length := by
    rw [hserved.xfer, ← hmod]
    exact hqlen
  have hcompl' : (((hw k).others p q).xfer (.tfer r 0)).state = .completed →
      (nextPairs s r).length ≤ (hw k).bytes q.engine := by
    intro hstate
    cases hcompl hstate with
    | inl hq' =>
      rw [hq.state] at hq'
      contradiction
    | inr hall =>
      obtain ⟨x, hx, hcount⟩ := hall
      exact (hhonest x hx).2 hcount
  dsimp only at hround hleave
  rw [hcopies, orient_take, hqcfg'.1] at hround
  generalize (hw k).others p q = o at *
  generalize submitDestroy (submitWake p o (.tfer r 0) (hw k).hwWake) (.tfer r 0) = s' at *
  obtain ⟨hquiet, hconfig, hreq⟩ := hleave
  rw [hround]
  -- take of the bytes that are there
  have htake : (nextPairs s r).take ((hw k).bytes q.engine)
      = (nextPairs s r).take (min ((hw k).bytes q.engine) (nextPairs s r).length) := by
    rw [List.take_eq_take_iff]
    omega
  refine ⟨s', _, min ((hw k).bytes q.engine) (nextPairs s r).length,
    ⟨hquiet, hconfig.trans hqcfg, by rw [hreq, hqreq], ?_, Nat.min_le_right _ _, ?_⟩, by
      rw [← htake]; rfl⟩
  . rw [hreq, hqreq, hless]
    unfold submitSwitch
    rw [hstream, ← hnents, ← hnents']
    split <;> rfl
  . unfold submitSwitch
    rw [hstream]
    cases hstate : (o.xfer (.tfer r 0)).state with
    | completed =>
      have hall := hcompl' hstate
      refine Or.inl ⟨rfl, ?_, Nat.min_eq_right hall⟩
      rw [Nat.min_eq_right hall, ← hxlen]
      rfl
    | new | submitted | failed | aborted =>
      refine Or.inr ⟨by simp, rfl, ?_⟩
      intro h
      rw [hprompt h] at hstate
      contradiction

/--
What the submit loop comes to from `s` on: it leaves an idle engine, the first `moved` bytes that were left
of the request are copied, and what it counts as done is among them.
-/
structure LoopDone (s s' : Driver) (r : Nat) (l l' : SubmitLoop) (moved : Nat) : Prop where
  quiet : s'.Quiet
  config : s'.engine.config = s.engine.config
  le : moved ≤ swTotal (s.req r).rest
  done : l.done ≤ l'.done ∧ l'.done ≤ l.done + moved
  all : l'.rv = none → moved = swTotal (s.req r).rest ∧ l'.done = l.done + moved
  prompt : (∀ k, (hw k).Prompt) → l'.rv = none

theorem submitLoopDma_spec (fuel k : Nat) {s : Driver} (hs : s.Quiet) (m : Memories) {l : SubmitLoop}
    (hrv : l.rv = none) (hnents : l.nents = (s.req r).rest.length) (hfuel : l.nents ≤ fuel)
    (hlen : ∀ sd ∈ (s.req r).sdesc, sd.len < 2 ^ 32) (htotal : swTotal (s.req r).rest < 2 ^ 32)
    : ∃ s' l' moved, LoopDone hw s s' r l l' moved
        ∧ submitLoopDma p r dmaMapped hw fuel k s m l
          = some (l', s', m.dma s.engine.dir (s.engine.dir.orient
              ((swPairs s.engine.nonIncrAddr (s.req r).epAddr (s.req r).rest).take moved))) := by
  induction fuel generalizing k s m l with
  | zero =>
    have hnil : (s.req r).rest = [] := List.eq_nil_of_length_eq_zero (by omega)
    refine ⟨s, l, 0, ⟨hs, rfl, by simp, by simp, by simp [hnil], fun _ => hrv⟩, ?_⟩
    unfold submitLoopDma
    rw [if_pos (by omega)]
    cases hdir : s.engine.dir <;> simp [DmaDataDirection.orient]
  | succ fuel ih =>
    by_cases hzero : l.nents = 0
    . have hnil : (s.req r).rest = [] := List.eq_nil_of_length_eq_zero (by omega)
      refine ⟨s, l, 0, ⟨hs, rfl, by simp, by simp, by simp [hnil], fun _ => hrv⟩, ?_⟩
      unfold submitLoopDma
      rw [if_pos hzero]
      cases hdir : s.engine.dir <;> simp [DmaDataDirection.orient]
    . have hrest := XdmaRequestCb.rest_transferInit s.engine (s.req r)
      have hreq := transferInit_req s.engine (s.req r)
      have hless := XdmaRequestCb.length_rest_transferInit s.engine (s.req r)
      rcases submitLoopDma_round p dmaMapped hw fuel k hs m hnents hzero hlen htotal with
        ⟨s', l', moved, hround, heq⟩
      have hnext : (nextPairs s r).length = swTotal (transferSdesc s.engine (s.req r)) :=
        length_swPairs _ _ _
      have hsum : swTotal (s.req r).rest = (nextPairs s r).length + swTotal (s'.req r).rest := by
        rw [hnext, hround.req]
        conv_lhs => rw [hrest]
        simp [swTotal, total]
      have hsplit : swPairs s.engine.nonIncrAddr (s.req r).epAddr (s.req r).rest
          = nextPairs s r
            ++ swPairs s'.engine.nonIncrAddr (s'.req r).epAddr (s'.req r).rest := by
        have hconfig := hround.config
        simp only [XdmaEngine.config, Prod.mk.injEq] at hconfig
        conv_lhs => rw [hrest]
        rw [swPairs_append, hround.req, hconfig.2.2, hreq]
        rfl
      have hle := hround.le
      rw [heq]
      dsimp only
      cases hround.verdict with
      | inr hbad =>
        -- the loop ends here
        rw [if_pos (by simpa [Option.isSome_iff_ne_none] using hbad.1)]
        refine ⟨s', l', moved, ⟨hround.quiet, hround.config, by omega, by omega, ?_, ?_⟩, ?_⟩
        . exact fun h => absurd h hbad.1
        . exact fun h => absurd (h k) hbad.2.2
        . rw [hsplit, List.take_append_of_le_length hle]
      | inl hgood =>
        rw [if_neg (by simp [hgood.1])]
        have hlen' : ∀ sd ∈ (s'.req r).sdesc, sd.len < 2 ^ 32 := by
          rw [hround.req, hreq]
          exact hlen
        have hfuel' : l'.nents ≤ fuel := by
          have hpos := transferDescMax_pos s.engine (s.req r) hs.ring (by
            unfold XdmaRequestCb.swDescCnt
            simp only [XdmaRequestCb.rest, List.length_drop] at hnents
            omega)
          rw [hround.nents, hround.req, hless]
          omega
        rcases ih (k + 1) hround.quiet (m.dma s.engine.dir
            (s.engine.dir.orient ((nextPairs s r).take moved))) hgood.1 hround.nents hfuel' hlen'
            (by omega) with ⟨s'', l'', moved', hdone, heq'⟩
        have hd := hdone.done
        have hconfig := hround.config
        simp only [XdmaEngine.config, Prod.mk.injEq] at hconfig
        refine ⟨s'', l'', (nextPairs s r).length + moved', ⟨hdone.quiet,
          hdone.config.trans hround.config, ?_, by omega, ?_, hdone.prompt⟩, ?_⟩
        . have := hdone.le
          omega
        . intro h
          have := hdone.all h
          omega
        . rw [heq', hconfig.1, hsplit, ← Memories.dma_append, ← orient_append, hgood.2.2,
            List.take_length, List.take_length_add_append]

end Loop

section Refines

variable (p : ModuleParam) {r : Nat} (dmaMapped : Bool) (hw : Nat → EngineTurn)

/-- The driver does not see the memories: beside them the loop is the one of `xdma_xfer_submit()`. -/
theorem submitLoopDma_refines (fuel k : Nat) {s : Driver} {m : Memories} {l : SubmitLoop}
    {l' : SubmitLoop} {s' : Driver} {m' : Memories}
    (h : submitLoopDma p r dmaMapped hw fuel k s m l = some (l', s', m'))
    : ∃ descs, submitLoop p r dmaMapped (fun k => (hw k).wait p) fuel k s l = some (l', descs, s') := by
  induction fuel generalizing k s m l with
  | zero =>
    unfold submitLoopDma at h
    unfold submitLoop
    split at h
    . next hzero =>
      cases h
      exact ⟨[], if_pos hzero⟩
    . contradiction
  | succ fuel ih =>
    unfold submitLoopDma at h
    unfold submitLoop
    split at h
    . next hzero =>
      cases h
      exact ⟨[], if_pos hzero⟩
    . next hpos =>
      rw [if_neg hpos]
      dsimp only at h ⊢
      unfold EngineTurn.wait
      dsimp only
      obtain ⟨queued, hqueue⟩ : ∃ queued, transferQueue p (submitInit s r (XferPtr.tfer r 0) none dmaMapped
          l.nents).1 (XferPtr.tfer r 0) (hw k).hwQueue = queued := ⟨_, rfl⟩
      rw [hqueue] at h ⊢
      cases queued with
      | error err =>
        cases h
        exact ⟨[], rfl⟩
      | ok s₁ =>
        dsimp only at h ⊢
        cases hdma : (hw k).dma s₁.engine m with
        | none =>
          rw [hdma] at h
          contradiction
        | some m₁ =>
          rw [hdma] at h
          dsimp only at h
          split at h
          . next hrv =>
            cases h
            rw [if_pos hrv]
            exact ⟨_, rfl⟩
          . next hrv =>
            obtain ⟨descs, hdescs⟩ := ih _ h
            unfold EngineTurn.wait at hdescs
            rw [if_neg hrv, hdescs]
            exact ⟨_, rfl⟩

theorem xdmaXferSubmitDma_refines {alloc : Nat → Bool} {s s' : Driver} {m m' : Memories} {write : Bool}
    {epAddr : BitVec 64} {sgl : List Scatterlist} {ret : Except Errno Nat}
    (h : xdmaXferSubmitDma p alloc s m r write epAddr sgl dmaMapped hw = some (ret, s', m'))
    : ∃ descs, xdmaXferSubmit p alloc s r write epAddr sgl dmaMapped (fun k => (hw k).wait p)
        = some ⟨ret, descs, s'⟩ := by
  unfold xdmaXferSubmitDma at h
  unfold xdmaXferSubmit
  obtain ⟨request, hreq⟩ : ∃ request, submitRequest p alloc s r write epAddr sgl dmaMapped = request := ⟨_, rfl⟩
  rw [hreq] at h ⊢
  rcases request with _ | ⟨s₁, err | req⟩
  . contradiction
  . cases h
    exact ⟨[], rfl⟩
  . dsimp only at h ⊢
    cases hloop : submitLoopDma p r dmaMapped hw req.swDescCnt 0 s₁ m ⟨none, 0, req.swDescCnt⟩ with
    | none =>
      rw [hloop] at h
      contradiction
    | some done =>
      rw [hloop] at h
      cases h
      obtain ⟨descs, hdescs⟩ := submitLoopDma_refines p dmaMapped hw _ _ hloop
      rw [hdescs]
      exact ⟨descs, rfl⟩

end Refines

section Submit

variable (p : ModuleParam) (hb : 1 ≤ p.descBlenMax) (hb' : p.descBlenMax ≤ xdmaDescBlenMax)

/-- The bytes of a scatter list and of the card from an address on. -/
def sgPairs (epAddr : BitVec 64) (sgl : List Scatterlist) : List (BitVec 64 × BitVec 64) :=
  ((sgl.map Scatterlist.segment).flatMap Segment.cells).zip (cells epAddr (sgTotal sgl))

@[simp]
theorem length_sgPairs (epAddr : BitVec 64) (sgl : List Scatterlist)
    : (sgPairs epAddr sgl).length = sgTotal sgl := by
  unfold sgPairs
  rw [List.length_zip, length_flatMap_cells, length_cells]
  exact Nat.min_self _

theorem swPairs_eq_sgPairs (epAddr : BitVec 64) {sds : List SwDesc} {sgl : List Scatterlist}
    (hcells : (sds.map SwDesc.segment).flatMap Segment.cells
      = (sgl.map Scatterlist.segment).flatMap Segment.cells)
    : swPairs false epAddr sds = sgPairs epAddr sgl := by
  have hplace := pairs_place epAddr (sds.map SwDesc.segment)
  have htotal := swTotal_eq_sgTotal hcells
  unfold swTotal at htotal
  rw [hcells, htotal] at hplace
  exact hplace

/--
What a blocking submission comes to: it leaves an idle engine, and the first `moved` bytes of the scatter
list are copied, at least as many as it returns.
-/
structure SubmitDone (s s' : Driver) (ret : Except Errno Nat) (total moved : Nat) : Prop where
  quiet : s'.Quiet
  config : s'.engine.config = s.engine.config
  le : moved ≤ total
  ret : ∀ n, ret = .ok n → n ≤ moved

theorem Driver.Quiet.congr {s s' : Driver} (h : s.Quiet) (hengine : s'.engine = s.engine)
    (hoffline : s'.offline = s.offline)
    : s'.Quiet := by
  refine ⟨⟨?_, ?_, ?_⟩, ?_, ?_, ?_, ?_⟩
  . rw [hoffline]
    exact h.online
  . rw [hengine]
    exact h.open_
  . rw [hengine]
    exact h.ring
  . rw [hengine]
    exact h.running
  . rw [hengine]
    exact h.queue
  . rw [hengine]
    exact h.memoryMapped
  . rw [hengine]
    exact h.eopFlush

/-- A request that is refused leaves the engine as it is. -/
theorem submitRequest_error {alloc : Nat → Bool} {s m : Driver} {r : Nat} {write dmaMapped : Bool}
    {epAddr : BitVec 64} {sgl : List Scatterlist} {err : Errno}
    (h : submitRequest p alloc s r write epAddr sgl dmaMapped = some (m, .error err))
    : m.engine = s.engine ∧ m.offline = s.offline := by
  unfold submitRequest at h
  generalize (if write then DmaDataDirection.toDevice else .fromDevice) = dir at h
  have hunmap (d : Driver) : (d.unmapSg r).engine = d.engine ∧ (d.unmapSg r).offline = d.offline := by
    rw [Driver.unmapSg_eq]
    exact ⟨rfl, rfl⟩
  split at h
  . cases h
    exact ⟨rfl, rfl⟩
  . split at h
    . cases h
      exact ⟨rfl, rfl⟩
    . split at h
      . cases h
        exact ⟨rfl, rfl⟩
      . dsimp only at h
        split at h <;> cases h
        all_goals
          split
          . exact ⟨rfl, rfl⟩
          . exact hunmap _

include hb in
/-- Building the request ends once a descriptor may carry bytes at all. -/
theorem xdmaInitRequest_ends (alloc : Nat → Bool) (sgl : List Scatterlist) (epAddr : BitVec 64)
    : xdmaInitRequest p.descBlenMax alloc sgl epAddr ≠ .error .divideError
        ∧ xdmaInitRequest p.descBlenMax alloc sgl epAddr ≠ .error .endless := by
  have hextra (sgl : List Scatterlist) (extra : Int)
      : ∃ n, extraDesc p.descBlenMax extra sgl = .ok n := by
    induction sgl generalizing extra with
    | nil => exact ⟨_, rfl⟩
    | cons sg sgl ih =>
      unfold extraDesc
      rw [if_neg (by omega : ¬ p.descBlenMax = 0)]
      split
      . apply ih
      . apply ih
  rcases hextra (sgl.take (toInt32 sgl.length).toNat) 0 with ⟨n, hn⟩
  rcases splitSgl_spec hb sgl with ⟨sds, hsds, _⟩
  unfold xdmaInitRequest
  dsimp only
  rw [hn, hsds]
  dsimp only
  split
  . split <;> simp
  . simp

include hb in
theorem submitRequest_isSome (alloc : Nat → Bool) (s : Driver) (r : Nat) (write : Bool)
    (epAddr : BitVec 64) (sgl : List Scatterlist) (dmaMapped : Bool)
    : (submitRequest p alloc s r write epAddr sgl dmaMapped).isSome := by
  have hends := xdmaInitRequest_ends p hb alloc sgl epAddr
  unfold submitRequest
  generalize (if write then DmaDataDirection.toDevice else .fromDevice) = dir
  split
  . rfl
  . split
    . rfl
    . split
      . rfl
      . dsimp only
        split
        . rfl
        . rfl
        . next h => exact absurd h hends.1
        . next h => exact absurd h hends.2
        . rfl

variable {s : Driver} (hs : s.Quiet) (hincr : s.engine.nonIncrAddr = false)
variable (alloc : Nat → Bool) (r : Nat) (write : Bool) (epAddr : BitVec 64)
variable {sgl : List Scatterlist} (htotal : sgTotal sgl < 2 ^ 31) (dmaMapped : Bool)
variable (hw : Nat → EngineTurn) (m : Memories)

include hb hb' hs hincr

/-- A request that is accepted: the loop has all bytes of the scatter list left. -/
theorem submitRequest_spec {d : Driver} {req : XdmaRequestCb}
    (h : submitRequest p alloc s r write epAddr sgl dmaMapped = some (d, .ok req))
    : d.Quiet ∧ d.engine = s.engine ∧ (d.req r).rest.length = req.swDescCnt
        ∧ (∀ sd ∈ (d.req r).sdesc, sd.len < 2 ^ 32) ∧ swTotal (d.req r).rest = sgTotal sgl
        ∧ swPairs d.engine.nonIncrAddr (d.req r).epAddr (d.req r).rest = sgPairs epAddr sgl := by
  obtain ⟨hinit, hd⟩ := submitRequest_ok h
  obtain ⟨sds, hsds, hreq⟩ := xdmaInitRequest_eq hinit
  rcases splitSgl_spec hb sgl with ⟨sds', hsds', hmem, hcells, _⟩
  rw [hsds, Option.some.injEq] at hsds'
  subst hsds' hreq
  have hdreq : d.req r = ⟨epAddr, 0, sds⟩ := by
    rw [hd]
    apply Function.update_self
  have hengine : d.engine = s.engine := by rw [hd]; rfl
  rw [hengine, hdreq, hincr]
  refine ⟨hs.congr hengine (by rw [hd]; rfl), rfl, rfl, ?_, swTotal_eq_sgTotal hcells,
    swPairs_eq_sgPairs epAddr hcells⟩
  intro sd hsd
  have hle := (hmem sd hsd).2
  simp only [xdmaDescBlenMax] at hb'
  omega

include htotal

theorem xdmaXferSubmitDma_spec
    : ∃ ret s' moved, SubmitDone s s' ret (sgTotal sgl) moved
        ∧ xdmaXferSubmitDma p alloc s m r write epAddr sgl dmaMapped hw
          = some (ret, s', m.dma s.engine.dir
              (s.engine.dir.orient ((sgPairs epAddr sgl).take moved))) := by
  have hsome := submitRequest_isSome p hb alloc s r write epAddr sgl dmaMapped
  rcases Option.isSome_iff_exists.mp hsome with ⟨⟨d, res⟩, hres⟩
  unfold xdmaXferSubmitDma
  rw [hres]
  cases res with
  | error err =>
    have hsame := submitRequest_error p hres
    refine ⟨.error err, d, 0, ⟨hs.congr hsame.1 hsame.2, by rw [hsame.1], Nat.zero_le _, by simp⟩, ?_⟩
    cases hdir : s.engine.dir <;> simp [DmaDataDirection.orient]
  | ok req =>
    obtain ⟨hquiet, hengine, hnents, hlen, hsum, hpairs⟩ :=
      submitRequest_spec p hb hb' hs hincr alloc r write epAddr dmaMapped hres
    rcases submitLoopDma_spec p dmaMapped hw req.swDescCnt 0 hquiet m (l := ⟨none, 0, req.swDescCnt⟩)
      rfl hnents.symm (Nat.le_refl _) hlen (by omega) with ⟨s', l', moved, hdone, hloop⟩
    dsimp only
    rw [hloop, hpairs, hengine]
    have hd := hdone.done
    dsimp only at hd
    refine ⟨submitReturn l', submitExit s' r dmaMapped, moved, ⟨?_, ?_, ?_, ?_⟩, rfl⟩
    . rw [submitExit_eq]
      exact hdone.quiet.congr rfl rfl
    . rw [submitExit_eq, ← hengine]
      exact hdone.config
    . rw [← hsum]
      exact hdone.le
    . intro n hn
      unfold submitReturn at hn
      split at hn
      . rw [Except.ok.injEq] at hn
        omega
      . split at hn
        . contradiction
        . rw [Except.ok.injEq] at hn
          omega

/-- The submission that nothing goes wrong with. -/
theorem xdmaXferSubmitDma_prompt (hdir : s.engine.dir = if write then .toDevice else .fromDevice)
    (hne : sgl ≠ []) (hcount : sgEntries p.descBlenMax sgl < 2 ^ 31)
    (hprompt : ∀ k, (hw k).Prompt)
    : ∃ s', s'.Quiet ∧ s'.engine.config = s.engine.config
        ∧ xdmaXferSubmitDma p (fun _ => true) s m r write epAddr sgl dmaMapped hw
          = some (.ok (sgTotal sgl), s', m.dma s.engine.dir
              (s.engine.dir.orient (sgPairs epAddr sgl))) := by
  rcases xdmaInitRequest_ok hb hb' htotal epAddr hcount with ⟨sds, hinit, _, _⟩
  have hres : submitRequest p (fun _ => true) s r write epAddr sgl dmaMapped
      = some ({ s.mapSg r sgl with req := Function.update s.req r ⟨epAddr, 0, sds⟩ },
          .ok ⟨epAddr, 0, sds⟩) := by
    unfold submitRequest
    rw [if_neg (by simp [hs.online]), if_neg (by simpa using hdir),
      if_neg (by simpa using hne)]
    dsimp only
    rw [hinit]
    rfl
  obtain ⟨hquiet, hengine, hnents, hlen, hsum, hpairs⟩ :=
    submitRequest_spec p hb hb' hs hincr (fun _ => true) r write epAddr dmaMapped hres
  rcases submitLoopDma_spec p dmaMapped hw sds.length 0 hquiet m (l := ⟨none, 0, sds.length⟩)
    rfl hnents.symm (Nat.le_refl _) hlen (by omega) with ⟨s', l', moved, hdone, hloop⟩
  have hrv := hdone.prompt hprompt
  have hall := hdone.all hrv
  rw [hsum, Nat.zero_add] at hall
  refine ⟨submitExit s' r dmaMapped, ?_, ?_, ?_⟩
  . rw [submitExit_eq]
    exact hdone.quiet.congr rfl rfl
  . rw [submitExit_eq]
    exact hdone.config
  . unfold xdmaXferSubmitDma
    rw [hres]
    dsimp only [XdmaRequestCb.swDescCnt] at hloop ⊢
    rw [hloop, hpairs, hall.1, ← length_sgPairs epAddr sgl, List.take_length]
    dsimp only
    have hret : submitReturn l' = .ok (sgPairs epAddr sgl).length := by
      rw [length_sgPairs, ← hall.1, ← hall.2]
      unfold submitReturn
      rw [hrv]
      split
      . rfl
      . next h => exact congrArg Except.ok (not_ne_iff.mp h).symm
    rw [hret]
    rfl

end Submit

end Xdma
