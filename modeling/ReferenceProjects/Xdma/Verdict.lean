import ReferenceProjects.Lib.Run
import ReferenceProjects.Xdma.Lemmas.Service

/-!
This module contains the runs of one engine and its hardware, and when every verdict that
`engine_service()` gives in them is about a transfer that the hardware was started on.
-/

namespace Xdma

/-- The hardware: the transfer it was started on last, and how much of that chain it completed. -/
structure Hardware where
  chain : Option XferPtr
  count : Nat
  deriving DecidableEq, Repr

structure EngineSys where
  drv : Driver
  hw : Hardware

/-- The steps, each atomic under the lock of the engine. -/
inductive EngineEvent where
  /-- `transfer_queue()`, where `status` is what a start of the engine reads -/
  | queue (t : XferPtr) (status : BitVec 32)
  /-- the hardware completes descriptors up to `count` of the chain -/
  | progress (count : Nat)
  /-- `engine_service(engine, 0)`, where `status` is what a restart of the engine reads -/
  | service (statusRc status : BitVec 32)
  deriving DecidableEq, Repr

/-- The hardware after a step of the driver: it forgets its chain when it is started anew. -/
def Hardware.follow (hw : Hardware) (s s' : Driver) : Hardware :=
  if s'.hist.starts = s.hist.starts then hw else ⟨s'.hist.starts.head?, 0⟩

/-- The registers that a service reads. -/
def Hardware.regs (hw : Hardware) (statusRc status : BitVec 32) : HwRegs where
  identifier := blockIdHead
  statusRc := statusRc
  status := status
  completedDescCount := BitVec.ofNat 32 hw.count

variable (p : ModuleParam)

/--
One step. The transfers that are queued are new, non-cyclic and as long as `transfer_init()` makes
them; the completed count never falls and never passes the chain.
-/
def EngineSys.step (s : EngineSys) : EngineEvent → Option EngineSys
  | .queue t status =>
    let xfer := s.drv.xfer t
    if xfer.state = .new ∧ xfer.cyclic = false ∧ xfer.descNum ≤ xdmaTransferMaxDesc then
      let drv := keepOnError (transferQueue p s.drv t (s.hw.regs 0 status)) s.drv
      some ⟨drv, s.hw.follow s.drv drv⟩
    else
      none
  | .progress count =>
    match s.hw.chain with
    | none => none
    | some t =>
      if s.hw.count ≤ count ∧ count ≤ (s.drv.xfer t).descNum then
        some ⟨s.drv, { s.hw with count := count }⟩
      else
        none
  | .service statusRc status =>
    let drv := engineService p s.drv 0 (s.hw.regs statusRc status)
    some ⟨drv, s.hw.follow s.drv drv⟩

/-- An engine at rest, which was never started. -/
structure EngineSys.Initial (s : EngineSys) : Prop where
  eopFlush : s.drv.engine.eopFlush = false
  running : s.drv.engine.running = false
  transferList : s.drv.engine.transferList = []
  hist : s.drv.hist.starts = []
  hw : s.hw = ⟨none, 0⟩

/-- The status has an error bit for the direction of the engine. -/
def statusError (e : XdmaEngine) (status : BitVec 32) : Prop := status &&& errMask e.dir ≠ 0

instance (e : XdmaEngine) (status : BitVec 32) : Decidable (statusError e status) :=
  inferInstanceAs (Decidable (_ ≠ _))

/--
A step gives no transfer a verdict but one that the engine was started on: `COMPLETED` when the
hardware completed all of it, `FAILED` when the hardware reported an error, or stopped before that.
-/
def VerdictSound (s : EngineSys) (e : EngineEvent) (s' : EngineSys) : Prop :=
  ∀ t, (s'.drv.xfer t).state ≠ (s.drv.xfer t).state → (s'.drv.xfer t).Settled →
    t ∈ s.drv.hist.starts ∧ s.hw.chain = some t
      ∧ ∃ statusRc status, e = .service statusRc status
        ∧ ((s'.drv.xfer t).state = .completed → s.hw.count = (s.drv.xfer t).descNum)
        ∧ ((s'.drv.xfer t).state = .failed →
            statusError s.drv.engine statusRc
              ∨ statusRc &&& xdmaStatBusy = 0 ∧ s.hw.count < (s.drv.xfer t).descNum)

/--
A service that finds descriptors completed, no error and the engine still busy comes after the last
descriptor of the first transfer, and no other transfer is queued.
-/
def ServiceTimely (s : EngineSys) : EngineEvent → Prop
  | .service statusRc _ =>
    s.drv.engine.running = true → s.hw.count ≠ 0 → ¬ statusError s.drv.engine statusRc →
      statusRc &&& xdmaStatBusy ≠ 0 →
        (∀ t ∈ s.drv.engine.transferList.head?, (s.drv.xfer t).descNum ≤ s.hw.count)
          ∧ s.drv.engine.transferList.tail = []
  | _ => True

instance (s : EngineSys) : (e : EngineEvent) → Decidable (ServiceTimely s e)
  | .service _ _ => inferInstanceAs (Decidable (_ → _ → _ → _ → _ ∧ _))
  | .queue _ _ => inferInstanceAs (Decidable True)
  | .progress _ => inferInstanceAs (Decidable True)

/--
What the timely steps keep: a running engine works on the first transfer of its queue, and nothing of
that was dequeued yet.
-/
structure EngineSys.Inv (s : EngineSys) : Prop where
  eopFlush : s.drv.engine.eopFlush = false
  queued : ∀ t ∈ s.drv.engine.transferList,
    0 < (s.drv.xfer t).descNum ∧ (s.drv.xfer t).descNum ≤ 2048 ∧ (s.drv.xfer t).cyclic = false
  bound : ∀ t, s.hw.chain = some t → s.hw.count ≤ (s.drv.xfer t).descNum
  current : s.drv.engine.running = true →
    s.drv.engine.descDequeued = 0 ∧ ∃ t rest, s.drv.engine.transferList = t :: rest
      ∧ s.hw.chain = some t ∧ t ∈ s.drv.hist.starts

section Service

variable {p}

theorem finalVerdict_of_not_eopFlush (s : Driver) (heop : s.engine.eopFlush = false) (t : XferPtr)
    (descCompleted : BitVec 32)
    : ∃ s' xfer', finalVerdict p s t descCompleted = (s'.setXfer t xfer', true)
        ∧ ServiceRegs s s' ∧ Verdict (s.xfer t) xfer'
        ∧ (statusError s.engine s.engine.status → s'.engine.running = false)
        ∧ (xfer'.state = .completed → ¬ descCompleted < BitVec.ofNat 32 (s.xfer t).descNum)
        ∧ (xfer'.state = .failed → statusError s.engine s.engine.status
            ∨ descCompleted < BitVec.ofNat 32 (s.xfer t).descNum) := by
  unfold finalVerdict
  dsimp only
  split
  . next herr =>
    exact ⟨xdmaEngineStop p s, { s.xfer t with state := .failed }, rfl, xdmaEngineStop_regs p s,
      ⟨Or.inr rfl, rfl⟩, fun _ => rfl, by simp, fun _ => Or.inl herr⟩
  . next herr =>
    have hgo : ServiceRegs s { s with engine.descDequeued :=
        s.engine.descDequeued + BitVec.ofNat 32 (s.xfer t).descNum } := ⟨rfl, id⟩
    rw [heop]
    split
    . next hlt =>
      exact ⟨_, { s.xfer t with state := .failed, descCmpl := descCompleted }, rfl, hgo,
        ⟨Or.inr rfl, rfl⟩, fun h => absurd h herr, by simp, fun _ => Or.inr hlt⟩
    . next hge =>
      exact ⟨_, { s.xfer t with
          state := .completed
          descCmpl := BitVec.ofNat 32 (s.xfer t).descNum }, rfl, hgo,
        ⟨Or.inl rfl, rfl⟩, fun h => absurd h herr, fun _ => hge, by simp⟩

theorem serviceCount_zero (hw : HwRegs)
    : serviceCount 0 hw = hw.completedDescCount := rfl

/--
The service of an engine that works on the first transfer of its queue, of which nothing was dequeued:
that transfer alone gets a verdict.
-/
theorem engineService_current (s : Driver) (hw : HwRegs) (heop : s.engine.eopFlush = false)
    (hrun : s.engine.running = true) (hdeq : s.engine.descDequeued = 0) {t : XferPtr}
    {rest : List XferPtr} (hlist : s.engine.transferList = t :: rest)
    (hne : hw.completedDescCount ≠ 0)
    (hle : ¬ hw.completedDescCount > BitVec.ofNat 32 (s.xfer t).descNum)
    : ∃ m xfer', ServiceRegs s m ∧ Verdict (s.xfer t) xfer'
        ∧ (hw.statusRc &&& xdmaStatBusy = 0 ∨ statusError s.engine hw.statusRc →
            m.engine.running = false)
        ∧ (xfer'.state = .completed →
            ¬ hw.completedDescCount < BitVec.ofNat 32 (s.xfer t).descNum)
        ∧ (xfer'.state = .failed → statusError s.engine hw.statusRc
            ∨ hw.completedDescCount < BitVec.ofNat 32 (s.xfer t).descNum)
        ∧ engineService p s 0 hw
            = engineServiceResume p
                (engineTransferCompletion p (m.setXfer t xfer').listDel t hw) hw := by
  have hregs := engineServiceStatus_regs p hw s 0
  have hstatus : (engineServiceStatus p s 0 hw).engine.status = hw.statusRc := by
    rw [engineServiceStatus_zero]
    split <;> rfl
  have hbusy : hw.statusRc &&& xdmaStatBusy = 0 →
      (engineServiceStatus p s 0 hw).engine.running = false := by
    intro h
    rw [engineServiceStatus_zero, if_pos h]
    rfl
  have hmdeq : (engineServiceStatus p s 0 hw).engine.descDequeued = s.engine.descDequeued := by
    rw [engineServiceStatus_zero]
    split <;> rfl
  have heq : engineService p s 0 hw
      = engineServiceCount p (engineServiceStatus p s 0 hw) hw.completedDescCount hw := by
    unfold engineService
    rw [hrun, serviceCount_zero]
    dsimp only
    rw [if_neg (by simp), if_neg hne]
  generalize engineServiceStatus p s 0 hw = m at hregs hstatus hbusy hmdeq heq
  have hperf := engineServicePerf_regs m hw.completedDescCount
  have hlist' : m.engine.transferList = t :: rest := by
    rw [hregs.eq]
    exact hlist
  unfold engineServiceCount at heq
  dsimp only at heq
  rw [hlist', List.head?_cons, Option.isSome_some, if_pos rfl] at heq
  have hdeq' : m.engine.descDequeued = 0 := by
    rw [← hdeq]
    exact hmdeq
  have hkeep := engineServicePerf_eq m hw.completedDescCount
  generalize engineServicePerf m hw.completedDescCount = k at hperf heq hkeep
  have hxfer : k.xfer t = s.xfer t := by rw [hkeep, hregs.eq]
  have hlistk : k.engine.transferList = t :: rest := by
    rw [hkeep]
    exact hlist'
  have hdeqk : k.engine.descDequeued = 0 := by
    rw [hkeep]
    exact hdeq'
  have heopk : k.engine.eopFlush = false := by
    rw [hkeep, hregs.eq]
    exact heop
  have hsub : hw.completedDescCount - 0 = hw.completedDescCount := by simp
  rw [hdeqk, hsub, engineServiceTransferList_of_le p hw k hlistk (by rwa [hxfer])] at heq
  rcases finalVerdict_of_not_eopFlush (p := p) k heopk t hw.completedDescCount with
    ⟨m', xfer', hfinal, hregs', hverdict, herr, hcompl, hfail⟩
  have hlast : engineServiceFinalTransfer p k (some t) hw.completedDescCount hw
      = engineTransferCompletion p (m'.setXfer t xfer').listDel t hw := by
    unfold engineServiceFinalTransfer
    dsimp only
    rw [hfinal]
  have heop' : ¬ (engineServiceFinalTransfer p k (some t) hw.completedDescCount hw).engine.eopFlush
      = true := by
    rw [hlast, (engineTransferCompletion_frame p _ t hw).eq, Bool.not_eq_true, ← heopk, hregs'.eq]
    rfl
  dsimp only at heq
  rw [if_neg heop', hlast] at heq
  have hdir : k.engine.dir = s.engine.dir := by rw [hkeep, hregs.eq]
  have hstatusk : k.engine.status = hw.statusRc := by
    rw [hkeep]
    exact hstatus
  simp only [statusError, hdir, hstatusk, hxfer] at herr hfail hcompl hverdict
  refine ⟨m', xfer', hregs.trans (hperf.trans hregs'), hverdict, ?_, hcompl, hfail, heq⟩
  rintro (h | h)
  . have hstop := hbusy h
    by_contra hrun'
    have hk := hperf.running (hregs'.running (by simpa using hrun'))
    rw [hstop] at hk
    contradiction
  . exact herr h

end Service

section Step

variable {p}

theorem Hardware.follow_of_eq {hw : Hardware} {s s' : Driver}
    (h : s'.hist.starts = s.hist.starts)
    : hw.follow s s' = hw := if_pos h

theorem Hardware.follow_of_start {hw : Hardware} {s s' : Driver} {t : XferPtr}
    (h : s'.hist.starts = t :: s.hist.starts)
    : hw.follow s s' = ⟨some t, 0⟩ := by
  unfold Hardware.follow
  rw [if_neg (by simp [h]), h]
  rfl

theorem EngineSys.Inv.start {s d d' : Driver} {hw : Hardware} {regs : HwRegs}
    (heop : d.engine.eopFlush = false)
    (hqueued : ∀ t ∈ d.engine.transferList,
      0 < (d.xfer t).descNum ∧ (d.xfer t).descNum ≤ 2048 ∧ (d.xfer t).cyclic = false)
    (hstarts : d.hist.starts = s.hist.starts)
    (hstart : engineStart p d regs = some d')
    : EngineSys.Inv ⟨d', hw.follow s d'⟩ := by
  rcases engineStart_eq hstart with ⟨_, t, rest, hlist, heq⟩
  have hfollow : hw.follow s d' = ⟨some t, 0⟩ := by
    apply Hardware.follow_of_start
    rw [heq, ← hstarts]
  rw [hfollow]
  refine ⟨?_, ?_, ?_, ?_⟩
  . rw [heq]
    exact heop
  . rw [heq]
    exact hqueued
  . intro u _
    exact Nat.zero_le _
  . intro _
    rw [heq]
    exact ⟨rfl, t, rest, hlist, rfl, List.mem_cons_self⟩

theorem Driver.enqueue_xfer (s : Driver) (t u : XferPtr)
    : (s.enqueue t).xfer u = s.xfer u
      ∨ u = t ∧ (s.enqueue t).xfer u = { s.xfer t with state := .submitted } := by
  by_cases hu : u = t
  . subst hu
    exact Or.inr ⟨rfl, by simp [Driver.enqueue]⟩
  . exact Or.inl (by simp [Driver.enqueue, hu])

theorem EngineSys.step_queue {s s' : EngineSys} {t : XferPtr} {status : BitVec 32}
    (hinv : s.Inv) (hstep : s.step p (.queue t status) = some s')
    : s'.Inv ∧ VerdictSound s (.queue t status) s' := by
  simp only [EngineSys.step] at hstep
  split at hstep
  . next hnew =>
    rw [Option.some.injEq] at hstep
    subst hstep
    cases hqueue : transferQueue p s.drv t (s.hw.regs 0 status) with
    | error err =>
      -- the transfer is refused
      simp only [keepOnError]
      rw [Hardware.follow_of_eq rfl]
      exact ⟨hinv, fun u hu _ => absurd rfl hu⟩
    | ok d =>
      simp only [keepOnError]
      rcases transferQueue_ok hqueue with ⟨hnum, _, hlocked⟩
      have hqueued : ∀ u ∈ (s.drv.enqueue t).engine.transferList,
          0 < ((s.drv.enqueue t).xfer u).descNum ∧ ((s.drv.enqueue t).xfer u).descNum ≤ 2048
            ∧ ((s.drv.enqueue t).xfer u).cyclic = false := by
        intro u hu
        rcases s.drv.enqueue_xfer t u with hsame | ⟨_, hsubmit⟩
        . simp only [Driver.enqueue, List.mem_append, List.mem_singleton] at hu
          rw [hsame]
          cases hu with
          | inl hu => exact hinv.queued u hu
          | inr hu =>
            subst hu
            exact ⟨Nat.pos_of_ne_zero hnum, hnew.2.2, hnew.2.1⟩
        . rw [hsubmit]
          exact ⟨Nat.pos_of_ne_zero hnum, hnew.2.2, hnew.2.1⟩
      have hxfer : d.xfer = (s.drv.enqueue t).xfer := by rw [transferQueueLocked_eq hlocked]
      refine ⟨?_, ?_⟩
      . rcases transferQueueLocked_cases hlocked with ⟨_, ⟨hrun, rfl⟩ | ⟨_, hstart⟩⟩
        . rcases hinv.current hrun with ⟨hdeq, u, rest, hlist, hchain, hmem⟩
          have hfollow : s.hw.follow s.drv (s.drv.enqueue t) = s.hw := Hardware.follow_of_eq rfl
          rw [hfollow]
          refine ⟨hinv.eopFlush, hqueued, ?_, ?_⟩
          . intro v hv
            rcases s.drv.enqueue_xfer t v with hsame | ⟨rfl, hsubmit⟩
            . rw [hsame]
              exact hinv.bound v hv
            . rw [hsubmit]
              exact hinv.bound v hv
          . intro _
            refine ⟨hdeq, u, rest ++ [t], ?_, hchain, hmem⟩
            simp [Driver.enqueue, hlist]
        . exact EngineSys.Inv.start (s := s.drv) (d := s.drv.enqueue t) hinv.eopFlush hqueued rfl hstart
      . intro u hu hsettled
        rw [hxfer] at hu hsettled
        rcases s.drv.enqueue_xfer t u with hsame | ⟨_, hsubmit⟩
        . rw [hsame] at hu
          exact absurd rfl hu
        . rw [hsubmit] at hsettled
          simp [XdmaTransfer.Settled] at hsettled
  . contradiction

theorem CompletionFrame.settled {s s' : Driver} (h : CompletionFrame s s') {t : XferPtr}
    (hsettled : (s'.xfer t).Settled)
    : s'.xfer t = s.xfer t := by
  cases h.xfer t with
  | inl hsame => exact hsame
  | inr habort =>
    rw [habort.2] at hsettled
    simp [XdmaTransfer.Settled] at hsettled

theorem CompletionFrame.shape {s s' : Driver} (h : CompletionFrame s s') (t : XferPtr)
    : (s'.xfer t).descNum = (s.xfer t).descNum ∧ (s'.xfer t).cyclic = (s.xfer t).cyclic := by
  cases h.xfer t with
  | inl hsame => rw [hsame]; exact ⟨rfl, rfl⟩
  | inr habort => rw [habort.2]; exact ⟨rfl, rfl⟩

/--
What a service that saw descriptors completed leaves before it looks whether to start the engine
again: the first transfer of the queue is off it, and no other got a verdict.
-/
structure CurrentServed (s : EngineSys) (t : XferPtr) (rest : List XferPtr) (statusRc : BitVec 32)
    (f : Driver) : Prop where
  eopFlush : f.engine.eopFlush = false
  starts : f.hist.starts = s.drv.hist.starts
  suffix : f.engine.transferList <:+ rest
  shape : ∀ u, (f.xfer u).descNum = (s.drv.xfer u).descNum
    ∧ (f.xfer u).cyclic = (s.drv.xfer u).cyclic
  running : f.engine.running = true →
    statusRc &&& xdmaStatBusy ≠ 0 ∧ ¬ statusError s.drv.engine statusRc
  verdict : ∀ u, (f.xfer u).state ≠ (s.drv.xfer u).state → (f.xfer u).Settled →
    u = t ∧ ((f.xfer u).state = .completed → ¬ s.hw.count < (s.drv.xfer u).descNum)
      ∧ ((f.xfer u).state = .failed →
        statusError s.drv.engine statusRc ∨ s.hw.count < (s.drv.xfer u).descNum)

theorem CurrentServed.of_verdict {s : EngineSys} {t : XferPtr} {rest : List XferPtr}
    {statusRc : BitVec 32} (heop : s.drv.engine.eopFlush = false)
    (hlist : s.drv.engine.transferList = t :: rest) {m : Driver} (hm : ServiceRegs s.drv m)
    {xfer' : XdmaTransfer} (hverdict : Verdict (s.drv.xfer t) xfer')
    (hstop : statusRc &&& xdmaStatBusy = 0 ∨ statusError s.drv.engine statusRc →
      m.engine.running = false)
    (hcompl : xfer'.state = .completed → ¬ s.hw.count < (s.drv.xfer t).descNum)
    (hfail : xfer'.state = .failed →
      statusError s.drv.engine statusRc ∨ s.hw.count < (s.drv.xfer t).descNum) (hw : HwRegs)
    : CurrentServed s t rest statusRc
        (engineTransferCompletion p (m.setXfer t xfer').listDel t hw) := by
  have hf := engineTransferCompletion_frame p (m.setXfer t xfer').listDel t hw
  generalize engineTransferCompletion p (m.setXfer t xfer').listDel t hw = f at hf
  have hxm : m.xfer = s.drv.xfer := by rw [hm.eq]
  have hlm : m.engine.transferList = t :: rest := by
    rw [hm.eq]
    exact hlist
  constructor
  . rw [hf.eq]
    simp only [Driver.setXfer, Driver.listDel]
    rw [hm.eq]
    exact heop
  . rw [hf.eq]
    simp only [Driver.setXfer, Driver.listDel]
    rw [hm.eq]
  . have hsuffix := hf.suffix
    simpa [Driver.setXfer, Driver.listDel, hlm] using hsuffix
  . intro u
    have hshape := hf.shape u
    simp only [Driver.setXfer, Driver.listDel, hxm] at hshape
    by_cases hu : u = t
    . subst hu
      rw [Function.update_self, hverdict.eq] at hshape
      exact hshape
    . rwa [Function.update_of_ne hu] at hshape
  . intro hfrun
    rcases hf.queue with ⟨_, hrun⟩ | hrun
    . have hmrun : m.engine.running = true := hrun.symm.trans hfrun
      constructor
      . intro h
        simp [hstop (Or.inl h)] at hmrun
      . intro h
        simp [hstop (Or.inr h)] at hmrun
    . rw [hrun] at hfrun
      exact absurd hfrun Bool.false_ne_true
  . intro u hu hsettled
    have hsame := hf.settled hsettled
    simp only [Driver.setXfer, Driver.listDel, hxm] at hsame
    by_cases hut : u = t
    . subst hut
      rw [Function.update_self] at hsame
      rw [hsame]
      exact ⟨rfl, hcompl, hfail⟩
    . rw [hsame, Function.update_of_ne hut] at hu
      exact absurd rfl hu

/-- The counts are those of one chain, far below the width of the registers. -/
theorem engineService_served {s : EngineSys} (statusRc status : BitVec 32) (hinv : s.Inv)
    (hrun : s.drv.engine.running = true) (hne : s.hw.count ≠ 0) {t : XferPtr}
    {rest : List XferPtr} (hlist : s.drv.engine.transferList = t :: rest)
    (hdeq : s.drv.engine.descDequeued = 0) (hchain : s.hw.chain = some t)
    : let hw := s.hw.regs statusRc status
      ∃ f, CurrentServed s t rest statusRc f
        ∧ engineService p s.drv 0 hw = engineServiceResume p f hw := by
  intro hw
  rcases hinv.queued t (by simp [hlist]) with ⟨_, hmax, _⟩
  have hbound := hinv.bound t hchain
  have hcount : hw.completedDescCount = BitVec.ofNat 32 s.hw.count := rfl
  have hnum : ∀ n, n ≤ 2048 → (BitVec.ofNat 32 n).toNat = n := by
    intro n hn
    exact Nat.mod_eq_of_lt (by omega)
  have hzero : hw.completedDescCount ≠ 0 := by
    rw [hcount]
    intro h
    have := congrArg BitVec.toNat h
    rw [hnum _ (by omega)] at this
    exact hne this
  have hle : ¬ hw.completedDescCount > BitVec.ofNat 32 (s.drv.xfer t).descNum := by
    rw [hcount, gt_iff_lt, BitVec.lt_def, hnum _ hmax, hnum s.hw.count (by omega)]
    omega
  rcases engineService_current (p := p) s.drv hw hinv.eopFlush hrun hdeq hlist hzero hle with
    ⟨m, xfer', hm, hverdict, hstop, hcompl, hfail, heq⟩
  rw [hcount, BitVec.lt_def, hnum _ hmax, hnum s.hw.count (by omega)] at hcompl hfail
  exact ⟨_, CurrentServed.of_verdict hinv.eopFlush hlist hm hverdict hstop hcompl hfail hw, heq⟩

theorem CurrentServed.verdictSound {s : EngineSys} {t : XferPtr} {rest : List XferPtr}
    {statusRc status : BitVec 32} {f : Driver} (h : CurrentServed s t rest statusRc f)
    (htimely : ServiceTimely s (.service statusRc status)) (hrun : s.drv.engine.running = true)
    (hne : s.hw.count ≠ 0) (hlist : s.drv.engine.transferList = t :: rest)
    (hchain : s.hw.chain = some t) (hmem : t ∈ s.drv.hist.starts)
    (hbound : s.hw.count ≤ (s.drv.xfer t).descNum) {d : Driver} (hxfer : d.xfer = f.xfer)
    : VerdictSound s (.service statusRc status) ⟨d, s.hw.follow s.drv d⟩ := by
  intro u hu hsettled
  dsimp only at hu hsettled ⊢
  rw [hxfer] at hu hsettled ⊢
  rcases h.verdict u hu hsettled with ⟨rfl, hcompl, hfail⟩
  refine ⟨hmem, hchain, statusRc, status, rfl, ?_, ?_⟩
  . intro hstate
    have := hcompl hstate
    omega
  . intro hstate
    by_cases herr : statusError s.drv.engine statusRc
    . exact Or.inl herr
    . have hlt := (hfail hstate).resolve_left herr
      refine Or.inr ⟨?_, hlt⟩
      by_contra hbusy
      have := (htimely hrun hne herr hbusy).1 u (by rw [hlist]; rfl)
      omega

theorem EngineSys.step_current {s : EngineSys} {statusRc status : BitVec 32} (hinv : s.Inv)
    (htimely : ServiceTimely s (.service statusRc status)) (hrun : s.drv.engine.running = true)
    (hne : s.hw.count ≠ 0)
    : let drv := engineService p s.drv 0 (s.hw.regs statusRc status)
      let s' : EngineSys := ⟨drv, s.hw.follow s.drv drv⟩
      s'.Inv ∧ VerdictSound s (.service statusRc status) s' := by
  rcases hinv.current hrun with ⟨hdeq, t, rest, hlist, hchain, hmem⟩
  have hbound := hinv.bound t hchain
  rcases engineService_served (p := p) statusRc status hinv hrun hne hlist hdeq hchain with
    ⟨f, hf, heq⟩
  dsimp only
  rw [heq]
  generalize s.hw.regs statusRc status = hw
  have hqueued : ∀ u ∈ f.engine.transferList,
      0 < (f.xfer u).descNum ∧ (f.xfer u).descNum ≤ 2048 ∧ (f.xfer u).cyclic = false := by
    intro u hu
    rw [(hf.shape u).1, (hf.shape u).2]
    exact hinv.queued u (by rw [hlist]; exact List.mem_cons_of_mem _ (hf.suffix.subset hu))
  have hverdicts : ∀ d : Driver, d.xfer = f.xfer →
      VerdictSound s (.service statusRc status) ⟨d, s.hw.follow s.drv d⟩ := by
    intro d hxfer
    exact hf.verdictSound htimely hrun hne hlist hchain hmem hbound hxfer
  rcases engineServiceResume_cases p hw f with ⟨hidle, hstart⟩ | ⟨hregs', _, hwork⟩
  . rcases engineStart_eq hstart with ⟨_, u, rest', _, hstarteq⟩
    exact ⟨EngineSys.Inv.start (s := s.drv) (d := f) hf.eopFlush hqueued hf.starts hstart,
      hverdicts _ (by rw [hstarteq])⟩
  . -- a busy engine has no other transfer queued, so one that is not started again has stopped
    have hstopped : (engineServiceResume p f hw).engine.running = false := by
      by_contra hgo
      rw [Bool.not_eq_false] at hgo
      rcases hf.running (hregs'.running hgo) with ⟨hbusy, herr⟩
      have hrest := (htimely hrun hne herr hbusy).2
      rw [hlist, List.tail_cons] at hrest
      have hsuffix := hf.suffix
      rw [hrest] at hsuffix
      exact hwork hgo (List.suffix_nil.mp hsuffix)
    have hfollow : s.hw.follow s.drv (engineServiceResume p f hw) = s.hw := by
      apply Hardware.follow_of_eq
      rw [hregs'.eq]
      exact hf.starts
    refine ⟨?_, hverdicts _ (by rw [hregs'.eq])⟩
    rw [hfollow]
    refine ⟨?_, ?_, ?_, ?_⟩
    . rw [hregs'.eq]
      exact hf.eopFlush
    . rw [hregs'.eq]
      exact hqueued
    . intro u hu
      dsimp only
      rw [hregs'.eq]
      dsimp only
      rw [(hf.shape u).1]
      exact hinv.bound u hu
    . intro hgo
      rw [hstopped] at hgo
      exact absurd hgo Bool.false_ne_true

theorem EngineSys.step_service {s s' : EngineSys} {statusRc status : BitVec 32} (hinv : s.Inv)
    (htimely : ServiceTimely s (.service statusRc status))
    (hstep : s.step p (.service statusRc status) = some s')
    : s'.Inv ∧ VerdictSound s (.service statusRc status) s' := by
  simp only [EngineSys.step, Option.some.injEq] at hstep
  -- a service that completes no descriptor works on registers only
  have hquiet : ServiceRegs s.drv (engineService p s.drv 0 (s.hw.regs statusRc status)) →
      (engineService p s.drv 0 (s.hw.regs statusRc status)).engine.descDequeued
        = s.drv.engine.descDequeued →
      s'.Inv ∧ VerdictSound s (.service statusRc status) s' := by
    intro hregs hdeq
    generalize engineService p s.drv 0 (s.hw.regs statusRc status) = d at hregs hdeq hstep
    have hfollow : s.hw.follow s.drv d = s.hw := by
      apply Hardware.follow_of_eq
      rw [hregs.eq]
    rw [hfollow] at hstep
    subst hstep
    have hxfer : d.xfer = s.drv.xfer := by rw [hregs.eq]
    have hlist : d.engine.transferList = s.drv.engine.transferList := by rw [hregs.eq]
    refine ⟨⟨?_, ?_, ?_, ?_⟩, ?_⟩
    . rw [hregs.eq]
      exact hinv.eopFlush
    . dsimp only
      rw [hxfer, hlist]
      exact hinv.queued
    . dsimp only
      rw [hxfer]
      exact hinv.bound
    . intro hrun
      dsimp only at hrun ⊢
      rcases hinv.current (hregs.running hrun) with ⟨hzero, hcurrent⟩
      rw [hdeq, hlist, hregs.eq]
      exact ⟨hzero, hcurrent⟩
    . intro u hu
      dsimp only at hu
      rw [hxfer] at hu
      exact absurd rfl hu
  cases hrun : s.drv.engine.running with
  | false =>
    have heq : engineService p s.drv 0 (s.hw.regs statusRc status)
        = { s.drv with engine.status := statusRc } := by
      unfold engineService
      rw [hrun]
      rfl
    apply hquiet
    . rw [heq]
      exact ⟨rfl, id⟩
    . rw [heq]
  | true =>
    by_cases hne : s.hw.count = 0
    . have heq : engineService p s.drv 0 (s.hw.regs statusRc status)
          = engineServiceStatus p s.drv 0 (s.hw.regs statusRc status) := by
        unfold engineService
        rw [hrun, if_neg (by simp)]
        dsimp only
        rw [if_pos (by rw [serviceCount_zero]; simp [Hardware.regs, hne])]
      apply hquiet
      . rw [heq]
        exact engineServiceStatus_regs p _ _ _
      . rw [heq, engineServiceStatus_zero]
        split <;> rfl
    . rw [← hstep]
      exact EngineSys.step_current hinv htimely hrun hne

theorem EngineSys.step_sound (s : EngineSys) (e : EngineEvent) (s' : EngineSys) (hinv : s.Inv)
    (htimely : ServiceTimely s e) (hstep : s.step p e = some s')
    : s'.Inv ∧ VerdictSound s e s' := by
  cases e with
  | queue t status => exact EngineSys.step_queue hinv hstep
  | progress count =>
    simp only [EngineSys.step] at hstep
    split at hstep
    . contradiction
    . next t hchain =>
      split at hstep
      . next hcount =>
        rw [Option.some.injEq] at hstep
        subst hstep
        refine ⟨⟨hinv.eopFlush, hinv.queued, ?_, hinv.current⟩, fun u hu _ => absurd rfl hu⟩
        intro u hu
        obtain rfl : t = u := by simpa [hchain] using hu
        exact hcount.2
      . contradiction
  | service statusRc status => exact EngineSys.step_service hinv htimely hstep

end Step

theorem EngineSys.Initial.inv {s : EngineSys} (h : s.Initial) : s.Inv where
  eopFlush := h.eopFlush
  queued := by simp [h.transferList]
  bound := by simp [h.hw]
  current := by simp [h.running]

/-- In a run whose services are all timely every verdict is sound. -/
theorem verdictSound_of_timely (s : EngineSys) (hinit : s.Initial) (es : List EngineEvent)
    (htimely : Transition.StepsHold (EngineSys.step p) (fun s e _ => ServiceTimely s e) s es)
    : Transition.StepsHold (EngineSys.step p) VerdictSound s es :=
  Transition.stepsHold_of_invariant EngineSys.step_sound hinit.inv htimely

/-- An H2C engine at rest and two transfers, of one and of two descriptors. -/
def twoTransfers : EngineSys where
  drv := { Driver.init (XdmaEngine.init .toDevice false 0x100000 0) with
    xfer := fun t =>
      { XdmaTransfer.zero .toDevice with descNum := if t = .tfer 0 0 then 1 else 2 } }
  hw := ⟨none, 0⟩

theorem twoTransfers_initial : twoTransfers.Initial := ⟨rfl, rfl, rfl, rfl, rfl⟩

/-- The engine is still busy after the last descriptor of the first transfer, alone in the queue. -/
theorem verdictSound_of_timely_busy
    : Transition.StepsHold (EngineSys.step ⟨false, false, 4096⟩) VerdictSound twoTransfers
        [.queue (.tfer 0 0) 1, .progress 1, .service 1 1, .queue (.tfer 1 0) 1, .progress 2,
          .service 0 1] :=
  verdictSound_of_timely _ twoTransfers twoTransfers_initial _ (by decide)

/--
The engine is busy after the last descriptor of the first transfer, and the second one is queued: the
next service fails the second one, which the engine was never started on.
-/
theorem not_verdictSound_busy
    : twoTransfers.Initial
        ∧ ¬ Transition.StepsHold (EngineSys.step ⟨false, false, 4096⟩) VerdictSound twoTransfers
          [.queue (.tfer 0 0) 1, .queue (.tfer 1 0) 1, .progress 1, .service 1 1, .service 1 1] := by
  refine ⟨twoTransfers_initial, ?_⟩
  intro h
  have hrun : ((Transition.run (EngineSys.step ⟨false, false, 4096⟩) twoTransfers
      [.queue (.tfer 0 0) 1, .queue (.tfer 1 0) 1, .progress 1, .service 1 1]).bind (fun m =>
        (m.step ⟨false, false, 4096⟩ (.service 1 1)).map (fun s' =>
          (m.drv.hist.starts, (m.drv.xfer (.tfer 1 0)).state, (s'.drv.xfer (.tfer 1 0)).state))))
      = some ([.tfer 0 0], .submitted, .failed) := by decide
  simp only [Option.bind_eq_some_iff, Option.map_eq_some_iff, Prod.mk.injEq] at hrun
  rcases hrun with ⟨m, hm, s', hs', hstarts, hbefore, hafter⟩
  have hsound := h.last hm hs' (.tfer 1 0) (by rw [hbefore, hafter]; decide) (Or.inr hafter)
  rw [hstarts] at hsound
  simp at hsound

end Xdma
