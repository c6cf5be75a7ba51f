import ReferenceProjects.Xdma.Impl.Service
import ReferenceProjects.Xdma.Lemmas.Service
import ReferenceProjects.Xdma.Lemmas.Submit
import Mathlib.Data.List.Infix

/-!
This module contains what a blocking read returns from a streaming engine that was opened with
`eop_flush`, whose transfer ends at the end of a packet after any number of services.
-/

namespace Xdma

/--
What happens between two services of a run leaves the engine at work on the same transfer; the
hardware writes results, and other threads queue transfers behind it.
-/
structure SameRun (t : XferPtr) (d d' : Driver) : Prop where
  xfer : d'.xfer t = d.xfer t
  head : d'.engine.transferList.head? = d.engine.transferList.head?
  running : d'.engine.running = d.engine.running
  descDequeued : d'.engine.descDequeued = d.engine.descDequeued
  eopFlush : d'.engine.eopFlush = d.engine.eopFlush
  streamC2h : d'.engine.streamC2h = d.engine.streamC2h

/-- One service of a run on `t`, and what happens before it. -/
structure EopService (t : XferPtr) where
  before : Driver → Driver
  sameRun : ∀ d, SameRun t d (before d)
  descWriteback : BitVec 32
  hw : HwRegs

variable {t : XferPtr}

/-- The number of completed descriptors that the service sees. -/
def EopService.count (c : EopService t) : Nat := (serviceCount c.descWriteback c.hw).toNat

def EopService.run (p : ModuleParam) (d : Driver) (c : EopService t) : Driver :=
  engineService p (c.before d) c.descWriteback c.hw

/-- The services of a run, one after the other. -/
def eopServices (p : ModuleParam) (d : Driver) (cs : List (EopService t)) : Driver :=
  cs.foldl (EopService.run p) d

/-- The services of a run left `t` with its `n` descriptors pending, and counted `cmpl` of them. -/
structure EopPending (t : XferPtr) (n : Nat) (cmpl : BitVec 32) (d : Driver) : Prop where
  bound : n ≤ xdmaTransferMaxDesc
  streamC2h : d.engine.streamC2h = true
  eopFlush : d.engine.eopFlush = true
  dequeued : d.engine.descDequeued = 0
  head : d.engine.transferList.head? = some t
  state : (d.xfer t).state = .submitted
  cmpl : (d.xfer t).descCmpl = cmpl
  noEop : (d.xfer t).flags &&& xferFlagStC2hEopRcved = 0
  notCyclic : (d.xfer t).cyclic = false
  blocking : (d.xfer t).cb = none
  num : (d.xfer t).descNum = n

/-- The engine was started on the new transfer `t` of a blocking submission. -/
def EopStarted (t : XferPtr) (n : Nat) (d : Driver) : Prop :=
  EopPending t n 0 d ∧ d.engine.running = true

/--
The read counts the descriptors that the hardware completed, returns their bytes, and looks at no
result but those of the transfer.
-/
structure EopReturned (t : XferPtr) (n : Nat) (d : Driver) (count : Nat) (ret : Except Errno Nat)
    : Prop where
  cmpl : (d.xfer t).descCmpl = BitVec.ofNat 32 count
  ret : ret = .ok (resultTotal d.engine (d.xfer t) count)
  inside : (d.xfer t).descCmpl.toInt ≤ n

section Service

variable {p : ModuleParam} {d : Driver} {n : Nat} {cmpl : BitVec 32}

theorem EopPending.sameRun {d' : Driver} (h : EopPending t n cmpl d) (hsame : SameRun t d d')
    : EopPending t n cmpl d' := by
  rcases hsame with ⟨hxfer, hhead, _, hdequeued, heop, hstream⟩
  constructor
  . apply h.bound
  all_goals simp only [*]
  . apply h.streamC2h
  . apply h.eopFlush
  . apply h.dequeued
  . apply h.head
  . apply h.state
  . apply h.cmpl
  . apply h.noEop
  . apply h.notCyclic
  . apply h.blocking
  . apply h.num

/-- What a service of the run leads to. -/
inductive EopOutcome (t : XferPtr) (n : Nat) (cmpl count : BitVec 32) (d : Driver) : Prop where
  | pending (state : (d.xfer t).state = .submitted)
      (h : d.engine.running = true → EopPending t n (cmpl + count) d)
  | failed (state : (d.xfer t).state = .failed)
  | completed (state : (d.xfer t).state = .completed) (streamC2h : d.engine.streamC2h = true)
      (eopFlush : d.engine.eopFlush = true)
      (cmpl : (d.xfer t).descCmpl
        = if count < BitVec.ofNat 32 n then cmpl + count else BitVec.ofNat 32 n)

@[simp]
theorem Driver.setXfer_xfer_self (xfer : XdmaTransfer)
    : (d.setXfer t xfer).xfer t = xfer := by
  apply Function.update_self

@[simp]
theorem Driver.listDel_xfer
    : d.listDel.xfer = d.xfer := rfl

theorem EopPending.final {m : Driver} (h : EopPending t n cmpl m)
    (count : BitVec 32) (hw : HwRegs)
    : EopOutcome t n cmpl count (engineServiceFinalTransfer p m (some t) count hw) := by
  unfold engineServiceFinalTransfer finalVerdict
  dsimp only
  rw [h.num]
  by_cases herr : m.engine.status &&& errMask m.engine.dir ≠ 0
  . rw [if_pos herr]
    dsimp only
    apply EopOutcome.failed
    rw [engineTransferCompletion_of_blocking]
    . rw [engineErrHandle, xdmaEngineStop_setXfer]
      simp
    . rw [engineErrHandle, xdmaEngineStop_setXfer]
      simp [h.blocking]
  . rw [if_neg herr]
    by_cases hshort : count < BitVec.ofNat 32 n
    . rw [if_pos hshort, if_pos h.eopFlush]
      by_cases hflags : eopFlags m.engine (m.xfer t) count.toNat &&& xferFlagStC2hEopRcved = 0
      . rw [if_pos hflags]
        dsimp only
        apply EopOutcome.pending
        . rw [Driver.setXfer_xfer_self]
          apply h.state
        . intro _
          constructor
          . apply h.bound
          . apply h.streamC2h
          . apply h.eopFlush
          . apply h.dequeued
          . apply h.head
          all_goals rw [Driver.setXfer_xfer_self]
          . apply h.state
          . rw [h.cmpl]
          . apply hflags
          . apply h.notCyclic
          . apply h.blocking
      . rw [if_neg hflags]
        dsimp only
        rw [engineTransferCompletion_of_blocking]
        . apply EopOutcome.completed
          . simp
          . apply h.streamC2h
          . apply h.eopFlush
          . simp [hshort, h.cmpl]
        . simp [h.blocking]
    . rw [if_neg hshort]
      dsimp only
      rw [engineTransferCompletion_of_blocking]
      . apply EopOutcome.completed
        . simp
        . apply h.streamC2h
        . apply h.eopFlush
        . simp [hshort]
      . simp [h.blocking]

theorem EopPending.regs {d' : Driver} (h : EopPending t n cmpl d) (hregs : ServiceRegs d d')
    (hdequeued : d'.engine.descDequeued = d.engine.descDequeued)
    : EopPending t n cmpl d' := by
  constructor
  . apply h.bound
  . rw [hregs.eq]
    apply h.streamC2h
  . rw [hregs.eq]
    apply h.eopFlush
  . rw [hdequeued]
    apply h.dequeued
  all_goals rw [hregs.eq]
  . apply h.head
  . apply h.state
  . apply h.cmpl
  . apply h.noEop
  . apply h.notCyclic
  . apply h.blocking
  . apply h.num

theorem EopPending.service (h : EopPending t n cmpl d) (hrun : d.engine.running = true)
    {descWriteback : BitVec 32} {hw : HwRegs}
    (hcount : (serviceCount descWriteback hw).toNat ≤ n)
    : EopOutcome t n cmpl (serviceCount descWriteback hw) (engineService p d descWriteback hw) := by
  have hregs := engineServiceStatus_regs p hw d descWriteback
  have hpending := h.regs hregs (engineServiceStatus_dequeued p hw d descWriteback)
  unfold engineService
  rw [if_neg (by simp [hrun])]
  dsimp only
  generalize engineServiceStatus p d descWriteback hw = m at *
  generalize serviceCount descWriteback hw = count at *
  split
  . next hzero =>
    apply EopOutcome.pending hpending.state
    intro _
    have hsame : cmpl + count = cmpl := by
      rw [hzero]
      apply BitVec.add_zero
    rw [hsame]
    apply hpending
  . rw [engineServiceCount_eq, (countServed_access p hw m count).2.2, hpending.eopFlush, if_pos rfl]
    unfold countServed
    dsimp only
    generalize hperf : (if m.engine.transferList.head?.isSome then engineServicePerf m count else m)
      = m'
    have hregs' : ServiceRegs m m' := by
      rw [← hperf]
      split
      . apply engineServicePerf_regs
      . exact ⟨rfl, id⟩
    have hdequeued : m'.engine.descDequeued = m.engine.descDequeued := by
      rw [← hperf]
      split
      . rw [engineServicePerf_eq]
      . rfl
    have hpending' := hpending.regs hregs' hdequeued
    have hlist : m.engine.transferList = m'.engine.transferList := by rw [hregs'.eq]
    have hcount' : count - m'.engine.descDequeued = count := by
      rw [hpending'.dequeued]
      apply BitVec.sub_zero
    have hhead := hpending'.head
    rcases List.head?_eq_some_iff.mp hhead with ⟨rest, hrest⟩
    have hle : ¬ count > BitVec.ofNat 32 (m'.xfer t).descNum := by
      have hnum := hpending'.num
      have hbound := hpending'.bound
      unfold xdmaTransferMaxDesc at hbound
      rw [gt_iff_lt, BitVec.lt_def, BitVec.toNat_ofNat]
      omega
    rw [hlist, hhead, hcount', engineServiceTransferList_of_le p hw m' hrest hle]
    apply hpending'.final

theorem engineService_idle (h : d.engine.running = false) (descWriteback : BitVec 32) (hw : HwRegs)
    : engineService p d descWriteback hw = { d with engine.status := hw.statusRc } := by
  unfold engineService
  rw [if_pos (by simp [h])]

theorem EopService.run_idle (h : d.engine.running = false) (c : EopService t)
    : (EopService.run p d c).engine.running = false ∧ ((EopService.run p d c).xfer t).state = (d.xfer t).state := by
  have hsame := c.sameRun d
  unfold EopService.run
  rw [engineService_idle (hsame.running.trans h)]
  constructor
  . apply hsame.running.trans h
  . simp only [hsame.xfer]

theorem eopServices_append (cs : List (EopService t)) (c : EopService t)
    : eopServices p d (cs ++ [c]) = EopService.run p (eopServices p d cs) c := by
  simp [eopServices]

end Service

section Run

variable {p : ModuleParam} {d : Driver} {n : Nat}

/-- The number of descriptors that services count, each from the start of the run on. -/
def eopCounted (cs : List (EopService t)) : Nat := (cs.map EopService.count).sum

theorem EopPending.run {o : Driver} {m : Nat} {c : EopService t} (hcount : c.count ≤ n)
    (hrun : o.engine.running = true) (h : EopPending t n (BitVec.ofNat 32 m) o)
    : EopOutcome t n (BitVec.ofNat 32 m) (BitVec.ofNat 32 c.count) (EopService.run p o c) := by
  have hsame := c.sameRun o
  have hservice := (h.sameRun hsame).service (p := p) (hsame.running.trans hrun) hcount
  unfold EopService.run EopService.count
  rw [BitVec.ofNat_toNat, BitVec.setWidth_eq]
  apply hservice

theorem eopServices_pending (hstart : EopStarted t n d) (cs : List (EopService t))
    (hcount : ∀ c ∈ cs, c.count ≤ n)
    (hstate : ∀ cs', cs' <+: cs → ((eopServices p d cs').xfer t).state = .submitted)
    : let o := eopServices p d cs
      o.engine.running = true → EopPending t n (BitVec.ofNat 32 (eopCounted cs)) o := by
  induction cs using List.reverseRecOn with
  | nil =>
    intro o _
    apply hstart.1
  | append_singleton cs c ih =>
    intro o hrun
    have hpending := ih (fun c' hc' => hcount c' (List.mem_append_left _ hc'))
      (fun cs' hcs' => hstate cs' (hcs'.trans (List.prefix_append cs [c])))
    have hsum : eopCounted (cs ++ [c]) = eopCounted cs + c.count := by simp [eopCounted]
    have hlast := hstate (cs ++ [c]) (List.prefix_refl _)
    rw [hsum, BitVec.ofNat_add]
    rw [eopServices_append] at hlast
    have ho : o = EopService.run p (eopServices p d cs) c := eopServices_append cs c
    rw [ho] at hrun ⊢
    cases hrunning : (eopServices p d cs).engine.running with
    | false =>
      rw [(EopService.run_idle hrunning c).1] at hrun
      contradiction
    | true =>
      have hlast' := hcount c (List.mem_append_right _ (List.mem_singleton_self c))
      cases EopPending.run hlast' hrunning (hpending hrunning) with
      | pending _ h => apply h hrun
      | failed state =>
        rw [state] at hlast
        contradiction
      | completed state =>
        rw [state] at hlast
        contradiction

theorem eopServices_completed (hstart : EopStarted t n d) (cs : List (EopService t))
    (c : EopService t) (hcount : ∀ c' ∈ cs ++ [c], c'.count ≤ n)
    (hstate : ∀ cs', cs' <+: cs → ((eopServices p d cs').xfer t).state = .submitted)
    (hdone : ((eopServices p d (cs ++ [c])).xfer t).state = .completed)
    : let o := eopServices p d (cs ++ [c])
      o.engine.streamC2h = true ∧ o.engine.eopFlush = true
        ∧ (o.xfer t).descCmpl = if BitVec.ofNat 32 c.count < BitVec.ofNat 32 n then
            BitVec.ofNat 32 (eopCounted cs) + BitVec.ofNat 32 c.count
          else
            BitVec.ofNat 32 n := by
  have hlast := hcount c (List.mem_append_right _ (List.mem_singleton_self c))
  have hpending := eopServices_pending hstart cs
    (fun c' hc' => hcount c' (List.mem_append_left _ hc')) hstate
  rw [eopServices_append] at hdone ⊢
  cases hrunning : (eopServices p d cs).engine.running with
  | false =>
    rw [(EopService.run_idle hrunning c).2, hstate cs (List.prefix_refl _)] at hdone
    contradiction
  | true =>
    cases EopPending.run hlast hrunning (hpending hrunning) with
    | pending state =>
      rw [state] at hdone
      contradiction
    | failed state =>
      rw [state] at hdone
      contradiction
    | completed _ hstream heop hcmpl => exact ⟨hstream, heop, hcmpl⟩

theorem descCmpl_eq_iff {m count : Nat} (hcount : count ≤ n) (hn : n ≤ xdmaTransferMaxDesc)
    : (if BitVec.ofNat 32 count < BitVec.ofNat 32 n then
            BitVec.ofNat 32 m + BitVec.ofNat 32 count
          else
            BitVec.ofNat 32 n) = BitVec.ofNat 32 count
        ↔ count = n ∨ m % 2 ^ 32 = 0 := by
  unfold xdmaTransferMaxDesc at hn
  rw [← BitVec.toNat_inj]
  split
  . next hlt =>
    rw [BitVec.lt_def, BitVec.toNat_ofNat, BitVec.toNat_ofNat] at hlt
    rw [BitVec.toNat_add, BitVec.toNat_ofNat, BitVec.toNat_ofNat]
    omega
  . next hlt =>
    rw [BitVec.lt_def, BitVec.toNat_ofNat, BitVec.toNat_ofNat] at hlt
    rw [BitVec.toNat_ofNat, BitVec.toNat_ofNat]
    omega

theorem submitReturn_completed {e : XdmaEngine} {xfer : XdmaTransfer} (nents : Nat)
    (hstate : xfer.state = .completed) (hstream : e.streamC2h = true) (heop : e.eopFlush = true)
    : let l := submitSwitch e xfer ⟨none, 0, nents⟩
      l.nents = 0 ∧ l.rv = none
        ∧ submitReturn l = .ok (resultTotal e xfer xfer.descCmpl.toInt.toNat) := by
  have hswitch : submitSwitch e xfer ⟨none, 0, nents⟩
      = ⟨none, resultTotal e xfer xfer.descCmpl.toInt.toNat, 0⟩ := by
    unfold submitSwitch
    rw [hstate]
    dsimp only
    rw [if_pos hstream, if_pos heop, Nat.zero_add]
  rw [hswitch]
  refine ⟨rfl, rfl, ?_⟩
  unfold submitReturn
  dsimp only
  split
  . rfl
  . next h => rw [not_not.mp h]

theorem xdmaXferSubmit_completed {alloc : Nat → Bool} {s s₁ q : Driver} {r : Nat}
    {epAddr : BitVec 64} {sgl : List Scatterlist} {dmaMapped : Bool} {env : Nat → Wait}
    {req : XdmaRequestCb}
    (hreq : submitRequest p alloc s r false epAddr sgl dmaMapped = some (s₁, .ok req))
    (hne : req.swDescCnt ≠ 0)
    (hqueue : transferQueue p (submitInit s₁ r (.tfer r 0) none dmaMapped req.swDescCnt).1
      (.tfer r 0) (env 0).hwQueue = .ok q)
    (hstate : (((env 0).others q).xfer (.tfer r 0)).state = .completed)
    (hstream : ((env 0).others q).engine.streamC2h = true)
    (heop : ((env 0).others q).engine.eopFlush = true)
    : ∃ res, xdmaXferSubmit p alloc s r false epAddr sgl dmaMapped env = some res
        ∧ let o := (env 0).others q
          res.ret = .ok (resultTotal o.engine (o.xfer (.tfer r 0))
            (o.xfer (.tfer r 0)).descCmpl.toInt.toNat) := by
  unfold xdmaXferSubmit
  rw [hreq]
  dsimp only
  rcases Nat.exists_eq_succ_of_ne_zero hne with ⟨fuel, hfuel⟩
  have hround := submitLoop_succ p dmaMapped env fuel 0 s₁
    (l := ⟨none, 0, req.swDescCnt⟩) hne hqueue
  have hreturn := submitReturn_completed
    (submitInit s₁ r (.tfer r 0) none dmaMapped req.swDescCnt).2 hstate hstream heop
  dsimp only at hround hreturn
  generalize submitSwitch ((env 0).others q).engine (((env 0).others q).xfer (.tfer r 0))
    ⟨none, 0, (submitInit s₁ r (.tfer r 0) none dmaMapped req.swDescCnt).2⟩ = l at *
  rcases hreturn with ⟨hnents, hrv, hret⟩
  have hend : ∀ fuel k s', submitLoop p r dmaMapped env fuel k s' l = some (l, [], s') := by
    intro fuel k s'
    unfold submitLoop
    rw [if_pos hnents]
  rw [hrv, if_neg (by simp), hend] at hround
  rw [hfuel] at hround ⊢
  rw [hround]
  exact ⟨_, rfl, hret⟩

/--
The read returns what the hardware wrote exactly when it completed the transfer as a whole, or the
services before the last one counted nothing.
-/
theorem xdmaXferSubmit_eopReturned_iff {alloc : Nat → Bool} {s s₁ q : Driver} {r : Nat}
    {epAddr : BitVec 64} {sgl : List Scatterlist} {dmaMapped : Bool} {env : Nat → Wait}
    {req : XdmaRequestCb}
    (hreq : submitRequest p alloc s r false epAddr sgl dmaMapped = some (s₁, .ok req))
    (hne : req.swDescCnt ≠ 0)
    (hqueue : transferQueue p (submitInit s₁ r (.tfer r 0) none dmaMapped req.swDescCnt).1
      (.tfer r 0) (env 0).hwQueue = .ok q)
    (hstart : EopStarted (.tfer r 0) n d) (cs : List (EopService (.tfer r 0)))
    (c : EopService (.tfer r 0)) (henv : (env 0).others q = eopServices p d (cs ++ [c]))
    (hcount : ∀ c' ∈ cs ++ [c], c'.count ≤ n)
    (hstate : ∀ cs', cs' <+: cs → ((eopServices p d cs').xfer (.tfer r 0)).state = .submitted)
    (hdone : ((eopServices p d (cs ++ [c])).xfer (.tfer r 0)).state = .completed)
    : ∃ res, xdmaXferSubmit p alloc s r false epAddr sgl dmaMapped env = some res
        ∧ (EopReturned (.tfer r 0) n (eopServices p d (cs ++ [c])) c.count res.ret
            ↔ c.count = n ∨ eopCounted cs % 2 ^ 32 = 0) := by
  rcases eopServices_completed hstart cs c hcount hstate hdone with ⟨hstream, heop, hcmpl⟩
  have hlast := hcount c (List.mem_append_right _ (List.mem_singleton_self c))
  have hn := hstart.1.bound
  rw [← henv] at hstream heop hdone hcmpl ⊢
  rcases xdmaXferSubmit_completed hreq hne hqueue hdone hstream heop with ⟨res, hres, hret⟩
  refine ⟨res, hres, ?_⟩
  rw [← descCmpl_eq_iff hlast hn, ← hcmpl]
  constructor
  . intro h
    apply h.cmpl
  . intro h
    have hint : ((((env 0).others q).xfer (.tfer r 0)).descCmpl).toInt = c.count := by
      unfold xdmaTransferMaxDesc at hn
      rw [h, BitVec.toInt_eq_toNat_of_lt] <;> rw [BitVec.toNat_ofNat] <;> omega
    constructor
    . apply h
    . rw [hret, hint, Int.toNat_natCast]
    . rw [hint]
      omega

end Run

section Packet

/-- A C2H streaming engine that was opened with `eop_flush`. -/
def eopEngine : Driver :=
  Driver.init { XdmaEngine.init .fromDevice true 0x100000 0x200000 with eopFlush := true }

/-- Four buffers of 16 bytes. -/
def eopSgl : List Scatterlist := [⟨0x1000, 16⟩, ⟨0x2000, 16⟩, ⟨0x3000, 16⟩, ⟨0x4000, 16⟩]

/-- The request for them, and the driver with their transfer queued and the engine started on it. -/
def eopRequest : XdmaRequestCb := ⟨0, 0, eopSgl.map (fun sg => ⟨sg.dmaAddress, sg.dmaLen⟩)⟩

def eopRequested : Driver :=
  { eopEngine.mapSg 0 eopSgl with req := Function.update eopEngine.req 0 eopRequest }

def eopQueued : Driver :=
  let s := (submitInit eopRequested 0 (.tfer 0 0) none true 4).1.enqueue (.tfer 0 0)
  (engineStart ⟨true, false, 4096⟩ s ⟨blockIdHead, 0, xdmaStatBusy, 0⟩).getD s

/-- The hardware writes results from the first one on, and their number. -/
def eopWriteback (results : List XdmaResult) : EopService (.tfer 0 0) where
  before := fun d =>
    { d with engine.cyclicResult := fun i => results.getD i (d.engine.cyclicResult i) }
  sameRun := fun d => by constructor <;> rfl
  descWriteback := BitVec.ofNat 32 results.length
  hw := ⟨blockIdHead, xdmaStatBusy, xdmaStatBusy, 0⟩

/-- What happens until the waiter looks at the transfer. -/
def eopWait (cs : List (EopService (.tfer 0 0))) : Wait where
  hwQueue := ⟨blockIdHead, 0, xdmaStatBusy, 0⟩
  hwWake := ⟨blockIdHead, 0, 0, 0⟩
  others := fun d => eopServices ⟨true, false, 4096⟩ d cs

theorem eopEngine_request
    : submitRequest ⟨true, false, 4096⟩ (fun _ => true) eopEngine 0 false 0 eopSgl true
        = some (eopRequested, .ok eopRequest) := by
  have hinit : xdmaInitRequest 4096 (fun _ => true) eopSgl 0 = .ok eopRequest := by decide
  unfold submitRequest
  rw [if_neg (by decide), if_neg (by decide), if_neg (by decide)]
  dsimp only
  rw [hinit]
  rfl

theorem eopEngine_queue
    : transferQueue ⟨true, false, 4096⟩
        (submitInit eopRequested 0 (.tfer 0 0) none true eopRequest.swDescCnt).1 (.tfer 0 0)
        ⟨blockIdHead, 0, xdmaStatBusy, 0⟩ = .ok eopQueued := rfl

theorem eopQueued_started
    : EopStarted (.tfer 0 0) 4 eopQueued := by
  refine ⟨?_, by decide⟩
  constructor <;> decide

/-- A packet that ends in the second of four buffers, both found by one service. -/
theorem xdmaXferSubmit_eopReturned_iff_packet
    : let cs := [eopWriteback []]
      let c := eopWriteback [⟨0, 16⟩, ⟨rxStatusEop, 8⟩]
      ∃ res, xdmaXferSubmit ⟨true, false, 4096⟩ (fun _ => true) eopEngine 0 false 0 eopSgl true
            (fun _ => eopWait (cs ++ [c])) = some res
        ∧ (EopReturned (.tfer 0 0) 4 (eopServices ⟨true, false, 4096⟩ eopQueued (cs ++ [c])) c.count
            res.ret
          ↔ c.count = 4 ∨ eopCounted cs % 2 ^ 32 = 0) := by
  intro cs c
  have hstate : ∀ cs' ∈ cs.inits,
      ((eopServices ⟨true, false, 4096⟩ eopQueued cs').xfer (.tfer 0 0)).state = .submitted := by
    decide
  exact xdmaXferSubmit_eopReturned_iff eopEngine_request (by decide) eopEngine_queue
    eopQueued_started cs c rfl (by decide)
    (fun cs' h => hstate cs' ((List.mem_inits cs' cs).mpr h)) (by decide)

/--
A packet that ends in the third of four buffers, each of which a service finds as it is completed:
`1 + 2 + 3` descriptors are counted.
-/
theorem not_eopReturned_packet
    : let cs := [eopWriteback [⟨0, 16⟩], eopWriteback [⟨0, 16⟩, ⟨0, 16⟩]]
      let c := eopWriteback [⟨0, 16⟩, ⟨0, 16⟩, ⟨rxStatusEop, 8⟩]
      let o := eopServices ⟨true, false, 4096⟩ eopQueued (cs ++ [c])
      EopStarted (.tfer 0 0) 4 eopQueued
        ∧ (cs ++ [c]).map EopService.count = [1, 2, 3]
        ∧ (∀ cs', cs' <+: cs → ((eopServices ⟨true, false, 4096⟩ eopQueued cs').xfer
          (.tfer 0 0)).state = .submitted)
        ∧ (o.xfer (.tfer 0 0)).state = .completed
        ∧ ∃ res, xdmaXferSubmit ⟨true, false, 4096⟩ (fun _ => true) eopEngine 0 false 0 eopSgl true
            (fun _ => eopWait (cs ++ [c])) = some res
          ∧ ¬ EopReturned (.tfer 0 0) 4 o c.count res.ret := by
  intro cs c o
  have hstate : ∀ cs' ∈ cs.inits,
      ((eopServices ⟨true, false, 4096⟩ eopQueued cs').xfer (.tfer 0 0)).state = .submitted := by
    decide
  have hdone : (o.xfer (.tfer 0 0)).state = .completed := by decide
  have hstream : o.engine.streamC2h = true := by decide
  have heop : o.engine.eopFlush = true := by decide
  have hsubmit : ∃ res, xdmaXferSubmit ⟨true, false, 4096⟩ (fun _ => true) eopEngine 0 false 0 eopSgl
      true (fun _ => eopWait (cs ++ [c])) = some res ∧ _ :=
    xdmaXferSubmit_completed eopEngine_request (by decide) eopEngine_queue hdone hstream heop
  rcases hsubmit with ⟨res, hres, _⟩
  refine ⟨eopQueued_started, by decide, ?_, hdone, res, hres, ?_⟩
  . intro cs' h
    apply hstate cs' ((List.mem_inits cs' cs).mpr h)
  . intro h
    have hcmpl : (o.xfer (.tfer 0 0)).descCmpl = 6 := by decide
    have hcount : c.count = 3 := by decide
    rw [h.cmpl, hcount] at hcmpl
    contradiction

end Packet

end Xdma
