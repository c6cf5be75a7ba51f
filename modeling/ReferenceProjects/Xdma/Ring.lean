import ReferenceProjects.Lib.Ring
import ReferenceProjects.Xdma.Impl.Perf
import ReferenceProjects.Xdma.Lemmas.Step

/-!
This module contains when the transfers that are initialised and not yet destroyed have each their own
part of the descriptor ring.
-/

namespace Xdma

open Ring (behind slots)

/-- The descriptors of the ring that a transfer has. -/
def Driver.slots (d : Driver) (t : XferPtr) : Finset Nat :=
  Ring.slots (d.xfer t).descIndex (d.xfer t).descNum

/-- No two live transfers share a descriptor, all have theirs in the ring, which has enough for all. -/
structure RingSound (d : Driver) : Prop where
  disjoint : d.hist.live.Pairwise (fun t u => Disjoint (d.slots t) (d.slots u))
  inside : ∀ t ∈ d.hist.live, (d.xfer t).descIndex + (d.xfer t).descNum ≤ xdmaTransferMaxDesc
  total : d.liveDescs ≤ xdmaTransferMaxDesc

/--
The ring has room for the transfer that `transfer_init()` builds next for request `r`: from the start
of a live transfer to the end of the new one it is once around the ring at most, and the new one
starts behind a running measurement.
-/
def RingRoom (d : Driver) (r : Nat) : Prop :=
  ∀ t ∈ d.hist.live,
    match t with
    | .tfer _ _ =>
      behind xdmaTransferMaxDesc (d.xfer t).descIndex d.engine.descIdx
        + transferDescMax d.engine (d.req r) ≤ xdmaTransferMaxDesc
    | .perf _ => (d.xfer t).descIndex + (d.xfer t).descNum ≤ d.engine.descIdx

/-- No live transfer has a descriptor of the ring that a measurement is going to use. -/
def PerfRoom (d : Driver) (transferSize : Nat) : Prop :=
  ∀ num ∈ perfDescNum transferSize, ∀ t ∈ d.hist.live, num ≤ (d.xfer t).descIndex

/--
A step has room for what it builds: a submission for its next transfer, in the ring and in `tfer[2]`
of its request, and a measurement that is not refused.
-/
def HasRoom (s : PerfSys) : PerfEvent → Prop
  | .sys (.thread r op) =>
    op = .init → (∀ th ∈ s.sys.thr r, th.pc.tferIdx < 2) ∧ RingRoom s.sys.drv r
  | .start _ perf perfBufBus =>
    s.sys.drv.engine.xdmaPerf = none → perfBufBus.isSome → PerfRoom s.sys.drv perf.transferSize
  | _ => True

instance (d : Driver) (r : Nat) : Decidable (RingRoom d r) :=
  have (t : XferPtr) : Decidable (match t with
      | .tfer _ _ =>
        behind xdmaTransferMaxDesc (d.xfer t).descIndex d.engine.descIdx
          + transferDescMax d.engine (d.req r) ≤ xdmaTransferMaxDesc
      | .perf _ => (d.xfer t).descIndex + (d.xfer t).descNum ≤ d.engine.descIdx) :=
    match t with
    | .tfer _ _ => inferInstanceAs (Decidable (_ ≤ _))
    | .perf _ => inferInstanceAs (Decidable (_ ≤ _))
  inferInstanceAs (Decidable (∀ t ∈ d.hist.live, _))

instance (d : Driver) (transferSize : Nat) : Decidable (PerfRoom d transferSize) :=
  inferInstanceAs (Decidable (∀ num ∈ perfDescNum transferSize, ∀ t ∈ d.hist.live, _ ≤ _))

instance (s : PerfSys) : (e : PerfEvent) → Decidable (HasRoom s e)
  | .sys (.thread _ _) => inferInstanceAs (Decidable (_ = _ → _ ∧ _))
  | .start _ _ _ => inferInstanceAs (Decidable (_ → _ → PerfRoom _ _))
  | .sys (.submit ..) => inferInstanceAs (Decidable True)
  | .sys (.service ..) => inferInstanceAs (Decidable True)
  | .sys .setOffline => inferInstanceAs (Decidable True)
  | .sys .offlineEngine => inferInstanceAs (Decidable True)
  | .sys .onlineEngine => inferInstanceAs (Decidable True)
  | .sys .clearOffline => inferInstanceAs (Decidable True)
  | .queue _ => inferInstanceAs (Decidable True)
  | .stop => inferInstanceAs (Decidable True)

/-- What the steps with room keep: a live transfer lies behind the producer of the ring as a whole. -/
structure RingInv (d : Driver) : Prop where
  idx : d.engine.descIdx < 2048
  start : ∀ t ∈ d.hist.live, (d.xfer t).descIndex < 2048
  inside : ∀ t ∈ d.hist.live, (d.xfer t).descIndex + (d.xfer t).descNum ≤ 2048
  behind : ∀ r j, .tfer r j ∈ d.hist.live
    → (d.xfer (.tfer r j)).descNum ≤ behind 2048 (d.xfer (.tfer r j)).descIndex d.engine.descIdx
  disjoint : d.hist.live.Pairwise (fun t u => Disjoint (d.slots t) (d.slots u))

/-- What hands out no descriptor and takes nothing from a request. -/
structure RingFrame (d d' : Driver) : Prop where
  req : d'.req = d.req
  idx : d'.engine.descIdx = d.engine.descIdx
  live : d'.hist.live.Sublist d.hist.live
  xfer : ∀ t, (d'.xfer t).descIndex = (d.xfer t).descIndex ∧ (d'.xfer t).descNum = (d.xfer t).descNum

section Frame

variable {p : ModuleParam} {d d' : Driver}

theorem RingFrame.refl (d : Driver) : RingFrame d d :=
  ⟨rfl, rfl, List.Sublist.refl _, fun _ => ⟨rfl, rfl⟩⟩

theorem RingFrame.trans {d'' : Driver} (h : RingFrame d d') (h' : RingFrame d' d'')
    : RingFrame d d'' where
  req := h'.req.trans h.req
  idx := h'.idx.trans h.idx
  live := h'.live.trans h.live
  xfer := fun t => ⟨(h'.xfer t).1.trans (h.xfer t).1, (h'.xfer t).2.trans (h.xfer t).2⟩

theorem RingInv.frame (hinv : RingInv d) (h : RingFrame d d') : RingInv d' where
  idx := by
    rw [h.idx]
    exact hinv.idx
  start := by
    intro t ht
    rw [(h.xfer t).1]
    exact hinv.start t (h.live.subset ht)
  inside := by
    intro t ht
    rw [(h.xfer t).1, (h.xfer t).2]
    exact hinv.inside t (h.live.subset ht)
  behind := by
    intro r j ht
    rw [(h.xfer _).1, (h.xfer _).2, h.idx]
    exact hinv.behind r j (h.live.subset ht)
  disjoint := by
    have hslots : d'.slots = d.slots := by
      funext t
      unfold Driver.slots
      rw [(h.xfer t).1, (h.xfer t).2]
    rw [hslots]
    exact hinv.disjoint.sublist h.live

theorem RingFrame.setXfer (d : Driver) {t : XferPtr} {xfer : XdmaTransfer}
    (hindex : xfer.descIndex = (d.xfer t).descIndex) (hnum : xfer.descNum = (d.xfer t).descNum)
    : RingFrame d (d.setXfer t xfer) where
  req := rfl
  idx := rfl
  live := List.Sublist.refl _
  xfer := by
    intro u
    simp only [Driver.setXfer]
    by_cases hu : u = t
    . rw [hu, Function.update_self]
      exact ⟨hindex, hnum⟩
    . rw [Function.update_of_ne hu]
      exact ⟨rfl, rfl⟩

theorem engineService_ringFrame (d : Driver) (descWriteback : BitVec 32) (hw : HwRegs)
    : RingFrame d (engineService p d descWriteback hw) := by
  have hleads : ServiceLeads p hw (RingFrame d) (RingFrame d) := by
    apply ServiceLeads.of_keeps
    . intro s s' hregs h
      refine h.trans ⟨?_, ?_, ?_, ?_⟩ <;> rw [hregs.eq]
      exact fun _ => ⟨rfl, rfl⟩
    . intro s s' hstart h
      rcases engineStart_eq hstart with ⟨_, t, rest, _, heq⟩
      refine h.trans ⟨?_, ?_, ?_, ?_⟩ <;> rw [heq]
      exact fun _ => ⟨rfl, rfl⟩
    . exact fun s t rest flags descCmpl _ h => h.trans (RingFrame.setXfer s rfl rfl)
    . intro s t rest xfer' _ hverdict h
      have hmark : RingFrame s (s.setXfer t xfer').listDel := by
        have hset : RingFrame s (s.setXfer t xfer') :=
          RingFrame.setXfer s (by rw [hverdict.eq]) (by rw [hverdict.eq])
        exact ⟨rfl, hset.idx, hset.live, hset.xfer⟩
      have hframe := engineTransferCompletion_frame p (s.setXfer t xfer').listDel t hw
      refine (h.trans hmark).trans ⟨?_, ?_, hframe.live, ?_⟩
      . rw [hframe.eq]
      . rw [hframe.eq]
      . intro u
        rcases hframe.xfer u with hsame | ⟨_, habort⟩
        . rw [hsame]
          exact ⟨rfl, rfl⟩
        . rw [habort]
          exact ⟨rfl, rfl⟩
  exact engineService_preserves hleads d descWriteback (RingFrame.refl d)

theorem transferQueueLocked_ringFrame {t : XferPtr} {hw : HwRegs}
    (h : transferQueueLocked p d t hw = .ok d')
    : RingFrame d d' := by
  have hset : RingFrame d (d.setXfer t { d.xfer t with state := .submitted }) :=
    RingFrame.setXfer d rfl rfl
  refine hset.trans ⟨?_, ?_, ?_, ?_⟩
  . rw [transferQueueLocked_eq h]
    rfl
  . rw [transferQueueLocked_eq h]
    rfl
  . rw [transferQueueLocked_eq h]
    exact List.Sublist.refl _
  . rw [transferQueueLocked_xfer h]
    exact fun _ => ⟨rfl, rfl⟩

theorem stepThread_ringFrame {s s' : Sys} {r : Nat} {th : Thread} {op : ThreadOp}
    (h : s.stepThread p r th op = some s') (hop : op ≠ .init)
    : RingFrame s.drv s'.drv := by
  have hcases := Sys.stepThread_cases h
  cases op with
  | lock =>
    rcases hcases with ⟨_, _, _, rfl⟩
    exact RingFrame.refl _
  | init => exact absurd rfl hop
  | check =>
    rcases hcases with ⟨k, n, _, rfl⟩
    exact RingFrame.refl _
  | queue hw =>
    rcases hcases with ⟨k, n, _, ⟨_, rfl⟩ | ⟨d', hok, rfl⟩⟩
    . exact RingFrame.refl _
    . exact transferQueueLocked_ringFrame hok
  | wake hw =>
    rcases hcases with ⟨n, _, rfl⟩
    dsimp only [Sys.setThread]
    rcases submitWake_cases p s.drv (th.tfer r 0) hw with
      ⟨status, heq⟩ | ⟨_, status, xfer, heq, hxfer⟩
    . rw [heq]
      exact ⟨rfl, rfl, List.Sublist.refl _, fun _ => ⟨rfl, rfl⟩⟩
    . have hset : RingFrame s.drv (s.drv.setXfer (th.tfer r 0) xfer) := by
        rcases hxfer with rfl | ⟨_, rfl⟩ <;> exact RingFrame.setXfer s.drv rfl rfl
      rw [heq]
      exact ⟨rfl, rfl, List.Sublist.refl _, hset.xfer⟩
  | destroy =>
    rcases hcases with ⟨n, failed, _, rfl⟩
    dsimp only [Sys.setThread]
    rw [submitDestroy_eq]
    exact ⟨rfl, rfl, List.filter_sublist, fun _ => ⟨rfl, rfl⟩⟩
  | exit =>
    rcases hcases with ⟨_, rfl⟩
    dsimp only [Sys.setThread]
    rw [submitExit_eq]
    exact ⟨rfl, rfl, List.filter_sublist, fun _ => ⟨rfl, rfl⟩⟩

end Frame

section Init

variable {d : Driver} {r k : Nat}

theorem RingInv.submitInit (hinv : RingInv d) (hroom : RingRoom d r) (cb : Option Nat)
    (dmaMapped : Bool) (n : Nat)
    : RingInv (submitInit d r (.tfer r k) cb dmaMapped n).1 := by
  have hring := transferDescMax_ring d.engine (d.req r) hinv.idx
  unfold RingRoom xdmaTransferMaxDesc at hroom
  have hnew := submitInit_xfer d r (.tfer r k) cb dmaMapped n
  have hxfer := fun t ht => submitInit_xfer_of_ne (t := t) d r k cb dmaMapped n ht
  have hold : ∀ t ∈ d.hist.live.filter (fun u => u ≠ .tfer r k), t ∈ d.hist.live ∧ t ≠ .tfer r k := by
    intro t ht
    simpa using List.mem_filter.mp ht
  have hlive : (Xdma.submitInit d r (.tfer r k) cb dmaMapped n).1.hist.live
      = .tfer r k :: d.hist.live.filter (fun u => u ≠ .tfer r k) := rfl
  have hidx : (Xdma.submitInit d r (.tfer r k) cb dmaMapped n).1.engine.descIdx
      = (d.engine.descIdx + transferDescMax d.engine (d.req r)) % 2048 := rfl
  dsimp only at hnew
  rw [transferInit_xfer] at hnew
  generalize (Xdma.submitInit d r (.tfer r k) cb dmaMapped n).1 = d' at *
  generalize transferDescMax d.engine (d.req r) = m at *
  have hindex : (d'.xfer (.tfer r k)).descIndex = d.engine.descIdx := hnew.1
  have hnum : (d'.xfer (.tfer r k)).descNum = m := hnew.2.1
  refine ⟨?_, ?_, ?_, ?_, ?_⟩
  . rw [hidx]
    exact Nat.mod_lt _ (Nat.zero_lt_succ _)
  . rw [hlive, List.forall_mem_cons]
    refine ⟨by rw [hindex]; exact hinv.idx, ?_⟩
    intro t ht
    rw [hxfer t (hold t ht).2]
    exact hinv.start t (hold t ht).1
  . rw [hlive, List.forall_mem_cons]
    refine ⟨by rw [hindex, hnum]; exact hring, ?_⟩
    intro t ht
    rw [hxfer t (hold t ht).2]
    exact hinv.inside t (hold t ht).1
  . intro r' j ht
    rw [hidx]
    by_cases hself : XferPtr.tfer r' j = .tfer r k
    . rw [hself, hindex, hnum]
      exact Ring.le_behind_advance hinv.idx hring
    . have hmem : .tfer r' j ∈ d.hist.live.filter (fun u => u ≠ .tfer r k) := by
        rw [hlive, List.mem_cons] at ht
        exact ht.resolve_left hself
      rcases hold _ hmem with ⟨hmem, _⟩
      have hadvance := Ring.behind_advance (hinv.start _ hmem) hring (hroom _ hmem)
      have hbehind := hinv.behind r' j hmem
      rw [hxfer _ hself, hadvance]
      omega
  . rw [hlive, List.pairwise_cons]
    have hslots : ∀ t, t ≠ .tfer r k → d'.slots t = d.slots t := by
      intro t ht
      unfold Driver.slots
      rw [hxfer t ht]
    constructor
    . intro t ht
      rcases hold t ht with ⟨hmem, hne⟩
      have hfree := hroom t hmem
      rw [hslots t hne]
      unfold Driver.slots
      rw [hindex, hnum]
      cases t with
      | tfer r' j => exact (Ring.disjoint_slots_of_behind (hinv.behind r' j hmem) hfree).symm
      | perf run => exact (Ring.disjoint_slots_of_le hfree).symm
    . refine (hinv.disjoint.filter _).imp_of_mem ?_
      intro t u ht hu hdisj
      rw [hslots t (hold t ht).2, hslots u (hold u hu).2]
      exact hdisj

end Init

section Performance

variable {p : ModuleParam} {d d' : Driver}

theorem perfDescNum_le {transferSize num : Nat} (h : perfDescNum transferSize = some num)
    : num ≤ xdmaPerfNumDesc := by
  unfold perfDescNum at h
  dsimp only at h
  split at h
  . contradiction
  . split at h
    . next hlarge =>
      rw [← Option.some.inj h]
      -- more than `xdmaPerfNumDesc` descriptors would be more than the buffer
      exact Nat.div_le_of_le_mul (Nat.le_of_lt hlarge)
    . exact Nat.le_of_eq (Option.some.inj h).symm

theorem RingInv.performanceInit (hinv : RingInv d) {run transferSize num : Nat}
    (hfresh : .perf run ∉ d.hist.live) (hnum : perfDescNum transferSize = some num)
    (hroom : PerfRoom d transferSize) (perfBufBus : BitVec 64) (perf : Option XdmaPerformanceIoctl)
    : RingInv (performanceInit { d with engine.xdmaPerf := perf } (.perf run) perfBufBus transferSize
        num) := by
  have hle : num ≤ 128 := perfDescNum_le hnum
  have hfree := hroom num hnum
  have hlive : (Xdma.performanceInit { d with engine.xdmaPerf := perf } (.perf run) perfBufBus
      transferSize num).hist.live = .perf run :: d.hist.live := rfl
  have hidx : (Xdma.performanceInit { d with engine.xdmaPerf := perf } (.perf run) perfBufBus
      transferSize num).engine.descIdx = d.engine.descIdx := rfl
  have hself : (Xdma.performanceInit { d with engine.xdmaPerf := perf } (.perf run) perfBufBus
      transferSize num).xfer (.perf run)
        = { XdmaTransfer.zero d.engine.dir with
              descNum := num, descBus := d.engine.descBus, cyclic := true } :=
    Function.update_self _ _ _
  have hxfer : ∀ t ∈ d.hist.live, (Xdma.performanceInit { d with engine.xdmaPerf := perf }
      (.perf run) perfBufBus transferSize num).xfer t = d.xfer t :=
    by
      intro t ht
      refine Function.update_of_ne ?_ _ _
      rintro rfl
      exact hfresh ht
  generalize Xdma.performanceInit { d with engine.xdmaPerf := perf } (.perf run) perfBufBus
    transferSize num = d' at *
  have hindex : (d'.xfer (.perf run)).descIndex = 0 := by
    rw [hself]
    rfl
  have hdescNum : (d'.xfer (.perf run)).descNum = num := by rw [hself]
  refine ⟨?_, ?_, ?_, ?_, ?_⟩
  . rw [hidx]
    exact hinv.idx
  . rw [hlive, List.forall_mem_cons, hindex]
    refine ⟨Nat.zero_lt_succ _, ?_⟩
    intro t ht
    rw [hxfer t ht]
    exact hinv.start t ht
  . rw [hlive, List.forall_mem_cons, hindex, hdescNum]
    refine ⟨by omega, ?_⟩
    intro t ht
    rw [hxfer t ht]
    exact hinv.inside t ht
  . intro r j ht
    have hmem : .tfer r j ∈ d.hist.live := by
      rw [hlive, List.mem_cons] at ht
      exact ht.resolve_left (by simp)
    rw [hxfer _ hmem, hidx]
    exact hinv.behind r j hmem
  . rw [hlive, List.pairwise_cons]
    have hslots : ∀ t ∈ d.hist.live, d'.slots t = d.slots t := by
      intro t ht
      unfold Driver.slots
      rw [hxfer t ht]
    constructor
    . intro t ht
      rw [hslots t ht]
      unfold Driver.slots
      rw [hindex, hdescNum]
      exact Ring.disjoint_slots_of_le (by rw [Nat.zero_add]; exact hfree t ht)
    . refine hinv.disjoint.imp_of_mem ?_
      intro t u ht hu hdisj
      rw [hslots t ht, hslots u hu]
      exact hdisj

theorem transferQueue_ringFrame {t : XferPtr} {hw : HwRegs} (h : transferQueue p d t hw = .ok d')
    : RingFrame d d' := transferQueueLocked_ringFrame (transferQueue_ok h).2.2

theorem performanceStop_ringFrame (h : performanceStop p d = some d')
    : RingFrame d d' := by
  unfold performanceStop at h
  split at h
  . rw [← Option.some.inj h]
    exact RingFrame.refl d
  . rw [← Option.some.inj h]
    exact RingFrame.refl d
  . contradiction
  . rw [← Option.some.inj h]
    exact ⟨rfl, rfl, List.filter_sublist, fun _ => ⟨rfl, rfl⟩⟩

end Performance

section Step

variable {p : ModuleParam}

theorem submitRequest_ringFrame {d d' : Driver} {alloc : Nat → Bool} {r : Nat}
    {write dmaMapped : Bool} {epAddr : BitVec 64} {sgl : List Scatterlist}
    {res : Except Errno XdmaRequestCb}
    (h : submitRequest p alloc d r write epAddr sgl dmaMapped = some (d', res))
    : RingFrame { d with req := d'.req } d' := by
  have heq := (submitRequest_eq h).1
  refine ⟨rfl, ?_, ?_, ?_⟩ <;> rw [heq]
  exact fun _ => ⟨rfl, rfl⟩

/-- What a submission has ahead: it counts right what its request has left, and none of it is live. -/
def Thread.Ahead (req : XdmaRequestCb) (live : List XferPtr) (r : Nat) (th : Thread) : Prop :=
  match th.pc with
  | .ready => req.swDescIdx = 0 ∧ ∀ j, .tfer r j ∉ live
  | .loop k n =>
    n ≠ 0 ∧ n = req.rest.length ∧ ∀ j, (if th.wait then 0 else k) ≤ j → .tfer r j ∉ live
  | .built k n | .checked k n =>
    (n ≠ 0 → n = req.rest.length) ∧ ∀ j, (if th.wait then 0 else k) < j → .tfer r j ∉ live
  | .waiting n | .woken n _ => (n ≠ 0 → n = req.rest.length) ∧ ∀ j, 0 < j → .tfer r j ∉ live
  | .leaving | .queued _ | .returned => True

/-- No submission has built what it has ahead. -/
structure Ahead (thr : Nat → Option Thread) (d : Driver) : Prop where
  fresh : ∀ r, thr r = none → ∀ j, .tfer r j ∉ d.hist.live
  threads : ∀ r th, thr r = some th → th.Ahead (d.req r) d.hist.live r

section Ahead

variable {p : ModuleParam} {s s' : Sys} {d d' : Driver} {r : Nat} {th : Thread}

theorem Thread.Ahead.anti {req : XdmaRequestCb} {live live' : List XferPtr}
    (h : th.Ahead req live r) (hlive : ∀ j, .tfer r j ∈ live' → .tfer r j ∈ live)
    : th.Ahead req live' r := by
  unfold Thread.Ahead at h ⊢
  split at h
  . exact ⟨h.1, fun j hj => h.2 j (hlive j hj)⟩
  . exact ⟨h.1, h.2.1, fun j hle hj => h.2.2 j hle (hlive j hj)⟩
  . exact ⟨h.1, fun j hlt hj => h.2 j hlt (hlive j hj)⟩
  . exact ⟨h.1, fun j hlt hj => h.2 j hlt (hlive j hj)⟩
  . exact ⟨h.1, fun j hlt hj => h.2 j hlt (hlive j hj)⟩
  . exact ⟨h.1, fun j hlt hj => h.2 j hlt (hlive j hj)⟩
  . trivial
  . trivial
  . trivial

theorem Ahead.frame {thr : Nat → Option Thread} (h : Ahead thr d) (hreq : d'.req = d.req)
    (hlive : ∀ r j, .tfer r j ∈ d'.hist.live → .tfer r j ∈ d.hist.live)
    : Ahead thr d' where
  fresh := fun r hr j hj => h.fresh r hr j (hlive r j hj)
  threads := by
    intro r th hth
    rw [hreq]
    exact (h.threads r th hth).anti (hlive r)

theorem Ahead.setThread {thr : Nat → Option Thread} (h : Ahead thr d)
    (hreq : ∀ r', r' ≠ r → d'.req r' = d.req r')
    (hlive : ∀ r' j, r' ≠ r → .tfer r' j ∈ d'.hist.live → .tfer r' j ∈ d.hist.live)
    (hself : th.Ahead (d'.req r) d'.hist.live r)
    : Ahead (Function.update thr r (some th)) d' where
  fresh := by
    intro r' hr' j hj
    by_cases hr : r' = r
    . rw [hr, Function.update_self] at hr'
      contradiction
    . rw [Function.update_of_ne hr] at hr'
      exact h.fresh r' hr' j (hlive r' j hr hj)
  threads := by
    intro r' th' hth'
    by_cases hr : r' = r
    . rw [hr, Function.update_self, Option.some.injEq] at hth'
      rw [hr, ← hth']
      exact hself
    . rw [Function.update_of_ne hr] at hth'
      rw [hreq r' hr]
      exact (h.threads r' th' hth').anti (fun j => hlive r' j hr)

theorem Thread.ahead_goOn {req : XdmaRequestCb} {live : List XferPtr}
    {wait wait' dmaMapped : Bool} {k n : Nat} (hleft : n ≠ 0 → n = req.rest.length)
    (hlive : ∀ j, (if wait then 0 else k) ≤ j → .tfer r j ∉ live)
    : Thread.Ahead req live r ⟨wait, dmaMapped, .goOn wait' k n⟩ := by
  unfold Pc.goOn
  by_cases hn : n = 0
  . cases wait' <;> simp [hn, Thread.Ahead]
  . rw [if_pos hn]
    exact ⟨hn, hleft hn, hlive⟩

theorem Ahead.thread (hahead : Ahead s.thr s.drv) (hth : s.thr r = some th) {op : ThreadOp}
    (h : s.stepThread p r th op = some s') (hop : op ≠ .init)
    : Ahead s'.thr s'.drv := by
  have hframe := stepThread_ringFrame h hop
  have hself := hahead.threads r th hth
  have hcases := Sys.stepThread_cases h
  have hset : ∀ th' : Thread, th'.Ahead (s.drv.req r) s'.drv.hist.live r
      → Ahead (Function.update s.thr r (some th')) s'.drv := by
    intro th' hth'
    refine hahead.setThread ?_ ?_ ?_
    . exact fun r' _ => congrFun hframe.req r'
    . exact fun r' j _ hj => hframe.live.subset hj
    . rw [hframe.req]
      exact hth'
  rcases th with ⟨wait, dmaMapped, pc⟩
  cases op with
  | lock =>
    rcases hcases with ⟨rfl, rfl, _, rfl⟩
    apply hset
    refine Thread.ahead_goOn ?_ (fun j _ => hself.2 j)
    intro _
    rw [XdmaRequestCb.rest, hself.1, List.drop_zero]
    rfl
  | init => exact absurd rfl hop
  | check =>
    rcases hcases with ⟨k, n, rfl, rfl⟩
    apply hset
    split
    . exact hself
    . trivial
  | queue hw =>
    rcases hcases with ⟨k, n, rfl, ⟨_, rfl⟩ | ⟨d', hok, rfl⟩⟩
    . exact hset _ trivial
    . apply hset
      have hbuilt := hself.anti (fun j (hj : .tfer r j ∈ d'.hist.live) => hframe.live.subset hj)
      cases wait with
      | true => exact hbuilt
      | false => exact Thread.ahead_goOn hbuilt.1 hbuilt.2
  | wake hw =>
    rcases hcases with ⟨n, rfl, rfl⟩
    apply hset
    refine ⟨?_, fun j hj hmem => hself.2 j hj (hframe.live.subset hmem)⟩
    intro hne
    rcases submitSwitch_nents s.drv.engine (s.drv.xfer (Thread.tfer ⟨wait, dmaMapped, .waiting n⟩ r 0))
      ⟨none, 0, n⟩ with hzero | hsame
    . exact absurd hzero hne
    . rw [hsame] at hne ⊢
      exact hself.1 hne
  | destroy =>
    rcases hcases with ⟨n, failed, rfl, rfl⟩
    apply hset
    split
    . trivial
    . have hlive : ∀ j, .tfer r j ∉ (submitDestroy s.drv (.tfer r 0)).hist.live := by
        intro j hj
        rw [submitDestroy_eq] at hj
        rcases List.mem_filter.mp hj with ⟨hmem, hne⟩
        cases j with
        | zero => simp at hne
        | succ j => exact hself.2 (j + 1) (Nat.succ_pos j) hmem
      refine Thread.ahead_goOn hself.1 (fun j _ hj => hlive j ?_)
      cases wait <;> exact hj
  | exit =>
    rcases hcases with ⟨_, rfl⟩
    exact hset _ trivial

theorem Ahead.init (hahead : Ahead s.thr s.drv) (hth : s.thr r = some th) {k n : Nat}
    (hpc : th.pc = .loop k n)
    : let m := submitInit s.drv r (th.tfer r k) (th.cb r) th.dmaMapped n
      Ahead (Function.update s.thr r (some { th with pc := .built k m.2 })) m.1
        ∧ th.tfer r k ∉ s.drv.hist.live
        ∧ (s.drv.req r).swDescIdx < (s.drv.req r).swDescCnt := by
  have hself := hahead.threads r th hth
  rcases th with ⟨wait, dmaMapped, pc⟩
  dsimp only at hpc
  subst hpc
  rcases hself with ⟨hne, hrest, hlive⟩
  have hpos : (s.drv.req r).swDescIdx < (s.drv.req r).swDescCnt := by
    simp only [XdmaRequestCb.rest, List.length_drop] at hrest
    unfold XdmaRequestCb.swDescCnt
    omega
  refine ⟨?_, hlive _ (Nat.le_refl _), hpos⟩
  refine hahead.setThread ?_ ?_ ⟨?_, ?_⟩
  . intro r' hr
    exact Function.update_of_ne hr _ _
  . intro r' j hr hj
    rcases List.mem_cons.mp hj with heq | hmem
    . exact absurd (XferPtr.tfer.inj heq).1 hr
    . exact (List.mem_filter.mp hmem).1
  . intro _
    rw [submitInit_req, XdmaRequestCb.length_rest_transferInit, ← hrest]
    exact submitInit_nents ..
  . intro j hlt hj
    rcases List.mem_cons.mp hj with heq | hmem
    . exact absurd (XferPtr.tfer.inj heq).2 (Nat.ne_of_gt hlt)
    . exact hlive j (Nat.le_of_lt hlt) (List.mem_filter.mp hmem).1

end Ahead

end Step

section Perf

variable {p : ModuleParam}

/-- Building a transfer writes over no descriptor and no result of a transfer that is live already. -/
def InitKeepsLive (s : PerfSys) (e : PerfEvent) (s' : PerfSys) : Prop :=
  ∀ r, e = .sys (.thread r .init) → ∀ t ∈ s.sys.drv.hist.live, ∀ i ∈ s.sys.drv.slots t,
    s'.sys.drv.engine.desc i = s.sys.drv.engine.desc i
      ∧ s'.sys.drv.engine.cyclicResult i = s.sys.drv.engine.cyclicResult i

theorem RingInv.not_mem_slots {d : Driver} (hinv : RingInv d) {r : Nat} (hroom : RingRoom d r)
    {t : XferPtr} (ht : t ∈ d.hist.live) {i : Nat} (hi : i ∈ d.slots t)
    : i < d.engine.descIdx ∨ d.engine.descIdx + transferDescMax d.engine (d.req r) ≤ i := by
  have hdisj : Disjoint (d.slots t)
      (slots d.engine.descIdx (transferDescMax d.engine (d.req r))) := by
    have hfree := hroom t ht
    cases t with
    | tfer r' j => exact Ring.disjoint_slots_of_behind (hinv.behind r' j ht) hfree
    | perf run => exact Ring.disjoint_slots_of_le hfree
  have hnot := Finset.disjoint_left.mp hdisj hi
  simp only [slots, Finset.mem_Ico] at hnot
  omega

section Sys

variable {s s' : Sys}

theorem Ahead.submit (hahead : Ahead s.thr s.drv) {r : Nat} (hth : s.thr r = none)
    {d' : Driver} {alloc : Nat → Bool} {write wait dmaMapped : Bool} {epAddr : BitVec 64}
    {sgl : List Scatterlist} {res : Except Errno XdmaRequestCb}
    (h : submitRequest p alloc s.drv r write epAddr sgl dmaMapped = some (d', res))
    : Ahead (Function.update s.thr r (some ⟨wait, dmaMapped,
          match res with
          | .error _ => .returned
          | .ok req => if wait then .ready else .goOn false 0 req.swDescCnt⟩)) d' := by
  rcases submitRequest_eq h with ⟨heq, hres⟩
  have hlive : d'.hist.live = s.drv.hist.live := by rw [heq]
  have hfresh := hahead.fresh r hth
  have hset : ∀ th' : Thread, (∀ r', r' ≠ r → d'.req r' = s.drv.req r')
      → th'.Ahead (d'.req r) s.drv.hist.live r
      → Ahead (Function.update s.thr r (some th')) d' := by
    intro th' hreq hth'
    refine hahead.setThread hreq ?_ ?_
    . intro r' j _
      rw [hlive]
      exact id
    . rw [hlive]
      exact hth'
  rcases hres with ⟨⟨err, rfl⟩, hreq⟩ | ⟨req, rfl, hreq, hstart⟩
  . exact hset _ (fun r' _ => congrFun hreq r') trivial
  . have hself : d'.req r = req := by rw [hreq, Function.update_self]
    refine hset _ ?_ ?_
    . intro r' hr
      rw [hreq, Function.update_of_ne hr]
    . rw [hself]
      cases wait with
      | true => exact ⟨hstart, hfresh⟩
      | false =>
        refine Thread.ahead_goOn ?_ (fun j _ => hfresh j)
        intro _
        rw [XdmaRequestCb.rest, hstart, List.drop_zero]
        rfl

theorem Sys.step_ring {e : Event} (hring : RingInv s.drv) (hahead : Ahead s.thr s.drv)
    (hroom : ∀ r, e = .thread r .init → RingRoom s.drv r) (h : s.step p e = some s')
    : RingInv s'.drv ∧ Ahead s'.thr s'.drv := by
  have hframe : ∀ d', RingFrame s.drv d' → RingInv d' ∧ Ahead s.thr d' := by
    intro d' hd
    exact ⟨hring.frame hd, hahead.frame hd.req (fun r j hj => hd.live.subset hj)⟩
  cases e with
  | submit r wait dmaMapped write alloc epAddr sgl =>
    have hrequest : ∀ d' res, submitRequest p (fun _ => alloc) s.drv r write epAddr sgl dmaMapped
        = some (d', res) → RingInv d' := by
      intro d' res hreq
      have hkept : RingInv { s.drv with req := d'.req } :=
        ⟨hring.idx, hring.start, hring.inside, hring.behind, hring.disjoint⟩
      exact hkept.frame (submitRequest_ringFrame hreq)
    simp only [Sys.step] at h
    split at h
    . contradiction
    . next hth =>
      split at h
      . contradiction
      . next drv err hreq =>
        rw [← Option.some.inj h]
        exact ⟨hrequest _ _ hreq, hahead.submit hth hreq⟩
      . next drv req hreq =>
        rw [← Option.some.inj h]
        exact ⟨hrequest _ _ hreq, hahead.submit hth hreq⟩
  | thread r op =>
    simp only [Sys.step, Option.bind_eq_some_iff] at h
    rcases h with ⟨th, hth, h⟩
    by_cases hop : op = .init
    . subst hop
      rcases Sys.stepThread_cases h with ⟨k, n, hpc, rfl⟩
      exact ⟨hring.submitInit (hroom r rfl) _ _ _, (hahead.init hth hpc).1⟩
    . exact ⟨hring.frame (stepThread_ringFrame h hop), hahead.thread hth h hop⟩
  | service descWriteback hw =>
    rw [← Option.some.inj h]
    exact hframe _ (engineService_ringFrame s.drv descWriteback hw)
  | setOffline =>
    rw [← Option.some.inj h]
    exact hframe _ ⟨rfl, rfl, List.Sublist.refl _, fun _ => ⟨rfl, rfl⟩⟩
  | offlineEngine =>
    rw [← Option.some.inj h]
    exact hframe _ ⟨rfl, rfl, List.Sublist.refl _, fun _ => ⟨rfl, rfl⟩⟩
  | onlineEngine =>
    rw [← Option.some.inj h]
    exact hframe _ ⟨rfl, rfl, List.Sublist.refl _, fun _ => ⟨rfl, rfl⟩⟩
  | clearOffline =>
    rw [← Option.some.inj h]
    exact hframe _ ⟨rfl, rfl, List.Sublist.refl _, fun _ => ⟨rfl, rfl⟩⟩

theorem Sys.init_keepsLive (hring : RingInv s.drv) (hahead : Ahead s.thr s.drv) {r : Nat}
    (hroom : RingRoom s.drv r) (h : s.step p (.thread r .init) = some s') {t : XferPtr}
    (ht : t ∈ s.drv.hist.live) {i : Nat} (hi : i ∈ s.drv.slots t)
    : s'.drv.engine.desc i = s.drv.engine.desc i
        ∧ s'.drv.engine.cyclicResult i = s.drv.engine.cyclicResult i := by
  simp only [Sys.step, Option.bind_eq_some_iff] at h
  rcases h with ⟨th, hth, h⟩
  rcases Sys.stepThread_cases h with ⟨k, n, hpc, rfl⟩
  have hpos := (hahead.init hth hpc).2.2
  have hnot := hring.not_mem_slots hroom ht hi
  exact ⟨transferInit_desc_of_not_mem _ _ hring.idx hpos hnot,
    transferInit_result_of_not_mem _ _ hnot⟩

end Sys

theorem PerfSys.step_ring (s : PerfSys) (e : PerfEvent) (s' : PerfSys)
    (hinv : RingInv s.sys.drv ∧ Ahead s.sys.thr s.sys.drv) (hroom : HasRoom s e)
    (h : s.step p e = some s')
    : (RingInv s'.sys.drv ∧ Ahead s'.sys.thr s'.sys.drv) ∧ InitKeepsLive s e s' := by
  rcases hinv with ⟨hring, hahead⟩
  have hframe : ∀ d', RingFrame s.sys.drv d' → RingInv d' ∧ Ahead s.sys.thr d' := by
    intro d' hd
    exact ⟨hring.frame hd, hahead.frame hd.req (fun r j hj => hd.live.subset hj)⟩
  cases e with
  | sys e =>
    simp only [PerfSys.step, Option.map_eq_some_iff] at h
    rcases h with ⟨sys, hstep, rfl⟩
    have hsys : ∀ r, e = .thread r .init → RingRoom s.sys.drv r := by
      rintro r rfl
      exact (hroom rfl).2
    refine ⟨Sys.step_ring hring hahead hsys hstep, ?_⟩
    intro r he t ht i hi
    rw [PerfEvent.sys.injEq] at he
    subst he
    exact Sys.init_keepsLive hring hahead (hsys r rfl) hstep ht hi
  | start run perf perfBufBus =>
    refine ⟨?_, by simp [InitKeepsLive]⟩
    simp only [PerfSys.step] at h
    split at h
    . rw [← Option.some.inj h]
      exact ⟨hring, hahead⟩
    . next hnone =>
      split at h
      . contradiction
      . next hnew =>
        rw [not_or] at hnew
        split at h
        . next num bus hnum =>
          rw [← Option.some.inj h]
          have hroom : PerfRoom s.sys.drv perf.transferSize := hroom (by simpa using hnone) rfl
          refine ⟨hring.performanceInit hnew.1 hnum hroom bus _, hahead.frame rfl ?_⟩
          intro r j hj
          exact (List.mem_cons.mp hj).resolve_left (by simp)
        . rw [← Option.some.inj h]
          exact hframe _ ⟨rfl, rfl, List.Sublist.refl _, fun _ => ⟨rfl, rfl⟩⟩
  | queue hw =>
    refine ⟨?_, by simp [InitKeepsLive]⟩
    simp only [PerfSys.step] at h
    split at h
    . contradiction
    . split at h
      . contradiction
      . next hqueue =>
        rw [← Option.some.inj h]
        exact hframe _ (transferQueue_ringFrame hqueue)
  | stop =>
    refine ⟨?_, by simp [InitKeepsLive]⟩
    simp only [PerfSys.step, Option.map_eq_some_iff] at h
    rcases h with ⟨d', hstop, rfl⟩
    exact hframe d' (performanceStop_ringFrame hstop)

theorem RingInv.ringSound {d : Driver} (hinv : RingInv d)
    : RingSound d where
  disjoint := hinv.disjoint
  inside := hinv.inside
  total := by
    have hsum := Ring.sum_card_le d.slots d.hist.live (Finset.range 2048)
      (fun t ht => Ring.slots_subset_range (hinv.inside t ht)) hinv.disjoint
    simp only [Driver.slots, Ring.card_slots, Finset.card_range] at hsum
    exact hsum

/--
Where every transfer and every measurement that is built has room, the live transfers have each their
own part of the ring in every state that is reached, and no submission writes over it.
-/
theorem ringSound_of_hasRoom (p : ModuleParam) (s : PerfSys) (hinit : s.sys.Initial)
    (es : List PerfEvent)
    (hroom : Transition.StepsHold (PerfSys.step p) (fun s e _ => HasRoom s e) s es)
    : Transition.StatesHold (PerfSys.step p) (fun s => RingSound s.sys.drv) s es
        ∧ Transition.StepsHold (PerfSys.step p) InitKeepsLive s es := by
  have hring : RingInv s.sys.drv := by
    refine ⟨hinit.descIdx, ?_, ?_, ?_, ?_⟩ <;> simp [hinit.live]
  have hahead : Ahead s.sys.thr s.sys.drv := by
    refine ⟨by simp [hinit.live], ?_⟩
    intro r th hth
    rw [hinit.thr r] at hth
    contradiction
  constructor
  . exact Transition.statesHold_of_invariant (fun s h => h.1.ringSound)
      (fun s e s' hinv hroom h => (PerfSys.step_ring s e s' hinv hroom h).1) ⟨hring, hahead⟩ hroom
  . exact Transition.stepsHold_of_invariant PerfSys.step_ring ⟨hring, hahead⟩ hroom

/-- A measurement behind a nowait submission, which a blocking one went before. -/
theorem ringSound_of_hasRoom_behind
    : let es := (submitFirst 0 true false ++ [Event.service 0 (healthyRegs 1)] ++ submitLast 0
          ++ submitFirst 1 false false).map PerfEvent.sys
        ++ [.start 0 ⟨0x400000, false, 0⟩ (some 0x10000), .queue (healthyRegs 0),
          .sys (.service 0 (healthyRegs 1)), .stop]
      Transition.StatesHold (PerfSys.step ⟨false, true, 4096⟩) (fun s => RingSound s.sys.drv)
          ⟨Sys.init .fromDevice true, none⟩ es
        ∧ Transition.StepsHold (PerfSys.step ⟨false, true, 4096⟩) InitKeepsLive
          ⟨Sys.init .fromDevice true, none⟩ es :=
  ringSound_of_hasRoom _ _ (Sys.init_initial .fromDevice true) _ (by decide)

/--
A measurement of 4 MB takes the first descriptor of the ring, which the transfer that a nowait
submission queued has already.
-/
theorem not_ringSound_start
    : (Sys.init .fromDevice true).Initial
        ∧ ¬ Transition.StatesHold (PerfSys.step ⟨false, true, 4096⟩) (fun s => RingSound s.sys.drv)
          ⟨Sys.init .fromDevice true, none⟩
          ((submitFirst 0 false false).map PerfEvent.sys
            ++ [.start 0 ⟨0x400000, false, 0⟩ (some 0x10000)]) := by
  refine ⟨Sys.init_initial .fromDevice true, ?_⟩
  intro h
  have hrun : (Transition.run (PerfSys.step ⟨false, true, 4096⟩) ⟨Sys.init .fromDevice true, none⟩
      ((submitFirst 0 false false).map PerfEvent.sys
        ++ [.start 0 ⟨0x400000, false, 0⟩ (some 0x10000)])).map
          (fun s => (s.sys.drv.hist.live, s.sys.drv.hist.live.map s.sys.drv.slots))
        = some ([.perf 0, .tfer 0 0], [{0}, {0}]) := by decide
  simp only [Option.map_eq_some_iff, Prod.mk.injEq] at hrun
  rcases hrun with ⟨s', hs', hlive, hslots⟩
  have hdisj := (h.of_run hs').disjoint
  rw [← List.pairwise_map (f := s'.sys.drv.slots), hslots] at hdisj
  simp at hdisj

end Perf

end Xdma
