import ReferenceProjects.Lib.Run
import ReferenceProjects.Xdma.Impl.Aio
import ReferenceProjects.Xdma.Lemmas.System
import Mathlib.Data.List.Perm.Subperm
import Mathlib.Data.List.NodupEquivFin
import Mathlib.Algebra.BigOperators.Group.List.Basic

/-!
This module contains when a vectored, asynchronous operation is completed once, with the bytes that its
segments moved, and gives back the memory that it allocated.
-/

namespace Xdma

/-- The submission ends with the callback of its last transfer. -/
def NowaitOutcome.callsBack : NowaitOutcome → Bool
  | .refused _ => false
  | .queued xfers => !xfers.isEmpty

/-- The bytes that the transfers of a submission moved. -/
def NowaitOutcome.moved : NowaitOutcome → Nat
  | .refused _ => 0
  | .queued xfers => ((xfers.filter XferOutcome.completed).map XferOutcome.bytes).sum

/-- The bytes that its callback counts. -/
def NowaitOutcome.counted : NowaitOutcome → Nat
  | .refused _ => 0
  | .queued xfers => xferCompletionDone xfers

/-- Behind a transfer that failed no other one moved bytes. -/
def NowaitOutcome.endsFailed : NowaitOutcome → Bool
  | .refused _ => true
  | .queued xfers =>
    (xfers.dropWhile XferOutcome.completed).all (fun x => !x.completed || x.bytes == 0)

/-- The bytes that the segments of an operation moved. -/
def AioCall.moved (c : AioCall) : Nat :=
  ((List.range c.iov.length).map (fun i => (c.nowait i).moved)).sum

/--
The operation was completed once, with the bytes that it moved, when all of its segments were finished,
and gave back the two blocks that it allocated.
-/
structure AioSound (c : AioCall) (s : AioState) : Prop where
  completions : ∃ handled, s.completions = [⟨c.moved, handled⟩]
    ∧ ∀ i < c.iov.length, (c.nowait i).callsBack = true → i ∈ handled
  frees : s.frees.Perm [.caio, .cb 0]

/-- The segments whose completion is handled by the events, in order. -/
def finishes (es : List AioEvent) : List Nat :=
  es.filterMap (fun e => match e with
    | .submit => none
    | .finish i => some i)

/--
Every segment has a transfer and is queued, none has bytes moved behind a failed transfer, and segment
0 is finished last.
-/
structure AioFine (c : AioCall) (es : List AioEvent) : Prop where
  pos : 0 < c.iov.length
  queued : ∀ i < c.iov.length, (c.nowait i).callsBack = true
  counted : ∀ i < c.iov.length, (c.nowait i).endsFailed = true
  last : (finishes es).getLast? = some 0

section Outcome

theorem filter_completed_sum (xfers : List XferOutcome)
    : ((xfers.filter XferOutcome.completed).map XferOutcome.bytes).sum
        = xferCompletionDone xfers
          + (((xfers.dropWhile XferOutcome.completed).filter XferOutcome.completed).map
            XferOutcome.bytes).sum := by
  unfold xferCompletionDone
  induction xfers with
  | nil => rfl
  | cons x xs ih =>
    cases hx : x.completed with
    | true =>
      rw [List.filter_cons_of_pos hx, List.takeWhile_cons_of_pos hx, List.dropWhile_cons_of_pos hx,
        List.map_cons, List.sum_cons, List.map_cons, List.sum_cons, ih]
      omega
    | false =>
      have hneg : ¬ x.completed = true := by simp [hx]
      rw [List.takeWhile_cons_of_neg hneg, List.dropWhile_cons_of_neg hneg]
      simp

theorem completed_sum_eq_zero_iff (xfers : List XferOutcome)
    : ((xfers.filter XferOutcome.completed).map XferOutcome.bytes).sum = 0
        ↔ xfers.all (fun x => !x.completed || x.bytes == 0) = true := by
  induction xfers with
  | nil => simp
  | cons x xs ih =>
    rw [List.all_cons, Bool.and_eq_true, ← ih]
    cases hx : x.completed with
    | true =>
      rw [List.filter_cons_of_pos hx, List.map_cons, List.sum_cons]
      simp
    | false => simp [hx]

theorem NowaitOutcome.counted_le (o : NowaitOutcome)
    : o.counted ≤ o.moved := by
  cases o with
  | refused err => apply Nat.le_refl
  | queued xfers =>
    simp only [NowaitOutcome.counted, NowaitOutcome.moved]
    rw [filter_completed_sum]
    omega

theorem NowaitOutcome.counted_eq_iff (o : NowaitOutcome)
    : o.counted = o.moved ↔ o.endsFailed = true := by
  cases o with
  | refused err => simp [NowaitOutcome.counted, NowaitOutcome.moved, NowaitOutcome.endsFailed]
  | queued xfers =>
    simp only [NowaitOutcome.counted, NowaitOutcome.moved, NowaitOutcome.endsFailed]
    rw [filter_completed_sum]
    generalize xfers.dropWhile XferOutcome.completed = rest
    rw [← completed_sum_eq_zero_iff]
    omega

end Outcome

section Completion

/-- How a transfer of the driver ended, as `xdma_xfer_completion()` sees it. -/
def Driver.xferOutcome (d : Driver) (t : XferPtr) : XferOutcome where
  completed := (d.xfer t).state = .completed
  bytes :=
    if d.engine.streamC2h then
      resultTotal d.engine (d.xfer t) (d.xfer t).descNum
    else
      (d.xfer t).len

theorem completionSwitch_outcome {p : ModuleParam} {d s : Driver} {t : XferPtr} (hw : HwRegs)
    (hxfer : s.xfer = d.xfer) (hstream : s.engine.streamC2h = d.engine.streamC2h)
    (hresult : s.engine.cyclicResult = d.engine.cyclicResult) (hsettled : (d.xfer t).Settled)
    : completionSwitch p s t hw
        = (s, if (d.xferOutcome t).completed then (d.xferOutcome t).bytes else 0,
            (d.xferOutcome t).completed) := by
  unfold completionSwitch Driver.xferOutcome resultTotal
  rw [hxfer, hstream, hresult]
  cases hsettled with
  | inl h =>
    simp only [h, decide_true, ↓reduceIte]
    split <;> rfl
  | inr h => simp [h]

theorem completionLoop_done (p : ModuleParam) {d s : Driver} {r : Nat} (hw : HwRegs)
    (hxfer : s.xfer = d.xfer) (hstream : s.engine.streamC2h = d.engine.streamC2h)
    (hresult : s.engine.cyclicResult = d.engine.cyclicResult) (n k fuel done : Nat)
    (hsettled : ∀ j ∈ List.range' k n, (d.xfer (.tfer r j)).Settled)
    (hnum : ∀ j ∈ List.range' k n, 0 < (d.xfer (.tfer r j)).descNum)
    (hfuel : ((List.range' k n).map (fun j => (d.xfer (.tfer r j)).descNum)).sum ≤ fuel)
    : (completionLoop p r hw fuel k
          ((List.range' k n).map (fun j => (d.xfer (.tfer r j)).descNum)).sum s done).2
        = done + xferCompletionDone ((List.range' k n).map (fun j => d.xferOutcome (.tfer r j))) := by
  induction n generalizing k fuel s done with
  | zero =>
    cases fuel <;> simp [completionLoop, xferCompletionDone]
  | succ n ih =>
    rw [List.range'_succ] at hsettled hnum hfuel ⊢
    rw [List.forall_mem_cons] at hsettled hnum
    simp only [List.map_cons, List.sum_cons] at hfuel ⊢
    have hself : s.xfer (.tfer r k) = d.xfer (.tfer r k) := by rw [hxfer]
    cases fuel with
    | zero => omega
    | succ fuel =>
      unfold completionLoop
      rw [if_neg (by omega)]
      dsimp only
      rw [completionSwitch_outcome hw hxfer hstream hresult hsettled.1, transferDestroy_eq, hself,
        Nat.add_sub_cancel_left]
      dsimp only
      cases hsettled.1 with
      | inl hcompleted =>
        have houtcome : (d.xferOutcome (.tfer r k)).completed = true := by
          simp [Driver.xferOutcome, hcompleted]
        rw [if_pos houtcome]
        refine Eq.trans (ih ?_ ?_ ?_ (k + 1) fuel _ hsettled.2 hnum.2 (by omega)) ?_
        . apply hxfer
        . apply hstream
        . apply hresult
        . unfold xferCompletionDone
          rw [List.takeWhile_cons_of_pos houtcome, List.map_cons, List.sum_cons, if_pos houtcome]
          omega
      | inr hfailed =>
        have houtcome : ¬ (d.xferOutcome (.tfer r k)).completed = true := by
          simp [Driver.xferOutcome, hfailed]
        rw [if_neg houtcome]
        unfold xferCompletionDone
        rw [List.takeWhile_cons_of_neg houtcome]
        rfl

theorem xdmaXferCompletion_done (p : ModuleParam) (d : Driver) (r : Nat) (hw : HwRegs) (n : Nat)
    (hsettled : ∀ j < n, (d.xfer (.tfer r j)).Settled)
    (hnum : ∀ j < n, 0 < (d.xfer (.tfer r j)).descNum)
    (hcnt : (d.req r).swDescCnt = ((List.range n).map (fun j => (d.xfer (.tfer r j)).descNum)).sum)
    : (xdmaXferCompletion p d r hw).2
        = xferCompletionDone ((List.range n).map (fun j => d.xferOutcome (.tfer r j))) := by
  have hmem : ∀ j, j ∈ List.range' 0 n → j < n := by
    intro j hj
    rw [← List.range_eq_range', List.mem_range] at hj
    apply hj
  have hloop := completionLoop_done p hw (s := d) (d := d) (r := r) rfl rfl rfl n 0
    (d.req r).swDescCnt 0 (fun j hj => hsettled j (hmem j hj)) (fun j hj => hnum j (hmem j hj))
    (by rw [hcnt, List.range_eq_range'])
  rw [← List.range_eq_range', ← hcnt, Nat.zero_add] at hloop
  unfold xdmaXferCompletion
  apply hloop

end Completion

section Run

variable {pin : PinPages} {c : AioCall} {s s' : AioState}

/-- What is completed and given back once the segments of a list, the latest first, are handled. -/
def aioEnd (c : AioCall) (res : Nat) (handled : List Nat) : List KiComplete × List AioBlock :=
  match handled with
  | [] => ([], [])
  | i :: rest =>
    if rest.length + 1 = c.iov.length then
      ([⟨res, i :: rest⟩], [.cb i, .caio])
    else
      ([], [])

/-- What every step keeps; a loop that ended early gives back memory of its own. -/
structure AioInv (c : AioCall) (s : AioState) : Prop where
  next : s.next ≤ c.iov.length
  ret : s.ret = some (.ok ()) → s.next = c.iov.length
  nodup : s.handled.Nodup
  handled : ∀ i ∈ s.handled, i < s.next ∧ (c.nowait i).callsBack = true
  cmplCnt : s.cmplCnt = s.handled.length
  res : s.res = (s.handled.map (fun i => (c.nowait i).counted)).sum
  ended : (∀ err, s.ret ≠ some (.error err)) → (s.completions, s.frees) = aioEnd c s.res s.handled

theorem subperm_range {l : List Nat} {n : Nat} (hnodup : l.Nodup) (h : ∀ i ∈ l, i < n)
    : l.Subperm (List.range n) := by
  apply hnodup.subperm
  intro i hi
  apply List.mem_range.mpr (h i hi)

theorem length_le_of_nodup {l : List Nat} {n : Nat} (hnodup : l.Nodup) (h : ∀ i ∈ l, i < n)
    : l.length ≤ n := by
  have hle := (subperm_range hnodup h).length_le
  rw [List.length_range] at hle
  apply hle

theorem AioInv.init (c : AioCall)
    : AioInv c AioState.init := by
  constructor
  . apply Nat.zero_le
  . intro h
    contradiction
  . apply List.nodup_nil
  . intro i hi
    contradiction
  . rfl
  . rfl
  . intro _
    rfl

theorem AioInv.submit (h : AioInv c s) (hret : s.ret = none)
    : AioInv c (aioSubmit pin c s) := by
  have hended := h.ended (by simp [hret])
  unfold aioSubmit
  split
  . refine ⟨h.next, by simp, h.nodup, h.handled, h.cmplCnt, h.res, ?_⟩
    intro hok
    exact absurd rfl (hok _)
  . split
    . next hnone =>
      have hnext : c.iov.length ≤ s.next := List.getElem?_eq_none_iff.mp hnone
      refine ⟨h.next, fun _ => Nat.le_antisymm h.next hnext, h.nodup, h.handled, h.cmplCnt, h.res, ?_⟩
      intro _
      apply hended
    . next io hsome =>
      rcases List.getElem?_eq_some_iff.mp hsome with ⟨hlt, _⟩
      split
      . refine ⟨h.next, by simp, h.nodup, h.handled, h.cmplCnt, h.res, ?_⟩
        intro hok
        exact absurd rfl (hok _)
      . split
        . refine ⟨h.next, by simp, h.nodup, h.handled, h.cmplCnt, h.res, ?_⟩
          intro hok
          exact absurd rfl (hok _)
        . refine ⟨hlt, by simp [hret], h.nodup, ?_, h.cmplCnt, h.res, fun _ => hended⟩
          intro i hi
          exact ⟨Nat.lt_succ_of_lt (h.handled i hi).1, (h.handled i hi).2⟩

theorem AioInv.finish (h : AioInv c s) {i : Nat} (hi : i < s.next) (hnew : i ∉ s.handled)
    {x : XferOutcome} {xs : List XferOutcome} (hqueued : c.nowait i = .queued (x :: xs))
    : AioInv c (asyncIoHandler c s i (x :: xs)) := by
  have hnodup : (i :: s.handled).Nodup := List.nodup_cons.mpr ⟨hnew, h.nodup⟩
  have hhandled : ∀ j ∈ i :: s.handled, j < s.next ∧ (c.nowait j).callsBack = true := by
    rw [List.forall_mem_cons]
    refine ⟨⟨hi, ?_⟩, h.handled⟩
    rw [hqueued]
    rfl
  have hres : s.res + xferCompletionDone (x :: xs)
      = ((i :: s.handled).map (fun j => (c.nowait j).counted)).sum := by
    rw [List.map_cons, List.sum_cons, ← h.res, hqueued, Nat.add_comm]
    rfl
  -- this segment is still to be handled, so not all of them were before
  have hbefore : aioEnd c s.res s.handled = ([], []) := by
    have hle := length_le_of_nodup hnodup (fun j hj => (hhandled j hj).1)
    have hnext := h.next
    rw [List.length_cons] at hle
    unfold aioEnd
    split
    . rfl
    . next j rest heq =>
      rw [heq, List.length_cons] at hle
      rw [if_neg (by omega)]
  unfold asyncIoHandler
  dsimp only
  split
  . next hall =>
    refine ⟨h.next, h.ret, hnodup, hhandled, by simp [h.cmplCnt], hres, ?_⟩
    intro hok
    have hended := h.ended hok
    rw [hbefore, Prod.mk.injEq] at hended
    rw [h.cmplCnt] at hall
    dsimp only
    rw [hended.1, hended.2, aioEnd, if_pos hall]
  . next hall =>
    refine ⟨h.next, h.ret, hnodup, hhandled, by simp [h.cmplCnt], hres, ?_⟩
    intro hok
    have hended := h.ended hok
    rw [hbefore] at hended
    rw [h.cmplCnt] at hall
    dsimp only
    rw [hended, aioEnd, if_neg hall]

theorem AioInv.step (hinv : AioInv c s) {e : AioEvent} (h : aioStep pin c s e = some s')
    : AioInv c s' := by
  cases e with
  | submit =>
    simp only [aioStep] at h
    split at h
    . contradiction
    . next hret =>
      rw [← Option.some.inj h]
      apply hinv.submit (by simpa using hret)
  | finish i =>
    simp only [aioStep] at h
    split at h
    . next hi =>
      split at h
      . next x xs hqueued =>
        rw [← Option.some.inj h]
        apply hinv.finish hi.1 hi.2 hqueued
      . contradiction
    . contradiction

theorem aioStep_handled {e : AioEvent} (h : aioStep pin c s e = some s')
    : s'.handled = (finishes [e]).reverse ++ s.handled := by
  cases e with
  | submit =>
    simp only [aioStep] at h
    split at h
    . contradiction
    . rw [← Option.some.inj h]
      unfold aioSubmit
      split
      . rfl
      . split
        . rfl
        . split
          . rfl
          . split <;> rfl
  | finish i =>
    simp only [aioStep] at h
    split at h
    . split at h
      . rw [← Option.some.inj h]
        unfold asyncIoHandler
        dsimp only
        split <;> rfl
      . contradiction
    . contradiction

theorem AioInv.run {es : List AioEvent} (hinv : AioInv c s)
    (h : Transition.run (aioStep pin c) s es = some s')
    : AioInv c s' ∧ s'.handled = (finishes es).reverse ++ s.handled := by
  induction es generalizing s with
  | nil =>
    simp only [Transition.run, Option.some.injEq] at h
    subst h
    exact ⟨hinv, rfl⟩
  | cons e es ih =>
    simp only [Transition.run, Option.bind_eq_some_iff] at h
    rcases h with ⟨m, hm, h⟩
    rcases ih (hinv.step hm) h with ⟨hinv', hhandled⟩
    have hcons : finishes (e :: es) = finishes [e] ++ finishes es := by
      unfold finishes
      rw [← List.filterMap_append, List.singleton_append]
    refine ⟨hinv', ?_⟩
    rw [hhandled, aioStep_handled hm, hcons, List.reverse_append, List.append_assoc]

end Run

section Sound

variable {pin : PinPages} {c : AioCall} {s : AioState}

theorem AioInv.end_cases (h : AioInv c s) (hret : s.ret = some (.ok ()))
    : (∃ i, s.handled.head? = some i ∧ s.handled.length = c.iov.length
          ∧ s.completions = [⟨s.res, s.handled⟩] ∧ s.frees = [.cb i, .caio])
        ∨ s.completions = [] ∧ (s.handled.length = c.iov.length → c.iov.length = 0) := by
  have hended := h.ended (by simp [hret])
  unfold aioEnd at hended
  split at hended
  . next hnil =>
    rw [Prod.mk.injEq] at hended
    apply Or.inr
    refine ⟨hended.1, ?_⟩
    rw [hnil, List.length_nil]
    intro hlen
    rw [hlen]
  . next i rest hlist =>
    split at hended
    . next hall =>
      rw [Prod.mk.injEq] at hended
      apply Or.inl
      refine ⟨i, ?_, ?_, ?_, hended.2⟩
      . rw [hlist, List.head?_cons]
      . rw [hlist, List.length_cons, hall]
      . rw [hlist, hended.1]
    . next hall =>
      rw [Prod.mk.injEq] at hended
      apply Or.inr
      refine ⟨hended.1, ?_⟩
      rw [hlist, List.length_cons]
      intro hlen
      exact absurd hlen hall

theorem AioInv.perm_range (h : AioInv c s) (hall : s.handled.length = c.iov.length)
    : s.handled.Perm (List.range c.iov.length) := by
  have hsub : s.handled.Subperm (List.range c.iov.length) := by
    apply subperm_range h.nodup
    intro i hi
    apply Nat.lt_of_lt_of_le (h.handled i hi).1 h.next
  apply hsub.perm_of_length_le
  rw [List.length_range]
  omega

theorem sum_counted_eq_iff (f : Nat → NowaitOutcome) (l : List Nat)
    : (l.map (fun i => (f i).counted)).sum = (l.map (fun i => (f i).moved)).sum
        ↔ ∀ i ∈ l, (f i).endsFailed = true := by
  have hle : ∀ l : List Nat, (l.map (fun i => (f i).counted)).sum
      ≤ (l.map (fun i => (f i).moved)).sum := by
    intro l
    induction l with
    | nil => apply Nat.le_refl
    | cons i l ih =>
      have := (f i).counted_le
      simp only [List.map_cons, List.sum_cons]
      omega
  induction l with
  | nil => simp
  | cons i l ih =>
    have hi := (f i).counted_le
    have hl := hle l
    have hiff := (f i).counted_eq_iff
    rw [List.forall_mem_cons]
    simp only [List.map_cons, List.sum_cons]
    constructor
    . intro h
      exact ⟨hiff.mp (by omega), ih.mp (by omega)⟩
    . rintro ⟨hself, hrest⟩
      have hself' := hiff.mpr hself
      have hrest' := ih.mpr hrest
      omega

/--
An operation that returned `-EIOCBQUEUED` ends as it should exactly when it has a segment, every
segment has a transfer and is queued, none has bytes moved behind a failed transfer, and segment 0 is
finished last.
-/
theorem aioSound_iff (pin : PinPages) (c : AioCall) (es : List AioEvent) (s : AioState)
    (hrun : Transition.run (aioStep pin c) .init es = some s) (hret : s.ret = some (.ok ()))
    (hdone : ∀ i < c.iov.length, (c.nowait i).callsBack = true → i ∈ s.handled)
    : AioSound c s ↔ AioFine c es := by
  rcases (AioInv.init c).run hrun with ⟨hinv, hhandled⟩
  have hlast : s.handled.head? = (finishes es).getLast? := by
    rw [hhandled]
    simp [AioState.init]
  have hsum := sum_counted_eq_iff c.nowait (List.range c.iov.length)
  simp only [List.mem_range] at hsum
  rcases hinv.end_cases hret with ⟨i, hhead, hall, hcompl, hfrees⟩ | ⟨hcompl, hnone⟩
  . have hperm := hinv.perm_range hall
    have hmem : ∀ j < c.iov.length, j ∈ s.handled :=
      fun j hj => hperm.mem_iff.mpr (List.mem_range.mpr hj)
    have hres : s.res = ((List.range c.iov.length).map (fun j => (c.nowait j).counted)).sum := by
      rw [hinv.res]
      apply (hperm.map _).sum_eq
    constructor
    . intro h
      rcases h.completions with ⟨handled, hone, _⟩
      have hmoved : s.res = c.moved := by
        rw [hcompl] at hone
        simpa using congrArg (List.map KiComplete.res) hone
      have hbase : AioBlock.cb i ∈ [AioBlock.caio, .cb 0] := by
        rw [← h.frees.mem_iff, hfrees]
        apply List.mem_cons_self
      constructor
      . rw [← hall]
        apply List.length_pos_of_mem (List.mem_of_mem_head? hhead)
      . intro j hj
        apply (hinv.handled j (hmem j hj)).2
      . rw [← hsum, ← hres, hmoved]
        rfl
      . rw [← hlast, hhead]
        simpa using hbase
    . intro h
      constructor
      . refine ⟨s.handled, ?_, fun j hj _ => hmem j hj⟩
        have hmoved : s.res = c.moved := by
          rw [hres, hsum.mpr h.counted]
          rfl
        rw [hcompl, hmoved]
      . have hzero := h.last
        rw [← hlast, hhead, Option.some.injEq] at hzero
        rw [hfrees, hzero]
        apply List.Perm.swap
  . constructor
    . intro h
      rcases h.completions with ⟨handled, hone, _⟩
      rw [hcompl] at hone
      contradiction
    . intro h
      have hsub : (List.range c.iov.length).Subperm s.handled := by
        apply List.nodup_range.subperm
        intro j hj
        have hlt := List.mem_range.mp hj
        apply hdone j hlt (h.queued j hlt)
      have hle := hsub.length_le
      have hle' := length_le_of_nodup hinv.nodup (fun j hj => (hinv.handled j hj).1)
      have hnext := hinv.next
      have hpos := h.pos
      rw [List.length_range] at hle
      have hzero := hnone (by omega)
      omega

/-- The submission of two pages, which are queued, one transfer each. -/
def twoPages : AioCall where
  engine := ⟨.toDevice, false, 1, 1⟩
  iov := [⟨0x1000, 4096⟩, ⟨0x3000, 4096⟩]
  pos := 0
  write := true
  nowait := fun _ => .queued [⟨true, 4096⟩]

/-- Segment 1 is finished before the loop is through, segment 0 after it. -/
theorem aioSound_iff_two_pages
    : ∃ s, Transition.run (aioStep (fun _ _ => .ok ()) twoPages) .init
          [.submit, .submit, .finish 1, .submit, .finish 0] = some s
        ∧ AioSound twoPages s := by
  refine ⟨_, rfl, ?_⟩
  apply (aioSound_iff (fun _ _ => .ok ()) twoPages [.submit, .submit, .finish 1, .submit, .finish 0]
    _ rfl rfl (by decide)).mpr
  constructor
  . decide
  . decide
  . decide
  . decide

/-- Segment 1 is finished last: what is freed with the operation lies inside the other block. -/
theorem not_aioSound_two_pages
    : ∃ s, Transition.run (aioStep (fun _ _ => .ok ()) twoPages) .init
          [.submit, .submit, .submit, .finish 0, .finish 1] = some s
        ∧ s.ret = some (.ok ())
        ∧ (∀ i < 2, i ∈ s.handled)
        ∧ s.frees = [.cb 1, .caio]
        ∧ ¬ AioSound twoPages s := by
  refine ⟨_, rfl, rfl, by decide, rfl, ?_⟩
  intro h
  have hmem : AioBlock.cb 0 ∈ [AioBlock.cb 1, .caio] := h.frees.mem_iff.mpr (by decide)
  contradiction

end Sound

end Xdma
