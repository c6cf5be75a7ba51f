import ReferenceProjects.Lib.Run
import ReferenceProjects.Xdma.Impl.Vectored

/-!
This module contains what a vectored, asynchronous operation leaves behind when it returns an error: the
memory it allocated, and the transfers it queued before.
-/

namespace Xdma

/--
The operation left nothing: no transfer it queued has its memory for a callback argument, what it
acquired was released once, and what a queued transfer refers to was not released.
-/
structure Vectored.Reclaimed (s : Vectored) : Prop where
  detached : s.queued = []
  released : Ledger.Sound s.calls ∧ Ledger.held s.calls = []
  live : ∀ x ∈ s.queued,
    AioRes.block .caio ∈ Ledger.held s.calls ∧ AioRes.block (.cb 0) ∈ Ledger.held s.calls
      ∧ AioRes.req x.seg ∈ Ledger.held s.calls

/-- The segment is aligned, and its buffer can be mapped. -/
def VectoredCall.Passes (c : VectoredCall) (engine : CharEngine) (i : Nat) (io : Iovec) : Prop :=
  let cb := XdmaIoCb.ofBuf (BitVec.ofNat 64 io.iovBase) (BitVec.ofNat 64 io.iovLen)
  checkTransferAlign engine io.iovBase io.iovLen c.pos true = .ok ()
    ∧ 0 ≤ (cb.charSgdmaMapUserBufToSgl (c.kernel i)).rv

/--
The call is refused before it allocates anything, for its file or the direction of the engine, or it has no
segment that is misaligned or cannot be mapped.
-/
def VectoredCall.FailsEarly (c : VectoredCall) : Prop :=
  ∀ engine, c.xcdev = some engine →
    engine.dirOk c.write = false ∨ ∀ i io, c.iov[i]? = some io → c.Passes engine i io

section Calls

variable {b : AioBlock} {i : Nat}

theorem release_block_not_mem_map (calls : List MapCall)
    : Ledger.Call.release (.block b) ∉ calls.map (Ledger.Call.map (AioRes.map i)) := by
  rw [List.mem_map]
  rintro ⟨call, _, hcall⟩
  cases call <;> cases hcall

theorem release_block_not_mem_nowait (r : NowaitResult)
    : Ledger.Call.release (.block b) ∉ r.calls i := by
  unfold NowaitResult.calls
  split
  . simp
  . split <;> simp

/-- At most one transfer of a submission is the last of its request. -/
theorem countP_queued_le (r : NowaitResult)
    : (r.queued i).countP SegXfer.lastInRequest ≤ 1 := by
  have hfirst : ∀ l : List Nat,
      (l.map (fun _ => (⟨i, false⟩ : SegXfer))).countP SegXfer.lastInRequest = 0 := by
    intro l
    rw [List.countP_eq_zero]
    intro x hx
    rw [List.mem_map] at hx
    obtain ⟨_, _, rfl⟩ := hx
    exact Bool.false_ne_true
  unfold NowaitResult.queued
  dsimp only
  split
  . rw [List.countP_append, hfirst, Nat.zero_add]
    apply Nat.le_trans List.countP_le_length
    rw [List.length_map]
    cases r.tferIdx.getLast? <;> simp
  . rw [hfirst]
    apply Nat.zero_le

end Calls

section Run

variable {c : VectoredCall} {engine : CharEngine} {s s' : Vectored}

/--
What every step of an operation with its blocks keeps. Not all of its segments can have been handled
before the loop is through, so the array of its segments is there until then.
-/
structure VectoredInv (c : VectoredCall) (engine : CharEngine) (s : Vectored) : Prop where
  ok : s.ret = some (.ok ()) → c.iov[s.next]? = none
  error : ∀ err, s.ret = some (.error err) → ∃ io, c.iov[s.next]? = some io ∧ ¬ c.Passes engine s.next io
  passed : ∀ i io, i < s.next → c.iov[i]? = some io → c.Passes engine i io
  handled : s.cmplCnt + s.queued.countP SegXfer.lastInRequest ≤ s.next
  array : s.next < c.iov.length → AioRes.block (.cb 0) ∈ Ledger.held s.calls

theorem VectoredInv.allocated (c : VectoredCall) (engine : CharEngine)
    : VectoredInv c engine .allocated := by
  constructor
  . intro h
    contradiction
  . intro err h
    contradiction
  . intro i io hi
    contradiction
  . apply Nat.le_refl
  . intro _
    decide

theorem VectoredInv.round (h : VectoredInv c engine s) (hret : s.ret = none)
    : VectoredInv c engine (vectoredRound c engine s) := by
  unfold vectoredRound
  split
  . next hnone => exact ⟨fun _ => hnone, by simp, h.passed, h.handled, h.array⟩
  . next io hio =>
    obtain ⟨hlt, _⟩ := List.getElem?_eq_some_iff.mp hio
    have harray := h.array hlt
    dsimp only
    split
    . next err halign =>
      refine ⟨by simp, fun _ _ => ⟨io, hio, ?_⟩, h.passed, h.handled, fun _ => ?_⟩
      . rintro ⟨hpasses, _⟩
        rw [halign] at hpasses
        contradiction
      . exact Ledger.mem_held_release_of_ne harray (by decide)
    . next halign =>
      generalize hr : (XdmaIoCb.ofBuf (BitVec.ofNat 64 io.iovBase)
        (BitVec.ofNat 64 io.iovLen)).charSgdmaMapUserBufToSgl (c.kernel s.next) = r
      have hmapped := Ledger.mem_held_append harray (release_block_not_mem_map (i := s.next) r.calls)
      split
      . next hrv =>
        refine ⟨by simp, fun _ _ => ⟨io, hio, ?_⟩, h.passed, h.handled, fun _ => hmapped⟩
        rintro ⟨_, hpasses⟩
        rw [hr] at hpasses
        omega
      . next hrv =>
        refine ⟨by simp [hret], by simp [hret], ?_, ?_, fun _ => ?_⟩
        . intro j jo hj hjo
          cases Nat.eq_or_lt_of_le (Nat.le_of_lt_succ hj) with
          | inl heq =>
            subst heq
            rw [hio, Option.some.injEq] at hjo
            subst hjo
            refine ⟨halign, ?_⟩
            rw [hr]
            omega
          | inr hlt => exact h.passed j jo hlt hjo
        . have hone := countP_queued_le (i := s.next) (c.nowait s.next)
          have hhandled := h.handled
          dsimp only
          rw [List.countP_append]
          omega
        . exact Ledger.mem_held_append hmapped (release_block_not_mem_nowait (c.nowait s.next))

theorem VectoredInv.complete (h : VectoredInv c engine s) {x : SegXfer}
    (hstep : Vectored.step c s (.complete x) = some s')
    : VectoredInv c engine s' := by
  simp only [Vectored.step] at hstep
  split at hstep
  . contradiction
  . next hx =>
    rw [not_not] at hx
    have hperm := (List.perm_cons_erase hx).countP_eq SegXfer.lastInRequest
    have hhandled := h.handled
    rw [List.countP_cons] at hperm
    split at hstep
    . next hmid =>
      rw [Option.some.injEq] at hstep
      subst hstep
      refine ⟨h.ok, h.error, h.passed, ?_, h.array⟩
      dsimp only
      omega
    . next hlast =>
      rw [Bool.not_eq_true', Bool.not_eq_false] at hlast
      rw [if_pos hlast] at hperm
      split at hstep
      . rw [Option.some.injEq] at hstep
        subst hstep
        have hunmapped : s.next < c.iov.length → AioRes.block (.cb 0) ∈ Ledger.held
            ((charSgdmaUnmapUserBuf (s.cb x.seg) []).2.map (Ledger.Call.map (AioRes.map x.seg))
              ++ .release (.req x.seg) :: s.calls) := by
          intro hlt
          apply Ledger.mem_held_append _ (release_block_not_mem_map _)
          exact Ledger.mem_held_release_of_ne (h.array hlt) AioRes.noConfusion
        unfold vectoredHandler
        dsimp only
        split
        . next hall =>
          refine ⟨h.ok, h.error, h.passed, ?_, fun hlt => ?_⟩
          . dsimp only
            omega
          . dsimp only at hlt
            omega
        . refine ⟨h.ok, h.error, h.passed, ?_, hunmapped⟩
          dsimp only
          omega
      . contradiction

theorem VectoredInv.step (hengine : c.xcdev = some engine) (h : VectoredInv c engine s)
    {e : VectoredEvent} (hstep : Vectored.step c s e = some s')
    : VectoredInv c engine s' := by
  cases e with
  | submit =>
    simp only [Vectored.step, hengine] at hstep
    split at hstep
    . next hret heq =>
      rw [Option.some.injEq] at heq hstep
      subst heq hstep
      apply h.round hret
    . contradiction
  | complete x => exact h.complete hstep

theorem VectoredInv.of_run (hengine : c.xcdev = some engine) (h : VectoredInv c engine s)
    {es : List VectoredEvent} (hrun : Transition.run (Vectored.step c) s es = some s')
    : VectoredInv c engine s' := by
  have hstates : Transition.StatesHold (Vectored.step c) (VectoredInv c engine) s es :=
    Transition.statesHold_of_inductive (fun _ h => h) (fun _ _ _ h hstep => h.step hengine hstep) h
  exact hstates.of_run hrun

/-- An operation that was refused takes no step. -/
theorem Vectored.refused_run {es : List VectoredEvent}
    (hrun : Transition.run (Vectored.step c) .refused es = some s)
    : s = .refused := by
  cases es with
  | nil => exact (Option.some.inj hrun).symm
  | cons e es => cases e <;> contradiction

theorem Vectored.refused_reclaimed
    : Vectored.refused.Reclaimed := by
  refine ⟨rfl, ⟨trivial, rfl⟩, ?_⟩
  intro x hx
  contradiction

/-- With its blocks, an operation that ends early leaves the array of its segments. -/
theorem VectoredInv.not_reclaimed (h : VectoredInv c engine s) {err : Int}
    (hret : s.ret = some (.error err))
    : ¬ s.Reclaimed := by
  intro hreclaimed
  obtain ⟨io, hio, _⟩ := h.error err hret
  obtain ⟨hlt, _⟩ := List.getElem?_eq_some_iff.mp hio
  have harray := h.array hlt
  rw [hreclaimed.released.2] at harray
  contradiction

end Run

/--
An operation that has returned left nothing, if it returned an error, exactly where it failed before it
allocated anything or had no reason to fail.
-/
theorem cdevAio_reclaimed_iff (c : VectoredCall) (es : List VectoredEvent) (s : Vectored)
    (hrun : Transition.run (Vectored.step c) c.enter es = some s) (hret : s.ret.isSome = true)
    : (∀ err, s.ret = some (.error err) → s.Reclaimed) ↔ c.FailsEarly := by
  unfold VectoredCall.FailsEarly
  cases hxcdev : c.xcdev with
  | none =>
    have henter : c.enter = .refused := by
      unfold VectoredCall.enter
      rw [hxcdev]
    rw [henter] at hrun
    rw [Vectored.refused_run hrun]
    refine ⟨fun _ engine hengine => ?_, fun _ _ _ => Vectored.refused_reclaimed⟩
    contradiction
  | some engine =>
    simp only [Option.some.injEq, forall_eq']
    cases hdir : engine.dirOk c.write with
    | false =>
      have henter : c.enter = .refused := by
        simp only [VectoredCall.enter, hxcdev, hdir, Bool.false_eq_true, ↓reduceIte]
      rw [henter] at hrun
      rw [Vectored.refused_run hrun]
      exact ⟨fun _ => .inl rfl, fun _ _ _ => Vectored.refused_reclaimed⟩
    | true =>
      have henter : c.enter = .allocated := by
        simp only [VectoredCall.enter, hxcdev, hdir, ↓reduceIte]
      rw [henter] at hrun
      have hinv := VectoredInv.of_run hxcdev (.allocated c engine) hrun
      have hfalse : ¬ true = false := by decide
      rw [or_iff_right hfalse]
      cases hvalue : s.ret with
      | none =>
        rw [hvalue] at hret
        contradiction
      | some value =>
        cases value with
        | ok =>
          refine ⟨fun _ i io hio => ?_, fun _ err herr => absurd herr (by simp)⟩
          have hend := List.getElem?_eq_none_iff.mp (hinv.ok hvalue)
          obtain ⟨hlt, _⟩ := List.getElem?_eq_some_iff.mp hio
          exact hinv.passed i io (by omega) hio
        | error err =>
          obtain ⟨io, hio, hfails⟩ := hinv.error err hvalue
          constructor
          . intro h
            exact absurd (h err rfl) (hinv.not_reclaimed hvalue)
          . intro h
            exact absurd (h s.next io hio) hfails

/-- A kernel that finds all memory and pins the pages it is asked for. -/
def pinEvery : PinKernel where
  sgAllocTable := fun _ => true
  kcalloc := fun _ => true
  getUserPagesFast := fun _ nr => (nr.toNat, List.range nr.toNat)

/-- The submission of one page, on an idle engine that nobody else uses. -/
def pageSubmitted : Option NowaitResult :=
  xdmaXferSubmitNowait ⟨false, false, 4096⟩ (fun _ => true)
    (Driver.init (XdmaEngine.init .toDevice false 0 0)) 0 true 0 [⟨0x10000, 4096⟩] false
    (fun _ => ⟨id, ⟨0, 0, 0, 0⟩⟩)

theorem pageSubmitted_isSome
    : pageSubmitted.isSome = true := by decide +kernel

/-- A write of two buffers on an engine that asks for alignment to four bytes. -/
def twoBuffers (second : Nat) : VectoredCall where
  xcdev := some ⟨.toDevice, false, 4, 1⟩
  iov := [⟨0x1000, 4096⟩, ⟨second, 4096⟩]
  pos := 0
  write := true
  kernel := fun _ => pinEvery
  nowait := fun _ => pageSubmitted.get pageSubmitted_isSome

theorem cdevAio_reclaimed_iff_read
    : let c := { twoBuffers 0x3000 with write := false }
      (∀ err, c.enter.ret = some (.error err) → c.enter.Reclaimed) ↔ c.FailsEarly :=
  cdevAio_reclaimed_iff { twoBuffers 0x3000 with write := false } [] _ rfl rfl

/--
The second buffer is not aligned: the call returns with the first one queued, whose callback argument lies
in an array that nothing frees any more, and points to an object that was freed.
-/
theorem cdevAioWrite_not_reclaimed
    : ∃ s, Transition.run (Vectored.step (twoBuffers 0x3001)) (twoBuffers 0x3001).enter
          [.submit, .submit] = some s
        ∧ s.ret = some (.error (-22)) ∧ s.queued = [⟨0, true⟩]
        ∧ Ledger.held s.calls
          = [.req 0, .map 0 (.page 0), .map 0 .pages, .map 0 .sgTable, .block (.cb 0)]
        ∧ ¬ s.Reclaimed := by
  refine ⟨_, rfl, rfl, by decide +kernel, by decide +kernel, ?_⟩
  intro h
  have hreleased := h.released.2
  revert hreleased
  decide +kernel

end Xdma
