import ReferenceProjects.Xdma.Impl.Submit
import ReferenceProjects.Xdma.Lemmas.Queue

/-!
This module contains what the parts of a submission do to the driver: building the next transfer,
waking up from the wait for it, destroying it, and freeing the request.
-/

namespace Xdma

section SubmitInit

variable (s : Driver) (r : Nat) (t : XferPtr) (cb : Option Nat) (dmaMapped : Bool) (nents : Nat)

theorem submitInit_engine
    : (submitInit s r t cb dmaMapped nents).1.engine = (transferInit s.engine (s.req r)).1 := rfl

theorem submitInit_offline
    : (submitInit s r t cb dmaMapped nents).1.offline = s.offline := rfl

theorem submitInit_req
    : (submitInit s r t cb dmaMapped nents).1.req r = (transferInit s.engine (s.req r)).2.1 := by
  simp [submitInit, Driver.setXfer, Driver.transferInit]

theorem submitInit_xfer
    : let xfer := (submitInit s r t cb dmaMapped nents).1.xfer t
      let xfer' := (transferInit s.engine (s.req r)).2.2
      xfer.descIndex = xfer'.descIndex ∧ xfer.descNum = xfer'.descNum ∧ xfer.len = xfer'.len := by
  simp only [submitInit, Driver.setXfer, Driver.transferInit, Function.update_self]
  split <;> split <;> exact ⟨rfl, rfl, rfl⟩

theorem submitInit_nents
    : (submitInit s r t cb dmaMapped nents).2 = nents - transferDescMax s.engine (s.req r) := by
  have hnum : (transferInit s.engine (s.req r)).2.2.descNum
      = transferDescMax s.engine (s.req r) := rfl
  rw [← hnum]
  simp only [submitInit, Driver.transferInit, Function.update_self]
  split <;> rfl

theorem submitInit_moves (hidx : s.engine.descIdx < 2048) (hst : s.engine.streamC2h = false)
    (hlen : ∀ sd ∈ (s.req r).sdesc, sd.len < 2 ^ 32)
    : ((submitInit s r t cb dmaMapped nents).1.xferDescs t).map (XdmaDesc.move s.engine.dir)
        =
      swMoves s.engine.nonIncrAddr (s.req r).epAddr (transferSdesc s.engine (s.req r)) := by
  have hxfer := submitInit_xfer s r t cb dmaMapped nents
  have hinit := transferInit_xfer s.engine (s.req r)
  have hmoves := transferInit_moves s.engine (s.req r) hidx hst hlen
  dsimp only at hxfer
  rw [hinit] at hxfer
  simp only [Driver.xferDescs, hxfer.1, hxfer.2.1, submitInit_engine, List.map_map]
  exact hmoves

theorem submitInit_new
    : let xfer := (submitInit s r t cb dmaMapped nents).1.xfer t
      xfer.state = .new ∧ xfer.cb = cb
        ∧ (xfer.lastInRequest = true ↔ (submitInit s r t cb dmaMapped nents).2 = 0) := by
  have hzero : (transferInit s.engine (s.req r)).2.2.state = .new
      ∧ (transferInit s.engine (s.req r)).2.2.lastInRequest = false := ⟨rfl, rfl⟩
  simp only [submitInit, Driver.setXfer, Driver.transferInit, Function.update_self]
  generalize (transferInit s.engine (s.req r)).2.2 = xfer at hzero
  cases dmaMapped <;> by_cases hlast : nents - xfer.descNum = 0 <;> simp [hlast, hzero]

theorem submitInit_eq
    : (submitInit s r t cb dmaMapped nents).1
        =
      { s with
          engine := (transferInit s.engine (s.req r)).1
          req := Function.update s.req r (transferInit s.engine (s.req r)).2.1
          xfer := Function.update s.xfer t ((submitInit s r t cb dmaMapped nents).1.xfer t)
          hist.live := t :: s.hist.live.filter (fun u => u ≠ t)
      } := by
  simp [submitInit, Driver.setXfer, Driver.transferInit]

end SubmitInit

theorem submitDestroy_eq (s : Driver) (t : XferPtr)
    : submitDestroy s t
        =
      { s with
          engine.descUsed := s.engine.descUsed - (s.xfer t).descNum
          engine.desc := xdmaDescDone s.engine.desc (s.xfer t).descIndex (s.xfer t).descNum
          hist.live := s.hist.live.filter (fun u => u ≠ t)
          sgt := (submitDestroy s t).sgt
      } := by
  unfold submitDestroy
  rw [transferDestroy_eq]

section Exit

theorem submitExit_eq (s : Driver) (r : Nat) (dmaMapped : Bool)
    : submitExit s r dmaMapped
        =
      { s with
          sgt := (submitExit s r dmaMapped).sgt
          hist.freed := (r, s.engine.transferList) :: s.hist.freed
          hist.live := s.hist.live.filter (fun u => !u.ofReq r)
      } := by
  cases dmaMapped
  . simp only [submitExit, xdmaRequestFree, Bool.false_eq_true, ↓reduceIte]
    rw [Driver.unmapSg_eq]
  . rfl

end Exit

section Switch

theorem submitSwitch_nents (e : XdmaEngine) (xfer : XdmaTransfer) (l : SubmitLoop)
    : (submitSwitch e xfer l).nents = 0 ∨ (submitSwitch e xfer l).nents = l.nents := by
  unfold submitSwitch
  split
  . split
    . split
      . exact Or.inl rfl
      . exact Or.inr rfl
    . exact Or.inr rfl
  . exact Or.inr rfl
  . exact Or.inr rfl

theorem submitSwitch_rv (e : XdmaEngine) (xfer : XdmaTransfer) (l : SubmitLoop)
    : (submitSwitch e xfer l).rv.isSome = false ↔ xfer.state = .completed := by
  unfold submitSwitch
  split
  . next h =>
    split <;> simp [h]
  . next h => simp [h]
  . next h _ => simpa using h

end Switch

section Wake

variable (p : ModuleParam)

/--
Waking up changes nothing, or reads the status, or aborts the transfer and stops the engine: the
transfer is unlinked where it is the first of the queue.
-/
theorem submitWake_cases (s : Driver) (t : XferPtr) (hw : HwRegs)
    : (∃ status, submitWake p s t hw = { s with engine.status := status })
      ∨ (¬ ((s.xfer t).state = .completed ∨ (s.xfer t).state = .failed)
        ∧ ∃ status xfer, submitWake p s t hw
            = xdmaEngineStop p
              { s with
                  engine.status := status
                  engine.transferList := unlinkHead t s.engine.transferList
                  xfer := Function.update s.xfer t xfer
              }
          ∧ (xfer = s.xfer t ∨ (s.xfer t).state = .submitted
            ∧ xfer = { s.xfer t with state := .aborted })) := by
  unfold submitWake submitTimeout
  split
  . exact Or.inl ⟨s.engine.status, rfl⟩
  . exact Or.inl ⟨s.engine.status, rfl⟩
  . next hcompl hfail =>
    rw [engineStatusRead_dump]
    by_cases hid : hw.identifier &&& blockIdMask ≠ blockIdHead
    . rw [if_pos hid]
      exact Or.inl ⟨s.engine.status, rfl⟩
    . rw [if_neg hid]
      dsimp only
      unfold transferAbort
      dsimp only
      by_cases hnum : (s.xfer t).descNum = 0
      . rw [if_pos hnum]
        exact Or.inl ⟨hw.status, rfl⟩
      . rw [if_neg hnum]
        refine Or.inr ⟨by rintro (h | h); exacts [hcompl h, hfail h], hw.status, _, rfl, ?_⟩
        split
        . next hsub => exact Or.inr ⟨hsub, rfl⟩
        . exact Or.inl rfl

theorem submitWake_of_settled {s : Driver} {t : XferPtr} (hsettled : (s.xfer t).Settled)
    (hw : HwRegs)
    : submitWake p s t hw = s := by
  unfold submitWake
  cases hsettled with
  | inl h => rw [h]
  | inr h => rw [h]

end Wake

section Loop

variable (p : ModuleParam) {r : Nat} (dmaMapped : Bool)

theorem submitLoop_succ (env : Nat → Wait) (fuel k : Nat) (s : Driver) {l : SubmitLoop}
    (hpos : l.nents ≠ 0) {q : Driver}
    (hqueue : transferQueue p (submitInit s r (.tfer r 0) none dmaMapped l.nents).1 (.tfer r 0)
      (env k).hwQueue = .ok q)
    : let t := XferPtr.tfer r 0
      let m := submitInit s r t none dmaMapped l.nents
      let o := (env k).others q
      let l' := submitSwitch o.engine (o.xfer t) { l with nents := m.2 }
      let s' := submitDestroy (submitWake p o t (env k).hwWake) t
      submitLoop p r dmaMapped env (fuel + 1) k s l
        =
      if l'.rv.isSome then
        some (l', [m.1.xferDescs t], s')
      else
        (submitLoop p r dmaMapped env fuel (k + 1) s' l').map
          (fun (l, descs, s) => (l, m.1.xferDescs t :: descs, s)) := by
  intro t m o l' s'
  conv => lhs; unfold submitLoop
  rw [if_neg hpos]
  dsimp only
  rw [hqueue]

end Loop

/--
An accepted submission has mapped the scatter list and made the request.
-/
theorem submitRequest_ok {p : ModuleParam} {alloc : Nat → Bool} {s m : Driver} {r : Nat}
    {write dmaMapped : Bool} {epAddr : BitVec 64} {sgl : List Scatterlist} {req : XdmaRequestCb}
    (h : submitRequest p alloc s r write epAddr sgl dmaMapped = some (m, .ok req))
    : xdmaInitRequest p.descBlenMax alloc sgl epAddr = .ok req
        ∧ m = { s.mapSg r sgl with req := Function.update s.req r req } := by
  unfold submitRequest at h
  generalize (if write then DmaDataDirection.toDevice else .fromDevice) = dir at h
  split at h
  . cases h
  . split at h
    . cases h
    . split at h
      . cases h
      . dsimp only at h
        split at h
        . cases h
        . cases h
        . contradiction
        . contradiction
        . next hinit =>
          cases h
          exact ⟨hinit, rfl⟩

end Xdma
