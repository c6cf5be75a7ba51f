import ReferenceProjects.Xdma.Impl.Submit
import ReferenceProjects.Xdma.Lemmas.Engine
import ReferenceProjects.Xdma.Lemmas.Transfer

/-!
This module contains what queueing, aborting and destroying a transfer does to the state of the
driver, one equation for each function.
-/

namespace Xdma

/-- The transfer has its final verdict. -/
def XdmaTransfer.Settled (xfer : XdmaTransfer) : Prop :=
  xfer.state = .completed ∨ xfer.state = .failed

instance (xfer : XdmaTransfer) : Decidable xfer.Settled :=
  inferInstanceAs (Decidable (_ ∨ _))

/-- The state in which `transfer_queue()` looks whether it has to start the engine. -/
def Driver.enqueue (s : Driver) (t : XferPtr) : Driver :=
  { s with
      engine.transferList := s.engine.transferList ++ [t]
      xfer := Function.update s.xfer t { s.xfer t with state := .submitted }
  }

theorem XferPtr.ofReq_of_not_mem {r : Nat} {list : List XferPtr} (hnone : ∀ j, .tfer r j ∉ list)
    {t : XferPtr} (ht : t ∈ list)
    : t.ofReq r = false := by
  cases t with
  | tfer r' j =>
    simp only [XferPtr.ofReq, beq_eq_false_iff_ne]
    rintro rfl
    exact hnone j ht
  | perf n => rfl

section TransferQueue

variable (p : ModuleParam)

theorem transferQueueLocked_isOk {s : Driver} (hreq : s.engine.shutdown.request = false)
    (t : XferPtr) (hw : HwRegs)
    : ∃ s', transferQueueLocked p s t hw = .ok s' := by
  unfold transferQueueLocked
  rw [hreq]
  dsimp only
  split
  . next h => exact absurd h (by simp)
  . split <;> exact ⟨_, rfl⟩

variable {p}

theorem transferQueueLocked_cases {s s' : Driver} {t : XferPtr} {hw : HwRegs}
    (hqueue : transferQueueLocked p s t hw = .ok s')
    : s.engine.shutdown.request = false
        ∧ (s.engine.running = true ∧ s' = s.enqueue t
          ∨ s.engine.running = false ∧ engineStart p (s.enqueue t) hw = some s') := by
  unfold transferQueueLocked at hqueue
  split at hqueue
  . contradiction
  . next hreq =>
    refine ⟨by simpa using hreq, ?_⟩
    dsimp only at hqueue
    split at hqueue
    . next hrun =>
      rw [Except.ok.injEq] at hqueue
      exact Or.inl ⟨hrun, hqueue.symm⟩
    . next hrun =>
      rw [Except.ok.injEq] at hqueue
      have hrun : s.engine.running = false := by simpa [Driver.setXfer] using hrun
      refine Or.inr ⟨hrun, ?_⟩
      cases hstart : engineStart p (s.enqueue t) hw with
      | none =>
        rw [engineStart_none_iff] at hstart
        simp [Driver.enqueue, hrun] at hstart
      | some m =>
        rw [← hqueue]
        exact congrArg some (by rw [← Option.getD_some (a := m), ← hstart]; rfl)

theorem transferQueueLocked_eq {s s' : Driver} {t : XferPtr} {hw : HwRegs}
    (hqueue : transferQueueLocked p s t hw = .ok s')
    : s' = { s.enqueue t with
        engine := { (s.enqueue t).engine with
          shutdown := s'.engine.shutdown
          descDequeued := s'.engine.descDequeued
          status := s'.engine.status
          running := true
          regs := s'.engine.regs
        }
        hist := { s.hist with
          starts := s'.hist.starts
          controlWrites := s'.hist.controlWrites
          credits := s'.hist.credits
        }
      } := by
  rcases transferQueueLocked_cases hqueue with ⟨_, ⟨hrun, rfl⟩ | ⟨_, hstart⟩⟩
  . rw [← hrun]
    rfl
  . rcases engineStart_eq hstart with ⟨_, u, rest, _, heq⟩
    rw [heq]
    rfl

theorem transferQueueLocked_list {s s' : Driver} {t : XferPtr} {hw : HwRegs}
    (hqueue : transferQueueLocked p s t hw = .ok s')
    : s'.engine.transferList = s.engine.transferList ++ [t] := by
  rw [transferQueueLocked_eq hqueue]
  rfl

theorem transferQueueLocked_xfer {s s' : Driver} {t : XferPtr} {hw : HwRegs}
    (hqueue : transferQueueLocked p s t hw = .ok s')
    : s'.xfer = Function.update s.xfer t { s.xfer t with state := .submitted } := by
  rw [transferQueueLocked_eq hqueue]
  rfl

theorem transferQueueLocked_request {s s' : Driver} {t : XferPtr} {hw : HwRegs}
    (hqueue : transferQueueLocked p s t hw = .ok s')
    : s'.engine.shutdown.request = false := by
  rcases transferQueueLocked_cases hqueue with ⟨hreq, ⟨_, rfl⟩ | ⟨_, hstart⟩⟩
  . exact hreq
  . rcases engineStart_eq hstart with ⟨_, u, rest, _, heq⟩
    rw [heq]

theorem transferQueueCheck_ok_iff (s : Driver) (t : XferPtr)
    : transferQueueCheck s t = .ok () ↔ (s.xfer t).descNum ≠ 0 ∧ s.offline = false := by
  unfold transferQueueCheck
  by_cases hnum : (s.xfer t).descNum = 0
  . simp [hnum]
  . cases s.offline <;> simp [hnum]

theorem transferQueueLocked_error {s : Driver} {t : XferPtr} {hw : HwRegs} {err : Errno}
    (hqueue : transferQueueLocked p s t hw = .error err)
    : s.engine.shutdown.request = true := by
  by_contra hreq
  rcases transferQueueLocked_isOk p (by simpa using hreq) t hw with ⟨s', hok⟩
  rw [hok] at hqueue
  contradiction

theorem transferQueue_ok {s s' : Driver} {t : XferPtr} {hw : HwRegs}
    (hqueue : transferQueue p s t hw = .ok s')
    : (s.xfer t).descNum ≠ 0 ∧ s.offline = false ∧ transferQueueLocked p s t hw = .ok s' := by
  unfold transferQueue transferQueueCheck at hqueue
  split at hqueue
  . contradiction
  . next hnum =>
    split at hqueue
    . contradiction
    . next hoff => exact ⟨hnum, by simpa using hoff, hqueue⟩

end TransferQueue

theorem unlinkHead_suffix (t : XferPtr) (l : List XferPtr) : unlinkHead t l <:+ l := by
  cases l with
  | nil => exact List.suffix_refl _
  | cons head rest =>
    simp only [unlinkHead]
    split
    . exact List.suffix_cons head rest
    . exact List.suffix_refl _

theorem mem_unlinkHead_of_ne {t u : XferPtr} (h : u ≠ t) (l : List XferPtr)
    : u ∈ unlinkHead t l ↔ u ∈ l := by
  cases l with
  | nil => exact Iff.rfl
  | cons head rest =>
    simp only [unlinkHead]
    split
    . next heq =>
      subst heq
      simp [h]
    . exact Iff.rfl

theorem Driver.unmapSg_eq (s : Driver) (r : Nat)
    : s.unmapSg r = { s with sgt := (s.unmapSg r).sgt } := by
  unfold Driver.unmapSg
  dsimp only
  split <;> rfl

theorem transferDestroy_eq (s : Driver) (t : XferPtr)
    : transferDestroy s t
        =
      { s with
          engine.desc := xdmaDescDone s.engine.desc (s.xfer t).descIndex (s.xfer t).descNum
          hist.live := s.hist.live.filter (fun u => u ≠ t)
          sgt := (transferDestroy s t).sgt
      } := by
  unfold transferDestroy
  dsimp only
  split
  . split
    . exact Driver.unmapSg_eq _ _
    . rfl
  . rfl

end Xdma
