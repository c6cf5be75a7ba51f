import ReferenceProjects.Xdma.Impl.Service

/-!
This module contains the submission that does not wait, `xdma_xfer_submit_nowait()`, with the indices at
which its loop and that of `xdma_xfer_completion()` use `req->tfer`.
-/

namespace Xdma

variable (p : ModuleParam)

/--
What happens outside `xdma_xfer_submit_nowait()` before one round of its loop, which does not hold
`desc_lock`, and the registers that the queueing in that round reads.
-/
structure NowaitRound where
  others : Driver → Driver
  hwQueue : HwRegs

/-- The error returned, `none` for `-EIOCBQUEUED`, the values of `tfer_idx`, and the driver then. -/
structure NowaitResult where
  err : Option Errno
  tferIdx : List Nat
  drv : Driver

/--
The `while (nents)` loop of `xdma_xfer_submit_nowait()` for request `r`; `none` when it has not ended
after `fuel` rounds.
-/
def nowaitLoop (r : Nat) (dmaMapped : Bool) (env : Nat → NowaitRound) : (fuel tferIdx : Nat) → Driver
    → (nents : Nat) → Option NowaitResult
  | fuel, tferIdx, s, nents =>
    if nents = 0 then
      some ⟨none, [], s⟩
    else
      match fuel with
      | 0 => none
      | fuel + 1 =>
        -- one transfer at a time
        let t := XferPtr.tfer r tferIdx
        let (s, nents) := submitInit ((env tferIdx).others s) r t (some r) dmaMapped nents
        match transferQueue p s t (env tferIdx).hwQueue with
        | .error err => some ⟨some err, [tferIdx], s⟩
        | .ok s =>
          (nowaitLoop r dmaMapped env fuel (tferIdx + 1) s nents).map
            (fun result => { result with tferIdx := tferIdx :: result.tferIdx })

/-- `xdma_xfer_submit_nowait()` of the scatter list `sgl`; `none` when it does not return. -/
def xdmaXferSubmitNowait (alloc : Nat → Bool) (s : Driver) (r : Nat) (write : Bool)
    (epAddr : BitVec 64) (sgl : List Scatterlist) (dmaMapped : Bool) (env : Nat → NowaitRound)
    : Option NowaitResult :=
  match submitRequest p alloc s r write epAddr sgl dmaMapped with
  | none => none
  | some (s, .error err) => some ⟨some err, [], s⟩
  | some (s, .ok req) =>
    match nowaitLoop p r dmaMapped env req.swDescCnt 0 s req.swDescCnt with
    | none => none
    | some ⟨none, tferIdx, s⟩ => some ⟨none, tferIdx, s⟩
    | some ⟨some err, tferIdx, s⟩ => some ⟨some err, tferIdx, submitExit s r dmaMapped⟩

/-- The values of `tfer_idx` in the loop of `xdma_xfer_completion()`, which is `completionLoop`. -/
def completionTferIdx (r : Nat) (hw : HwRegs) : (fuel tferIdx nents : Nat) → Driver → List Nat
  | 0, _, _, _ => []
  | fuel + 1, tferIdx, nents, s =>
    if nents = 0 then
      []
    else
      let t := XferPtr.tfer r tferIdx
      let nents := nents - (s.xfer t).descNum
      let (s, _, more) := completionSwitch p s t hw
      let s := transferDestroy s t
      let s := { s with engine.descUsed := s.engine.descUsed - (s.xfer t).descNum }
      tferIdx :: if more then completionTferIdx r hw fuel (tferIdx + 1) nents s else []

end Xdma
