import ReferenceProjects.Lib.Copy
import ReferenceProjects.Xdma.Impl.Transfer
import ReferenceProjects.Xdma.Lemmas.Desc

/-!
This module contains the specification of `transfer_build()` and `transfer_init()`: which bytes the
descriptors of the new transfer move, how they are chained, and what stays as it was.
-/

namespace Xdma

open Copy

/-- The memory that a descriptor of an engine with direction `dir` connects. -/
def XdmaDesc.move (dir : DmaDataDirection) (d : XdmaDesc) : Move (BitVec 64) (BitVec 64) :=
  match dir with
  | .toDevice => ⟨d.srcAddr, d.dstAddr, d.bytes.toNat⟩
  | .fromDevice => ⟨d.dstAddr, d.srcAddr, d.bytes.toNat⟩

def SwDesc.segment (sd : SwDesc) : Segment (BitVec 64) := ⟨sd.addr, sd.len⟩

/-- The number of bytes of a list of software descriptors. -/
def swTotal (sds : List SwDesc) : Nat := total (sds.map SwDesc.segment)

@[simp]
theorem swTotal_nil : swTotal [] = 0 := rfl

@[simp]
theorem swTotal_cons (sd : SwDesc) (sds : List SwDesc)
    : swTotal (sd :: sds) = sd.len + swTotal sds := rfl

/-- What software descriptors move in the two addressing modes. -/
def swMoves (nonIncrAddr : Bool) (epAddr : BitVec 64) (sds : List SwDesc)
    : List (Move (BitVec 64) (BitVec 64)) :=
  if nonIncrAddr then
    placeFixed epAddr (sds.map SwDesc.segment)
  else
    place epAddr (sds.map SwDesc.segment)

/-- The endpoint address after software descriptors were built. -/
def swEpAddr (nonIncrAddr : Bool) (epAddr : BitVec 64) (sds : List SwDesc) : BitVec 64 :=
  if nonIncrAddr then epAddr else epAddr + (swTotal sds : BitVec 64)

@[simp]
theorem swMoves_nil (nonIncrAddr : Bool) (epAddr : BitVec 64)
    : swMoves nonIncrAddr epAddr [] = [] := by
  cases nonIncrAddr <;> rfl

theorem swMoves_cons (nonIncrAddr : Bool) (epAddr : BitVec 64) (sd : SwDesc) (sds : List SwDesc)
    : swMoves nonIncrAddr epAddr (sd :: sds)
        =
      ⟨sd.addr, epAddr, sd.len⟩ :: swMoves nonIncrAddr (swEpAddr nonIncrAddr epAddr [sd]) sds := by
  cases nonIncrAddr <;> rfl

theorem swEpAddr_append (nonIncrAddr : Bool) (epAddr : BitVec 64) (sds sds' : List SwDesc)
    : swEpAddr nonIncrAddr epAddr (sds ++ sds')
        =
      swEpAddr nonIncrAddr (swEpAddr nonIncrAddr epAddr sds) sds' := by
  cases nonIncrAddr with
  | true => rfl
  | false => simp [swEpAddr, swTotal, total, add_assoc]

theorem swMoves_append (nonIncrAddr : Bool) (epAddr : BitVec 64) (sds sds' : List SwDesc)
    : swMoves nonIncrAddr epAddr (sds ++ sds')
        =
      swMoves nonIncrAddr epAddr sds
        ++ swMoves nonIncrAddr (swEpAddr nonIncrAddr epAddr sds) sds' := by
  cases nonIncrAddr with
  | true => simp [swMoves, swEpAddr, placeFixed]
  | false => simp [swMoves, swEpAddr, place_append, swTotal]

@[simp]
theorem length_swMoves (nonIncrAddr : Bool) (epAddr : BitVec 64) (sds : List SwDesc)
    : (swMoves nonIncrAddr epAddr sds).length = sds.length := by
  induction sds generalizing epAddr with
  | nil => simp
  | cons sd sds ih => simp [swMoves_cons, ih]

theorem xdmaDescSet_move (d : XdmaDesc) (addr epAddr : BitVec 64) {len : Nat} (hlen : len < 2 ^ 32)
    (dir : DmaDataDirection)
    : (xdmaDescSet d addr epAddr len dir).move dir = ⟨addr, epAddr, len⟩ := by
  have hbytes : (BitVec.ofNat 32 len).toNat = len := Nat.mod_eq_of_lt hlen
  cases dir <;> simp [xdmaDescSet, XdmaDesc.move, XdmaDesc.srcAddr, XdmaDesc.dstAddr, hbytes]

theorem xdmaDescSet_chain (d : XdmaDesc) (addr epAddr : BitVec 64) (len : Nat)
    (dir : DmaDataDirection)
    : let d' := xdmaDescSet d addr epAddr len dir
      d'.nextLo = d.nextLo ∧ d'.nextHi = d.nextHi ∧ d'.control = d.control := by
  cases dir <;> exact ⟨rfl, rfl, rfl⟩

namespace transferBuild

variable (e : XdmaEngine) (xfer : XdmaTransfer)

theorem body_epAddr (j : Nat) (b : BuildState) (sd : SwDesc)
    : (body e xfer j b sd).epAddr = swEpAddr e.nonIncrAddr b.epAddr [sd] := by
  simp [body, swEpAddr]

theorem go_epAddr (sds : List SwDesc) (j : Nat) (b : BuildState)
    : (go e xfer j b sds).epAddr = swEpAddr e.nonIncrAddr b.epAddr sds := by
  induction sds generalizing j b with
  | nil => cases hincr : e.nonIncrAddr <;> simp [go, swEpAddr]
  | cons sd sds ih =>
    have hcons := swEpAddr_append e.nonIncrAddr b.epAddr [sd] sds
    rw [List.singleton_append] at hcons
    simp only [go]
    rw [ih, hcons, body_epAddr]

theorem go_len (sds : List SwDesc) (j : Nat) (b : BuildState) (hb : b.len < 2 ^ 32)
    : (go e xfer j b sds).len = (b.len + swTotal sds) % 2 ^ 32 := by
  induction sds generalizing j b with
  | nil => exact (Nat.mod_eq_of_lt hb).symm
  | cons sd sds ih =>
    simp only [go]
    rw [ih _ _ (Nat.mod_lt _ (by omega))]
    simp only [body, swTotal_cons]
    omega

/--
What no iteration of the loop changes, the loop leaves as it was.
-/
theorem go_frame {α : Type*} {f : BuildState → α} (sds : List SwDesc) (j : Nat) (b : BuildState)
    (hbody : ∀ i < sds.length, ∀ b sd, f (body e xfer (j + i) b sd) = f b)
    : f (go e xfer j b sds) = f b := by
  induction sds generalizing j b with
  | nil => rfl
  | cons sd sds ih =>
    have hrest := ih (j + 1) (body e xfer j b sd) (by
      intro i hi b sd'
      rw [Nat.add_right_comm, Nat.add_assoc]
      exact hbody (i + 1) (by simpa using hi) b sd')
    exact hrest.trans (hbody 0 (by simp) b sd)

theorem go_desc_of_not_mem (sds : List SwDesc) (j : Nat) (b : BuildState) {k : Nat}
    (hk : k < xfer.descIndex + j ∨ xfer.descIndex + j + sds.length ≤ k)
    : (go e xfer j b sds).desc k = b.desc k := by
  apply go_frame (f := fun b => b.desc k)
  intro i hi b sd
  simp only [body]
  rw [Function.update_of_ne (by omega)]

theorem go_result_of_not_mem (sds : List SwDesc) (j : Nat) (b : BuildState) {k : Nat}
    (hk : k < xfer.descIndex + j ∨ xfer.descIndex + j + sds.length ≤ k)
    : (go e xfer j b sds).cyclicResult k = b.cyclicResult k := by
  apply go_frame (f := fun b => b.cyclicResult k)
  intro i hi b sd
  simp only [body]
  split
  . rw [Function.update_of_ne (by omega)]
  . rfl

theorem go_chain (sds : List SwDesc) (j : Nat) (b : BuildState) (k : Nat)
    : let d := (go e xfer j b sds).desc k
      d.nextLo = (b.desc k).nextLo ∧ d.nextHi = (b.desc k).nextHi
        ∧ d.control = (b.desc k).control := by
  have hgo := go_frame e xfer
    (f := fun b => ((b.desc k).nextLo, (b.desc k).nextHi, (b.desc k).control)) sds j b (by
      intro i _ b sd
      simp only [body, Prod.mk.injEq]
      by_cases hk : k = xfer.descIndex + (j + i)
      . subst hk
        simp only [Function.update_self]
        split <;> exact xdmaDescSet_chain _ _ _ _ _
      . simp only [Function.update_of_ne hk, and_self])
  simp only [Prod.mk.injEq] at hgo
  exact hgo

/--
The first iteration writes descriptor `j`, which the others leave alone.
-/
theorem map_go_cons {α : Type*} (f : XdmaDesc → α) (sd : SwDesc) (sds : List SwDesc) (j : Nat)
    (b : BuildState)
    : (List.range (sd :: sds).length).map
        (fun i => f ((go e xfer j b (sd :: sds)).desc (xfer.descIndex + j + i)))
        =
      f ((body e xfer j b sd).desc (xfer.descIndex + j))
        :: (List.range sds.length).map (fun i =>
          f ((go e xfer (j + 1) (body e xfer j b sd) sds).desc (xfer.descIndex + (j + 1) + i))) := by
  rw [List.length_cons, List.range_succ_eq_map, List.map_cons, List.map_map]
  simp only [go]
  refine congrArg₂ List.cons ?_ ?_
  . rw [go_desc_of_not_mem _ _ _ _ _ (by omega), Nat.add_zero]
  . apply List.map_congr_left
    intro i _
    have : xfer.descIndex + j + (i + 1) = xfer.descIndex + (j + 1) + i := by omega
    simp only [Function.comp_apply, Nat.succ_eq_add_one, this]

/--
Descriptor `j + i` moves what software descriptor `i` asks for, unless the engine replaces the
source by the address of the result.
-/
theorem go_move (hst : e.streamC2h = false) (sds : List SwDesc)
    (hlen : ∀ sd ∈ sds, sd.len < 2 ^ 32) (j : Nat) (b : BuildState)
    : (List.range sds.length).map
        (fun i => ((go e xfer j b sds).desc (xfer.descIndex + j + i)).move xfer.dir)
        =
      swMoves e.nonIncrAddr b.epAddr sds := by
  induction sds generalizing j b with
  | nil => simp
  | cons sd sds ih =>
    have hhead : ((body e xfer j b sd).desc (xfer.descIndex + j)).move xfer.dir
        = ⟨sd.addr, b.epAddr, sd.len⟩ := by
      simp only [body, hst, Bool.false_eq_true, ↓reduceIte, Function.update_self]
      exact xdmaDescSet_move _ _ _ (hlen sd (by simp)) _
    have hrest := ih (fun sd' hmem => hlen sd' (by simp [hmem])) (j + 1) (body e xfer j b sd)
    rw [map_go_cons e xfer (fun d => d.move xfer.dir), hhead, hrest, body_epAddr, swMoves_cons]

theorem hostSegment_setSrc (d : XdmaDesc) (lo hi : BitVec 32)
    : ({ d with srcAddrLo := lo, srcAddrHi := hi }.move .fromDevice).hostSegment
      = (d.move .fromDevice).hostSegment := by
  simp only [XdmaDesc.move, XdmaDesc.dstAddr, Move.hostSegment]

theorem body_host (hdir : e.dir = xfer.dir) (j : Nat) (b : BuildState) {sd : SwDesc}
    (hlen : sd.len < 2 ^ 32)
    : (((body e xfer j b sd).desc (xfer.descIndex + j)).move xfer.dir).hostSegment
      = sd.segment := by
  have hmove := xdmaDescSet_move (b.desc (xfer.descIndex + j)) sd.addr b.epAddr hlen xfer.dir
  simp only [body, Function.update_self]
  split
  . next hstream =>
    -- the result goes where the source would be, the host address is the destination
    have hfrom : xfer.dir = .fromDevice := by
      rw [← hdir]
      unfold XdmaEngine.streamC2h at hstream
      simp only [Bool.and_eq_true, beq_iff_eq] at hstream
      apply hstream.2
    rw [hfrom] at hmove ⊢
    rw [hostSegment_setSrc, hmove]
    rfl
  . rw [hmove]
    rfl

theorem go_host (hdir : e.dir = xfer.dir) (sds : List SwDesc) (hlen : ∀ sd ∈ sds, sd.len < 2 ^ 32)
    (j : Nat) (b : BuildState)
    : (List.range sds.length).map
        (fun i => (((go e xfer j b sds).desc (xfer.descIndex + j + i)).move xfer.dir).hostSegment)
        =
      sds.map SwDesc.segment := by
  induction sds generalizing j b with
  | nil => rfl
  | cons sd sds ih =>
    rw [List.forall_mem_cons] at hlen
    have hhead := body_host e xfer hdir j b hlen.1
    have hrest := ih hlen.2 (j + 1) (body e xfer j b sd)
    rw [map_go_cons e xfer (fun d => (d.move xfer.dir).hostSegment), hhead, hrest, List.map_cons]

end transferBuild

section TransferControl

variable (eopFlush : Bool) (desc : Nat → XdmaDesc) (base n : Nat)

theorem transferControl_of_not_mem {k : Nat} (hn : 0 < n) (hk : k < base ∨ base + n ≤ k)
    : transferControl eopFlush desc base n k = desc k := by
  have hfill : ∀ f (desc' : Nat → XdmaDesc) m, m ≤ n →
      Loop.rewrite f base desc' m k = desc' k := by
    intro f desc' m hm
    cases hk with
    | inl h => exact Loop.rewrite_of_lt _ _ _ h
    | inr h => exact Loop.rewrite_of_ge _ _ _ (by omega)
  simp only [transferControl]
  rw [hfill _ _ _ (Nat.le_refl n)]
  split
  . rw [hfill _ _ _ (Nat.sub_le n 1), Function.update_of_ne (by omega)]
  . rw [Function.update_of_ne (by omega)]

theorem transferControl_byte (hdesc : ∀ i < n, (desc (base + i)).control = descMagic) {i : Nat}
    (hi : i < n)
    : let control := xdmaDescStopped ||| xdmaDescEop ||| xdmaDescCompleted
      let last := base + (n - 1)
      let desc' := Function.update desc last
        (keepOnError (xdmaDescControlSet (desc last) control) (desc last))
      (if eopFlush then
          Loop.rewrite (fun _ d => keepOnError (xdmaDescControlSet d xdmaDescCompleted) d)
            base desc' (n - 1)
        else
          desc') (base + i)
        =
      { desc (base + i) with control := descMagic ||| controlByte eopFlush n i } := by
  have hzero : descMagic ||| 0 = descMagic := by decide
  have hlast : (xdmaDescStopped ||| xdmaDescEop ||| xdmaDescCompleted) = 0x13 := by decide
  dsimp only
  rw [hlast]
  by_cases hi' : i + 1 = n
  . have hbyte : controlByte eopFlush n i = 0x13 := by simp [controlByte, hi']
    have hidx : base + (n - 1) = base + i := by omega
    rw [hbyte, hidx, ← xdmaDescControlSet_magic _ (hdesc i hi) 0x13 (by simp [lowBytes])]
    split
    . rw [Loop.rewrite_of_ge _ _ _ (by omega), Function.update_self]
    . rw [Function.update_self]
  . split
    . next heop =>
      have hbyte : controlByte eopFlush n i = xdmaDescCompleted := by
        simp only [controlByte, hi', heop, ↓reduceIte]
        rfl
      rw [Loop.rewrite_of_mem _ _ _ (by omega), Function.update_of_ne (by omega), hbyte]
      exact xdmaDescControlSet_magic _ (hdesc i hi) _ (by simp [lowBytes, xdmaDescCompleted])
    . next heop =>
      have hbyte : controlByte eopFlush n i = 0 := by simp [controlByte, hi', heop]
      rw [Function.update_of_ne (by omega), hbyte, hzero, ← hdesc i hi]

theorem transferControl_of_mem (hdesc : ∀ i < n, (desc (base + i)).control = descMagic) {i : Nat}
    (hi : i < n)
    : transferControl eopFlush desc base n (base + i)
        =
      { desc (base + i) with
          control := controlWord (controlByte eopFlush n i)
            (xdmaGetNextAdj (n - i - 1) (desc (base + i)).nextLo)
      } := by
  have hbyte := transferControl_byte eopFlush desc base n hdesc hi
  dsimp only at hbyte
  simp only [transferControl]
  rw [Loop.rewrite_of_mem _ _ _ hi, hbyte]
  exact xdmaDescAdjacent_magic _ _ (controlByte_mem eopFlush n i) rfl _

end TransferControl

section TransferInit

variable (e : XdmaEngine) (req : XdmaRequestCb)

theorem transferDescMax_le_rest : transferDescMax e req ≤ req.swDescCnt - req.swDescIdx := by
  unfold transferDescMax
  dsimp only
  split <;> simp only [xdmaTransferMaxDesc] at * <;> omega

theorem transferDescMax_ring (hidx : e.descIdx < 2048)
    : e.descIdx + transferDescMax e req ≤ 2048 := by
  unfold transferDescMax
  dsimp only
  split <;> simp only [xdmaTransferMaxDesc] at * <;> omega

theorem transferDescMax_pos (hidx : e.descIdx < 2048) (hreq : req.swDescIdx < req.swDescCnt)
    : 0 < transferDescMax e req := by
  unfold transferDescMax
  dsimp only
  split <;> simp only [xdmaTransferMaxDesc] at * <;> omega

/-- The software descriptors that `transfer_init()` takes from the request. -/
def transferSdesc : List SwDesc := (req.sdesc.drop req.swDescIdx).take (transferDescMax e req)

theorem length_transferSdesc : (transferSdesc e req).length = transferDescMax e req := by
  have := transferDescMax_le_rest e req
  simp only [transferSdesc, List.length_take, List.length_drop]
  unfold XdmaRequestCb.swDescCnt at this
  omega

theorem transferSdesc_len {n : Nat} (hlen : ∀ sd ∈ req.sdesc, sd.len < n)
    : ∀ sd ∈ transferSdesc e req, sd.len < n := by
  intro sd hsd
  exact hlen sd (List.mem_of_mem_drop (List.mem_of_mem_take hsd))

theorem transferInit_req
    : (transferInit e req).2.1
        =
      { req with
          epAddr := swEpAddr e.nonIncrAddr req.epAddr (transferSdesc e req)
          swDescIdx := req.swDescIdx + transferDescMax e req
      } := by
  simp only [transferInit, transferBuild]
  rw [transferBuild.go_epAddr]
  rfl

/-- The transfer that `transfer_build()` starts from. -/
def initXfer : XdmaTransfer :=
  { XdmaTransfer.zero e.dir with
      descIndex := e.descIdx
      descBus := e.descBus + BitVec.ofNat 64 (32 * e.descIdx)
      resBus := e.cyclicResultBus + BitVec.ofNat 64 (32 * e.descIdx)
  }

/-- The descriptor ring that `transfer_build()` starts from. -/
def initDesc : Nat → XdmaDesc :=
  keepOnError (transferDescInit e.desc e.descIdx (initXfer e).descBus (transferDescMax e req)) e.desc

/-- The engine that `transfer_build()` starts from. -/
def initEngine : XdmaEngine := { e with desc := initDesc e req }

theorem transferInit_xfer
    : (transferInit e req).2.2
        =
      { initXfer e with
          descAdjacent := transferDescMax e req
          descCmplTh := if e.eopFlush then 1 else transferDescMax e req
          descNum := transferDescMax e req
          len := swTotal (transferSdesc e req) % 2 ^ 32
      } := by
  have hlen := transferBuild.go_len (initEngine e req) (initXfer e) (transferSdesc e req) 0
    ⟨initDesc e req, e.cyclicResult, req.epAddr, 0⟩ (by simp)
  rw [Nat.zero_add] at hlen
  rw [← hlen]
  rfl

theorem transferInit_desc
    : (transferInit e req).1.desc
        =
      transferControl e.eopFlush
        (transferBuild.go (initEngine e req) (initXfer e) 0
          ⟨initDesc e req, e.cyclicResult, req.epAddr, 0⟩ (transferSdesc e req)).desc
        e.descIdx (transferDescMax e req) := rfl

theorem transferInit_result_of_not_mem {k : Nat}
    (hk : k < e.descIdx ∨ e.descIdx + transferDescMax e req ≤ k)
    : (transferInit e req).1.cyclicResult k = e.cyclicResult k := by
  have hlen := length_transferSdesc e req
  have hgo := transferBuild.go_result_of_not_mem (initEngine e req) (initXfer e)
    (transferSdesc e req) 0 ⟨initDesc e req, e.cyclicResult, req.epAddr, 0⟩ (k := k)
  simp only [initXfer] at hgo
  exact hgo (by omega)

variable (hidx : e.descIdx < 2048) (hreq : req.swDescIdx < req.swDescCnt)

include hidx hreq

theorem transferInit_desc_of_not_mem {k : Nat}
    (hk : k < e.descIdx ∨ e.descIdx + transferDescMax e req ≤ k)
    : (transferInit e req).1.desc k = e.desc k := by
  have hpos := transferDescMax_pos e req hidx hreq
  have hlen := length_transferSdesc e req
  rw [transferInit_desc, transferControl_of_not_mem _ _ _ _ hpos hk,
    transferBuild.go_desc_of_not_mem]
  . exact transferDescInit_of_not_mem _ _ _ hpos hk
  . simp only [initXfer]
    omega

omit hreq

theorem transferBuild_chain {i : Nat} (hi : i < transferDescMax e req)
    : let next := chainNext (initXfer e).descBus (transferDescMax e req) i
      let d := (transferBuild.go (initEngine e req) (initXfer e) 0
        ⟨initDesc e req, e.cyclicResult, req.epAddr, 0⟩ (transferSdesc e req)).desc (e.descIdx + i)
      d.nextLo = pciDmaL next ∧ d.nextHi = pciDmaH next ∧ d.control = descMagic := by
  have hring := transferDescMax_ring e req hidx
  have hgo := transferBuild.go_chain (initEngine e req) (initXfer e) (transferSdesc e req) 0
    ⟨initDesc e req, e.cyclicResult, req.epAddr, 0⟩ (e.descIdx + i)
  dsimp only at hgo ⊢
  rw [hgo.1, hgo.2.1, hgo.2.2]
  unfold initDesc
  rw [transferDescInit_of_mem _ _ _ (by omega) hi]
  exact ⟨rfl, rfl, rfl⟩

theorem transferInit_desc_of_mem {i : Nat} (hi : i < transferDescMax e req)
    : let d := (transferBuild.go (initEngine e req) (initXfer e) 0
        ⟨initDesc e req, e.cyclicResult, req.epAddr, 0⟩ (transferSdesc e req)).desc (e.descIdx + i)
      (transferInit e req).1.desc (e.descIdx + i)
        =
      { d with
          control := controlWord (controlByte e.eopFlush (transferDescMax e req) i)
            (xdmaGetNextAdj (transferDescMax e req - i - 1) d.nextLo)
      } := by
  dsimp only
  rw [transferInit_desc, transferControl_of_mem _ _ _ _ _ hi]
  intro j hj
  exact (transferBuild_chain e req hidx hj).2.2

theorem transferInit_chain {i : Nat} (hi : i < transferDescMax e req)
    : let n := transferDescMax e req
      let d := (transferInit e req).1.desc (e.descIdx + i)
      let next := chainNext (initXfer e).descBus n i
      d.next = next
        ∧ d.control = controlWord (controlByte e.eopFlush n i)
            (xdmaGetNextAdj (n - i - 1) (pciDmaL next)) := by
  rcases transferBuild_chain e req hidx hi with ⟨hlo, hhi, _⟩
  dsimp only
  rw [transferInit_desc_of_mem e req hidx hi]
  unfold XdmaDesc.next
  dsimp only
  rw [hlo, hhi]
  exact ⟨pciDmaH_append_pciDmaL _, rfl⟩

/--
What does not depend on the control word is, over the descriptors of a new transfer, what
`transfer_build()` left there.
-/
theorem map_transferInit {α : Type*} {f : XdmaDesc → α}
    (hf : ∀ d control, f { d with control := control } = f d)
    : (List.range (transferDescMax e req)).map
        (fun i => f ((transferInit e req).1.desc (e.descIdx + i)))
        =
      (List.range (transferSdesc e req).length).map (fun i =>
        f ((transferBuild.go (initEngine e req) (initXfer e) 0
          ⟨initDesc e req, e.cyclicResult, req.epAddr, 0⟩
          (transferSdesc e req)).desc (e.descIdx + i))) := by
  rw [length_transferSdesc]
  apply List.map_congr_left
  intro i hi
  rw [List.mem_range] at hi
  rw [transferInit_desc_of_mem e req hidx hi]
  exact hf _ _

theorem transferInit_moves (hst : e.streamC2h = false) (hlen : ∀ sd ∈ req.sdesc, sd.len < 2 ^ 32)
    : (List.range (transferDescMax e req)).map
        (fun i => ((transferInit e req).1.desc (e.descIdx + i)).move e.dir)
        =
      swMoves e.nonIncrAddr req.epAddr (transferSdesc e req) := by
  have hmem := transferSdesc_len e req hlen
  rw [map_transferInit e req hidx (f := fun d => d.move e.dir) (fun _ _ => rfl)]
  exact transferBuild.go_move (initEngine e req) (initXfer e) hst _ hmem 0
    ⟨initDesc e req, e.cyclicResult, req.epAddr, 0⟩

theorem transferInit_hosts (hlen : ∀ sd ∈ req.sdesc, sd.len < 2 ^ 32)
    : (List.range (transferDescMax e req)).map
        (fun i => (((transferInit e req).1.desc (e.descIdx + i)).move e.dir).hostSegment)
        =
      (transferSdesc e req).map SwDesc.segment := by
  have hmem := transferSdesc_len e req hlen
  rw [map_transferInit e req hidx (f := fun d => (d.move e.dir).hostSegment) (fun _ _ => rfl)]
  exact transferBuild.go_host (initEngine e req) (initXfer e) rfl _ hmem 0
    ⟨initDesc e req, e.cyclicResult, req.epAddr, 0⟩

end TransferInit

/-- The software descriptors that no transfer of the request took yet. -/
def XdmaRequestCb.rest (req : XdmaRequestCb) : List SwDesc := req.sdesc.drop req.swDescIdx

theorem XdmaRequestCb.rest_transferInit (e : XdmaEngine) (req : XdmaRequestCb)
    : req.rest = transferSdesc e req ++ (transferInit e req).2.1.rest := by
  rw [transferInit_req]
  simp only [XdmaRequestCb.rest, transferSdesc]
  rw [← List.drop_drop, List.take_append_drop]

theorem XdmaRequestCb.length_rest_transferInit (e : XdmaEngine) (req : XdmaRequestCb)
    : (transferInit e req).2.1.rest.length = req.rest.length - transferDescMax e req := by
  have hlength := congrArg List.length (XdmaRequestCb.rest_transferInit e req)
  rw [List.length_append, length_transferSdesc] at hlength
  omega

end Xdma
