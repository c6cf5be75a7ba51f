import ReferenceProjects.Xdma.Impl.Queue
import ReferenceProjects.Xdma.Lemmas.Engine
import ReferenceProjects.Xdma.Lemmas.Transfer

/-!
This module contains the walk of the hardware over a descriptor chain, and that the walk it is
started on by `transfer_init()` and `engine_start()` visits every descriptor of the transfer once.
-/

namespace Xdma

/-- The slot of the descriptor ring at a bus address. -/
def ringSlot (e : XdmaEngine) (addr : BitVec 64) : Option Nat :=
  let offset := (addr - e.descBus).toNat
  if offset % 32 = 0 ∧ offset / 32 < xdmaTransferMaxDesc then
    some (offset / 32)
  else
    none

/-- The bus address of a slot of the descriptor ring. -/
def slotAddr (e : XdmaEngine) (k : Nat) : BitVec 64 := e.descBus + BitVec.ofNat 64 (32 * k)

/--
The fetches of the hardware: a block of `1 + adjacent` contiguous descriptors at `addr`, then what
the last descriptor of the block points to, until that is one with the stop bit. The result are the
ring slots of each block; `none` when the walk leaves the ring or has not stopped after `fuel`
blocks.
-/
def fetchWalk (e : XdmaEngine) : Nat → BitVec 64 → Nat → Option (List (List Nat))
  | 0, _, _ => none
  | fuel + 1, addr, adjacent =>
    match ringSlot e addr with
    | none => none
    | some k =>
      if k + adjacent < xdmaTransferMaxDesc then
        let block := List.range' k (adjacent + 1)
        let last := e.desc (k + adjacent)
        if last.control &&& xdmaDescStopped ≠ 0 then
          some [block]
        else
          (fetchWalk e fuel last.next last.nextAdjacent).map (fun blocks => block :: blocks)
      else
        none

/--
A chain of `n` descriptors from slot `base` on, as `transfer_init()` leaves it.
-/
structure Chained (e : XdmaEngine) (base n : Nat) : Prop where
  ring : base + n ≤ 2048
  next : ∀ i < n, (e.desc (base + i)).next = chainNext (slotAddr e base) n i
  control : ∀ i < n,
    (e.desc (base + i)).control
      =
    controlWord (controlByte e.eopFlush n i)
      (xdmaGetNextAdj (n - i - 1) (pciDmaL (chainNext (slotAddr e base) n i)))

theorem transferInit_chained (e : XdmaEngine) (req : XdmaRequestCb) (hidx : e.descIdx < 2048)
    : Chained (transferInit e req).1 e.descIdx (transferDescMax e req) where
  ring := transferDescMax_ring e req hidx
  next := fun _ hi => (transferInit_chain e req hidx hi).1
  control := fun _ hi => (transferInit_chain e req hidx hi).2

theorem slotAddr_add (e : XdmaEngine) (base i : Nat)
    : slotAddr e base + BitVec.ofNat 64 (32 * i) = slotAddr e (base + i) := by
  simp only [slotAddr, Nat.mul_add, BitVec.ofNat_add, BitVec.add_assoc]

theorem ringSlot_slotAddr (e : XdmaEngine) {k : Nat} (hk : k < 2048)
    : ringSlot e (slotAddr e k) = some k := by
  have hoff : (slotAddr e k - e.descBus).toNat = 32 * k := by
    unfold slotAddr
    rw [add_sub_cancel_left, BitVec.toNat_ofNat]
    omega
  have hmod : 32 * k % 32 = 0 ∧ 32 * k / 32 < xdmaTransferMaxDesc := by
    simp only [xdmaTransferMaxDesc]
    omega
  have hdiv : 32 * k / 32 = k := by omega
  simp only [ringSlot, hoff]
  rw [if_pos hmod, hdiv]

theorem controlWord_stopped (eopFlush : Bool) (n i : Nat) {a : Nat} (ha : a < 64)
    : controlWord (controlByte eopFlush n i) a &&& xdmaDescStopped ≠ 0 ↔ i + 1 = n := by
  have hbit : ∀ c ∈ lowBytes, ∀ a : Fin 64,
      controlWord c a &&& xdmaDescStopped = c &&& xdmaDescStopped := by
    apply lowBytes_forall <;> decide +kernel
  rw [hbit _ (controlByte_mem eopFlush n i) ⟨a, ha⟩]
  unfold controlByte
  split
  . next h => simp only [h, iff_true]; decide
  . next h =>
    simp only [h, iff_false, ne_eq, not_not]
    split <;> decide

namespace Chained

variable {e : XdmaEngine} {base n : Nat} (h : Chained e base n)

include h

theorem stopped {i : Nat} (hi : i < n)
    : (e.desc (base + i)).control &&& xdmaDescStopped ≠ 0 ↔ i + 1 = n := by
  rw [h.control i hi]
  exact controlWord_stopped _ _ _ (xdmaGetNextAdj_lt _ _)

theorem next_eq {i : Nat} (hi : i + 1 < n)
    : (e.desc (base + i)).next = slotAddr e (base + (i + 1)) := by
  rw [h.next i (by omega), chainNext, if_neg (by omega), slotAddr_add]

theorem nextAdjacent_eq {i : Nat} (hi : i + 1 < n)
    : (e.desc (base + i)).nextAdjacent
        =
      xdmaGetNextAdj (n - (i + 1)) (pciDmaL (slotAddr e (base + (i + 1)))) := by
  rw [XdmaDesc.nextAdjacent_controlWord (h.control i (by omega)) (controlByte_mem _ _ _)
    (xdmaGetNextAdj_lt _ _), chainNext, if_neg (by omega), slotAddr_add, Nat.sub_sub]

/--
Started at descriptor `i` with the adjacent number of that place, the walk visits the descriptors
from `i` on, each block inside a 64-descriptor block of the bus.
-/
theorem walk (i fuel : Nat) (hi : i < n) (hfuel : n - i ≤ fuel)
    : ∃ blocks,
        fetchWalk e fuel (slotAddr e (base + i))
          (xdmaGetNextAdj (n - i) (pciDmaL (slotAddr e (base + i)))) = some blocks
          ∧ blocks.flatten = List.range' (base + i) (n - i)
          ∧ ∀ block ∈ blocks, ∃ k a, block = List.range' k (a + 1)
              ∧ (slotAddr e k).toNat / 32 % 64 + a < 64 := by
  induction fuel generalizing i with
  | zero => omega
  | succ fuel ih =>
    have hring := h.ring
    have hle := xdmaGetNextAdj_le (n - i) (pciDmaL (slotAddr e (base + i)))
    have hblock := xdmaGetNextAdj_block (n - i) (slotAddr e (base + i))
    generalize xdmaGetNextAdj (n - i) (pciDmaL (slotAddr e (base + i))) = a at hle hblock ⊢
    have hroom : base + i + a < xdmaTransferMaxDesc := by
      simp only [xdmaTransferMaxDesc]
      omega
    simp only [fetchWalk, ringSlot_slotAddr e (show base + i < 2048 by omega)]
    rw [if_pos hroom, Nat.add_assoc]
    have hlast := h.stopped (show i + a < n by omega)
    by_cases hend : i + a + 1 = n
    . -- the block ends with the last descriptor
      have hlen : n - i = a + 1 := by omega
      rw [if_pos (hlast.mpr hend)]
      refine ⟨_, rfl, ?_, ?_⟩
      . simp [hlen]
      . intro block hmem
        rw [List.mem_singleton] at hmem
        exact ⟨base + i, a, hmem, hblock⟩
    . rw [if_neg (fun hs => hend (hlast.mp hs)), h.next_eq (by omega), h.nextAdjacent_eq (by omega)]
      rcases ih (i + a + 1) (by omega) (by omega) with ⟨blocks, hwalk, hflat, hblocks⟩
      refine ⟨List.range' (base + i) (a + 1) :: blocks, ?_, ?_, ?_⟩
      . rw [hwalk]
        rfl
      . have hlen : n - i = (a + 1) + (n - (i + a + 1)) := by omega
        have hstart : base + (i + a + 1) = base + i + 1 * (a + 1) := by omega
        rw [List.flatten_cons, hflat, hlen, hstart, List.range'_append]
      . intro block hmem
        rw [List.mem_cons] at hmem
        cases hmem with
        | inl heq => exact ⟨base + i, a, heq, hblock⟩
        | inr hin => exact hblocks block hin

end Chained

theorem Chained.congr {e e' : XdmaEngine} {base n : Nat} (h : Chained e base n)
    (hdesc : e'.desc = e.desc) (hbus : e'.descBus = e.descBus) (heop : e'.eopFlush = e.eopFlush)
    : Chained e' base n := by
  have haddr : slotAddr e' base = slotAddr e base := by simp only [slotAddr, hbus]
  constructor
  . exact h.ring
  . rw [hdesc, haddr]
    exact h.next
  . rw [hdesc, haddr, heop]
    exact h.control

theorem slotAddr_block (e : XdmaEngine) (halign : e.descBus.toNat % 32 = 0) {k a i : Nat}
    (hblock : (slotAddr e k).toNat / 32 % 64 + a < 64) (hi : i ≤ a)
    : (slotAddr e (k + i)).toNat / 2048 = (slotAddr e k).toNat / 2048 := by
  have hmod : (slotAddr e k).toNat % 32 = 0 := by
    unfold slotAddr
    rw [BitVec.toNat_add, BitVec.toNat_ofNat]
    omega
  rw [← slotAddr_add, BitVec.toNat_add, BitVec.toNat_ofNat]
  have := (slotAddr e k).isLt
  omega

/--
From the start registers of the engine the hardware fetches the `n` descriptors from slot `base` on in
order, each once, no block crosses a 64-descriptor boundary of the bus, and the control words are
well formed.
-/
structure FetchesTransfer (e : XdmaEngine) (base n : Nat) : Prop where
  fetches : ∃ blocks,
    fetchWalk e n (e.regs.firstDescHi ++ e.regs.firstDescLo) e.regs.firstDescAdjacent = some blocks
      ∧ blocks.flatten = List.range' base n
      ∧ ∀ block ∈ blocks, ∀ k ∈ block, ∀ k' ∈ block,
          (slotAddr e k).toNat / 2048 = (slotAddr e k').toNat / 2048
  control : ∀ i < n,
    let d := e.desc (base + i)
    d.magic = 0xAD4B
      ∧ d.nextAdjacent < 64
      ∧ d.lowByte = if i + 1 = n then 0x13 else if e.eopFlush then 0x02 else 0x00

/--
After `transfer_init()` of a transfer and `engine_start()` with it at the head of the queue, the
hardware fetches the descriptors of the transfer in order, each once, and stops. The ring needs no
other alignment than that of a descriptor.
-/
theorem fetchWalk_transferInit (p : ModuleParam) (s : Driver) (r : Nat) (t : XferPtr)
    (rest : List XferPtr) (hw : HwRegs) (hidle : s.engine.running = false)
    (hbus : s.engine.descBus.toNat % 32 = 0) (hidx : s.engine.descIdx < 2048)
    (hreq : (s.req r).swDescIdx < (s.req r).swDescCnt)
    : ∃ s',
        engineStart p { s.transferInit r t with engine.transferList := t :: rest } hw = some s'
          ∧ 0 < ((s.transferInit r t).xfer t).descNum
          ∧ s'.engine.eopFlush = s.engine.eopFlush
          ∧ FetchesTransfer s'.engine s.engine.descIdx ((s.transferInit r t).xfer t).descNum := by
  have hxfer : (s.transferInit r t).xfer t = (transferInit s.engine (s.req r)).2.2 := by
    simp [Driver.transferInit]
  have hnum : ((s.transferInit r t).xfer t).descNum = transferDescMax s.engine (s.req r) := by
    rw [hxfer, transferInit_xfer]
  have hdescBus : ((s.transferInit r t).xfer t).descBus = slotAddr s.engine s.engine.descIdx := by
    rw [hxfer, transferInit_xfer]
    rfl
  have hadj : ((s.transferInit r t).xfer t).descAdjacent
      = transferDescMax s.engine (s.req r) := by
    rw [hxfer, transferInit_xfer]
  cases hstart : engineStart p { s.transferInit r t with engine.transferList := t :: rest } hw with
  | none =>
    rw [engineStart_none_iff] at hstart
    cases hstart with
    | inl hrun =>
      have : (s.transferInit r t).engine.running = s.engine.running := rfl
      simp [this, hidle] at hrun
    | inr hnil => contradiction
  | some s' =>
    rcases engineStart_regs (show _ = t :: rest from rfl) hstart with ⟨hlo, hhi, hfirst⟩
    rcases engineStart_eq hstart with ⟨_, _, _, _, hs'⟩
    have hchain : Chained s'.engine s.engine.descIdx (transferDescMax s.engine (s.req r)) := by
      apply (transferInit_chained s.engine (s.req r) hidx).congr
      all_goals rw [hs']; rfl
    have hbus' : s'.engine.descBus = s.engine.descBus := by rw [hs']; rfl
    have heop : s'.engine.eopFlush = s.engine.eopFlush := by rw [hs']; rfl
    have haddr : slotAddr s'.engine = slotAddr s.engine := by
      funext k
      simp only [slotAddr, hbus']
    have hpos := transferDescMax_pos s.engine (s.req r) hidx hreq
    dsimp only at hlo hhi hfirst
    rw [hdescBus] at hlo hhi hfirst
    rw [hadj] at hfirst
    rw [hnum]
    refine ⟨s', rfl, hpos, heop, ?_, ?_⟩
    . rw [hlo, hhi, hfirst, pciDmaH_append_pciDmaL]
      have hwalk := hchain.walk 0 (transferDescMax s.engine (s.req r)) hpos (Nat.le_refl _)
      rw [haddr, Nat.add_zero, Nat.sub_zero] at hwalk
      rcases hwalk with ⟨blocks, hfetch, hflat, hblocks⟩
      refine ⟨blocks, hfetch, hflat, ?_⟩
      intro block hmem k hk k' hk'
      rcases hblocks block hmem with ⟨start, a, rfl, hblock⟩
      rw [List.mem_range'_1] at hk hk'
      have hstart : ∀ j, start ≤ j → j < start + (a + 1) →
          (slotAddr s'.engine j).toNat / 2048 = (slotAddr s'.engine start).toNat / 2048 := by
        intro j hle hlt
        have := slotAddr_block s'.engine (hbus' ▸ hbus) (i := j - start) (haddr ▸ hblock) (by omega)
        rwa [Nat.add_sub_cancel' hle] at this
      rw [hstart k hk.1 hk.2, hstart k' hk'.1 hk'.2]
    . intro i hi
      have hcontrol := hchain.control i hi
      have hbyte := controlByte_mem s'.engine.eopFlush (transferDescMax s.engine (s.req r)) i
      have hlt := xdmaGetNextAdj_lt (transferDescMax s.engine (s.req r) - i - 1)
        (pciDmaL (chainNext (slotAddr s'.engine s.engine.descIdx)
          (transferDescMax s.engine (s.req r)) i))
      refine ⟨?_, ?_, ?_⟩
      . exact XdmaDesc.magic_controlWord hcontrol hbyte hlt
      . rw [XdmaDesc.nextAdjacent_controlWord hcontrol hbyte hlt]
        exact hlt
      . rw [XdmaDesc.lowByte_controlWord hcontrol hbyte hlt, controlByte]

/-- A request whose first transfer ends at the end of a ring that is not page-aligned. -/
theorem fetchWalk_transferInit_end_of_ring
    : let req : XdmaRequestCb := ⟨0x1000, 0, [⟨0x100, 64⟩, ⟨0x200, 64⟩, ⟨0x300, 64⟩]⟩
      let e := { XdmaEngine.init .toDevice false 0xfe0 0 with descIdx := 2046 }
      let s := { Driver.init e with req := fun _ => req }
      ∃ s',
        engineStart ⟨false, true, 0x0fffffff⟩
            { s.transferInit 0 (.tfer 0 0) with engine.transferList := [.tfer 0 0] } ⟨0, 0, 0, 0⟩
          = some s'
          ∧ FetchesTransfer s'.engine 2046 2 := by
  have hnum : transferDescMax { XdmaEngine.init .toDevice false 0xfe0 0 with descIdx := 2046 }
      ⟨0x1000, 0, [⟨0x100, 64⟩, ⟨0x200, 64⟩, ⟨0x300, 64⟩]⟩ = 2 := by decide
  rcases fetchWalk_transferInit ⟨false, true, 0x0fffffff⟩
    { Driver.init { XdmaEngine.init .toDevice false 0xfe0 0 with descIdx := 2046 } with
      req := fun _ => ⟨0x1000, 0, [⟨0x100, 64⟩, ⟨0x200, 64⟩, ⟨0x300, 64⟩]⟩ }
    0 (.tfer 0 0) [] ⟨0, 0, 0, 0⟩ rfl (by decide) (by decide) (by decide)
    with ⟨s', hs', _, _, hfetch⟩
  exact ⟨s', hs', hfetch⟩

end Xdma
