import ReferenceProjects.Xdma.Impl.Machine
import ReferenceProjects.Xdma.Lemmas.Buffer
import ReferenceProjects.Xdma.Lemmas.Hardware

/-!
This module contains that the files of a device are a memory: what a process writes to the card is what
it reads back, whatever happens to the calls in between.
-/

namespace Xdma

open Copy

/-- The direction in which a call moves data. -/
def SgdmaCall.dir (c : SgdmaCall) : DmaDataDirection := if c.write then .toDevice else .fromDevice

/-- The bytes of the buffer are bytes of the host of their own. -/
def SgdmaCall.Distinct (c : SgdmaCall) : Prop :=
  ∀ i < c.count.toNat, ∀ j < c.count.toNat,
    c.busAddr (c.buf.toNat + i) = c.busAddr (c.buf.toNat + j) → i = j

/-- What a memory is after the first `moved` bytes of a buffer were written to the card. -/
structure CardWritten (c : SgdmaCall) (mem mem' : Memories) (moved : Nat) : Prop where
  host : mem'.host = mem.host
  bytes : ∀ k < moved,
    mem'.card (c.pos + (k : BitVec 64)) = mem.host (c.busAddr (c.buf.toNat + k))
  kept : ∀ a, (∀ k < moved, c.pos + (k : BitVec 64) ≠ a) → mem'.card a = mem.card a

/-- What a memory is after the first `moved` bytes of a buffer were read from the card. -/
structure HostWritten (c : SgdmaCall) (mem mem' : Memories) (moved : Nat) : Prop where
  card : mem'.card = mem.card
  bytes : c.Distinct → ∀ k < moved,
    mem'.host (c.busAddr (c.buf.toNat + k)) = mem.card (c.pos + (k : BitVec 64))
  kept : ∀ a, (∀ k < moved, c.busAddr (c.buf.toNat + k) ≠ a) → mem'.host a = mem.host a

def SgdmaCall.Effect (c : SgdmaCall) (mem mem' : Memories) (moved : Nat) : Prop :=
  if c.write then CardWritten c mem mem' moved else HostWritten c mem mem' moved

section Effect

variable (c : SgdmaCall) (mem : Memories)

theorem pairs_take {moved : Nat} (hle : moved ≤ c.count.toNat)
    : c.pairs.take moved = (List.range moved).map
        (fun (k : Nat) => (c.busAddr (c.buf.toNat + k), c.pos + (k : BitVec 64))) := by
  unfold SgdmaCall.pairs Copy.cells
  rw [List.range'_eq_map_range, List.map_map, List.zip_map', ← List.map_take, List.take_range,
    Nat.min_eq_left hle]
  rfl

/-- The bytes of the card that a call touches are distinct. -/
theorem card_distinct {i j : Nat} (hi : i < c.count.toNat) (hj : j < c.count.toNat)
    (h : c.pos + (i : BitVec 64) = c.pos + (j : BitVec 64))
    : i = j := by
  have hword := congrArg BitVec.toNat (add_left_cancel h)
  have hlimit := c.limit
  rw [BitVec.natCast_eq_ofNat, BitVec.natCast_eq_ofNat, BitVec.toNat_ofNat, BitVec.toNat_ofNat]
    at hword
  omega

theorem effect_dma {moved : Nat} (hle : moved ≤ c.count.toNat)
    : c.Effect mem (mem.dma c.dir (c.dir.orient (c.pairs.take moved))) moved := by
  rw [pairs_take c hle]
  unfold SgdmaCall.Effect SgdmaCall.dir
  cases c.write with
  | true =>
    rw [if_pos rfl, if_pos rfl, orient_toDevice]
    refine ⟨rfl, ?_, ?_⟩
    . intro k hk
      apply store_of_mem
      . rw [List.map_map]
        apply List.Nodup.map_on _ List.nodup_range
        intro i hi j hj heq
        rw [List.mem_range] at hi hj
        exact card_distinct c (by omega) (by omega) heq
      . exact List.mem_map_of_mem (List.mem_range.mpr hk)
    . intro a ha
      apply store_of_not_mem
      rw [List.map_map, List.mem_map]
      rintro ⟨k, hk, heq⟩
      exact ha k (List.mem_range.mp hk) heq
  | false =>
    rw [if_neg Bool.false_ne_true, if_neg Bool.false_ne_true, orient_fromDevice, List.map_map]
    refine ⟨rfl, ?_, ?_⟩
    . intro hdistinct k hk
      apply store_of_mem
      . rw [List.map_map]
        apply List.Nodup.map_on _ List.nodup_range
        intro i hi j hj heq
        rw [List.mem_range] at hi hj
        exact hdistinct i (by omega) j (by omega) heq
      . exact List.mem_map_of_mem (List.mem_range.mpr hk)
    . intro a ha
      apply store_of_not_mem
      rw [List.map_map, List.mem_map]
      rintro ⟨k, hk, heq⟩
      exact ha k (List.mem_range.mp hk) heq

end Effect

/-- Every file belongs to an idle, memory-mapped engine of its direction in incremental mode. -/
structure Machine.Ready (m : Machine) : Prop where
  quiet : ∀ dir, (m.file dir).drv.Quiet
  dir : ∀ dir, (m.file dir).drv.engine.dir = dir
  incr : ∀ dir, (m.file dir).drv.engine.nonIncrAddr = false

/-- The call gets as far as the mapping of its buffer. -/
def SgdmaCall.Checked (c : SgdmaCall) (m : Machine) : Prop :=
  (m.file c.file).engine.dirOk c.write = true
    ∧ checkTransferAlign (m.file c.file).engine c.buf.toNat c.count.toNat c.pos.toNat true = .ok ()

/-- Nothing goes wrong: the buffer is mapped, the request fits, and every turn of the engine is prompt. -/
structure SgdmaCall.Smooth (p : ModuleParam) (c : SgdmaCall) (m : Machine) : Prop where
  checked : c.Checked m
  pinned : ((XdmaIoCb.ofBuf c.buf c.count).charSgdmaMapUserBufToSgl c.kernel).rv = 0
  alloc : c.alloc = fun _ => true
  mapped : c.pciMapSg ((XdmaIoCb.ofBuf c.buf c.count).charSgdmaMapUserBufToSgl c.kernel).cb.sgl ≠ []
  fits : sgEntries p.descBlenMax
    (c.pciMapSg ((XdmaIoCb.ofBuf c.buf c.count).charSgdmaMapUserBufToSgl c.kernel).cb.sgl) < 2 ^ 31
  prompt : ∀ k, (c.turn k).Prompt

/--
What a call comes to, however it ends: the machine is ready for the next one, the first `moved` bytes of
the buffer are moved and nothing else is changed, and it returns no more than that, or all of it if
nothing goes wrong.
-/
structure CallDone (p : ModuleParam) (c : SgdmaCall) (m : Machine) (res : SgdmaReturn) (moved : Nat)
    : Prop where
  ready : res.machine.Ready
  le : moved ≤ c.count.toNat
  effect : c.Effect m.mem res.machine.mem moved
  rv : res.rv ≤ moved
  smooth : c.Smooth p m → res.rv = c.count.toNat

section Call

variable (p : ModuleParam) (hb : 1 ≤ p.descBlenMax) (hb' : p.descBlenMax ≤ xdmaDescBlenMax)

theorem Errno.rv_neg (err : Errno)
    : err.rv < 0 := by
  cases err <;> decide

theorem Machine.Ready.setDriver {m : Machine} (h : m.Ready) {dir : DmaDataDirection} {drv : Driver}
    (hquiet : drv.Quiet) (hconfig : drv.engine.config = (m.file dir).drv.engine.config) (mem : Memories)
    : Machine.Ready { m.setDriver dir drv with mem := mem } := by
  simp only [XdmaEngine.config, Prod.mk.injEq] at hconfig
  have hfile (d : DmaDataDirection)
      : ({ m.setDriver dir drv with mem := mem } : Machine).file d
        = if d = dir then { m.file dir with drv := drv } else m.file d := by
    unfold Machine.setDriver
    dsimp only
    rw [Function.update_apply]
  constructor <;> intro d <;> rw [hfile] <;> split
  . exact hquiet
  . exact h.quiet d
  . next heq =>
    dsimp only
    rw [hconfig.1, heq]
    exact h.dir dir
  . exact h.dir d
  . dsimp only
    rw [hconfig.2.2]
    exact h.incr dir
  . exact h.incr d

/-- A call that fails before it reaches the engine. -/
theorem CallDone.refused {c : SgdmaCall} {m : Machine} (h : m.Ready) {rv : Int} (hrv : rv < 0)
    (calls : List MapCall) (hsmooth : ¬ c.Smooth p m)
    : CallDone p c m ⟨rv, calls, m⟩ 0 := by
  refine ⟨h, Nat.zero_le _, ?_, by dsimp only; omega, fun h => absurd h hsmooth⟩
  have heffect := effect_dma c m.mem (Nat.zero_le _)
  rw [List.take_zero] at heffect
  have hnil : c.dir.orient [] = [] := List.eq_nil_of_length_eq_zero (by simp)
  rwa [hnil, Memories.dma_nil] at heffect

variable (c : SgdmaCall)

theorem sgCells_eq (sgl : List Scatterlist)
    : sgCells sgl = (sgl.map Scatterlist.segment).flatMap Segment.cells := by
  rw [List.flatMap_map]
  rfl

/-- What `pci_map_sg()` makes of a mapped buffer: nothing, or the bytes of the buffer. -/
theorem pciMapSg_pairs {r : MapResult}
    (hcells : r.cb.sgl.flatMap (SgPage.cells c.bus)
      = (List.range' c.buf.toNat c.count.toNat).map c.busAddr)
    : c.pciMapSg r.cb.sgl = []
      ∨ sgTotal (c.pciMapSg r.cb.sgl) = c.count.toNat
        ∧ sgPairs c.pos (c.pciMapSg r.cb.sgl) = c.pairs := by
  apply (c.maps r.cb.sgl).imp_right
  intro hmaps
  rw [hcells, sgCells_eq] at hmaps
  have htotal : sgTotal (c.pciMapSg r.cb.sgl) = c.count.toNat := by
    have hlength := congrArg List.length hmaps
    rwa [length_flatMap_cells, List.length_map, List.length_range'] at hlength
  refine ⟨htotal, ?_⟩
  unfold sgPairs SgdmaCall.pairs
  rw [hmaps, htotal]

/--
The calls for the pages of one `read()` or `write()` are balanced, but for the array of pages where no page
could be pinned.
-/
structure CallsBalanced (c : SgdmaCall) (m : Machine) (res : SgdmaReturn) : Prop where
  sound : Ledger.Sound res.calls
  leaked : c.Checked m ∧ c.Unpinned → Ledger.held res.calls = [.pages] ∧ res.rv < 0
  released : ¬ (c.Checked m ∧ c.Unpinned) → Ledger.held res.calls = []

theorem charSgdmaReadWriteDma_balanced {m : Machine} {res : SgdmaReturn}
    (hres : charSgdmaReadWriteDma p c m = some res)
    : CallsBalanced c m res := by
  have hnone (rv : Int) (hchecked : ¬ c.Checked m) : CallsBalanced c m ⟨rv, [], m⟩ :=
    ⟨trivial, fun h => absurd h.1 hchecked, fun _ => rfl⟩
  unfold charSgdmaReadWriteDma at hres
  dsimp only at hres
  split at hres
  . next hdir =>
    cases hres
    apply hnone
    intro h
    rw [h.1] at hdir
    contradiction
  . next hdir =>
    split at hres
    . next hcheck =>
      cases hres
      apply hnone
      intro h
      rw [h.2] at hcheck
      contradiction
    . next hcheck =>
      have hchecked : c.Checked m := ⟨by simpa using hdir, hcheck⟩
      have hcase := charSgdmaMapUserBufToSgl_case c
      generalize (XdmaIoCb.ofBuf c.buf c.count).charSgdmaMapUserBufToSgl c.kernel = r at *
      cases hcase with
      | failed hrv hsound hheld =>
        rw [if_pos hrv] at hres
        cases hres
        refine ⟨hsound, fun h => ⟨hheld.trans (if_pos h.2), hrv⟩, ?_⟩
        intro h
        exact hheld.trans (if_neg (fun hu => h ⟨hchecked, hu⟩))
      | mapped hrv hpinned _ hsound hheld =>
        rw [if_neg (by omega)] at hres
        split at hres
        . contradiction
        . cases hres
          exact ⟨hsound, fun h => absurd h.2 hpinned, fun _ => hheld⟩

include hb hb'

theorem charSgdmaReadWriteDma_done {m : Machine} (h : m.Ready)
    : ∃ res moved, charSgdmaReadWriteDma p c m = some res ∧ CallDone p c m res moved := by
  unfold charSgdmaReadWriteDma
  dsimp only
  split
  . next hdir =>
    refine ⟨_, 0, rfl, .refused p h (Errno.rv_neg _) _ ?_⟩
    intro hs
    rw [hs.checked.1] at hdir
    contradiction
  . next hdir =>
    have hfile : c.file = c.dir := by
      have hok : (m.file c.file).drv.engine.dir = c.dir := by
        simpa [CharEngine.dirOk, SgdmaFile.engine, SgdmaCall.dir] using hdir
      rw [← hok, h.dir]
    split
    . next err hcheck =>
      refine ⟨_, 0, rfl, .refused p h (Errno.rv_neg _) _ ?_⟩
      intro hs
      rw [hs.checked.2] at hcheck
      contradiction
    . have hcase := charSgdmaMapUserBufToSgl_case c
      have hpinned := fun hs : c.Smooth p m => hs.pinned
      have hmapped := fun hs : c.Smooth p m => And.intro hs.mapped hs.fits
      generalize (XdmaIoCb.ofBuf c.buf c.count).charSgdmaMapUserBufToSgl c.kernel = r at *
      cases hcase with
      | failed hrv _ _ =>
        rw [if_pos hrv]
        refine ⟨_, 0, rfl, .refused p h hrv _ ?_⟩
        intro hs
        rw [hpinned hs] at hrv
        contradiction
      | mapped hrv _ hcells _ _ =>
        rw [if_neg (by omega)]
        have hpairs := pciMapSg_pairs c hcells
        have hlimit := c.limit
        have hsum : sgTotal (c.pciMapSg r.cb.sgl) ≤ c.count.toNat := by
          cases hpairs with
          | inl hnil => rw [hnil]; exact Nat.zero_le _
          | inr hall => exact Nat.le_of_eq hall.1
        have hdirection : (m.file c.file).drv.engine.dir = c.dir := (h.dir _).trans hfile
        have htake : ∀ moved ≤ sgTotal (c.pciMapSg r.cb.sgl),
            (sgPairs c.pos (c.pciMapSg r.cb.sgl)).take moved = c.pairs.take moved := by
          intro moved hmoved
          cases hpairs with
          | inl hnil =>
            rw [hnil] at hmoved ⊢
            have hzero : moved = 0 := Nat.le_zero.mp hmoved
            rw [hzero, List.take_zero, List.take_zero]
          | inr hall => rw [hall.2]
        rcases xdmaXferSubmitDma_spec p hb hb' (h.quiet c.file) (h.incr c.file) c.alloc c.req c.write
          c.pos (by omega : sgTotal (c.pciMapSg r.cb.sgl) < 2 ^ 31) false c.turn m.mem with
          ⟨ret, s', moved, hdone, heq⟩
        have hprompt := fun hs : c.Smooth p m =>
          xdmaXferSubmitDma_prompt p hb hb' (h.quiet c.file) (h.incr c.file) c.req c.write c.pos
            (by omega : sgTotal (c.pciMapSg r.cb.sgl) < 2 ^ 31) false c.turn m.mem hdirection
            (hmapped hs).1 (hmapped hs).2 hs.prompt
        have hle := hdone.le
        rw [heq, hdirection, htake moved hle]
        refine ⟨_, moved, rfl, h.setDriver hdone.quiet hdone.config _, by omega,
          effect_dma c m.mem (by omega), ?_, ?_⟩
        . dsimp only
          split
          . next n => exact Int.ofNat_le.mpr (hdone.ret n rfl)
          . next err =>
            have := err.rv_neg
            omega
        . intro hs
          obtain ⟨s'', _, _, hsmooth⟩ := hprompt hs
          have hall := hpairs.resolve_left (hmapped hs).1
          rw [← hs.alloc, heq, Option.some.injEq, Prod.mk.injEq, hall.1] at hsmooth
          rw [hsmooth.1]

end Call

section Example

theorem length_fetchWalk_le {e : XdmaEngine} (fuel : Nat) (addr : BitVec 64) (adjacent : Nat)
    {blocks : List (List Nat)} (h : fetchWalk e fuel addr adjacent = some blocks)
    : blocks.flatten.length ≤ fuel * xdmaTransferMaxDesc := by
  induction fuel generalizing addr adjacent blocks with
  | zero => contradiction
  | succ fuel ih =>
    unfold fetchWalk at h
    split at h
    . contradiction
    . next k _ =>
      split at h
      . next hk =>
        dsimp only at h
        split at h
        . rw [Option.some.injEq] at h
          rw [← h, List.flatten_singleton, List.length_range', Nat.succ_mul]
          omega
        . rw [Option.map_eq_some_iff] at h
          obtain ⟨rest, hrest, rfl⟩ := h
          have := ih _ _ hrest
          rw [List.flatten_cons, List.length_append, List.length_range', Nat.succ_mul]
          omega
      . contradiction

theorem length_fetched_lt {e : XdmaEngine} {slots : List Nat} (h : e.fetched = some slots)
    : slots.length < 2 ^ 32 := by
  unfold XdmaEngine.fetched at h
  split at h
  . cases h
    decide
  . rw [Option.map_eq_some_iff] at h
    obtain ⟨blocks, hblocks, rfl⟩ := h
    have := length_fetchWalk_le _ _ _ hblocks
    simp only [xdmaTransferMaxDesc] at this
    omega

/-- The count that one service of a prompt engine reads. -/
def promptRegs (e : XdmaEngine) : HwRegs :=
  ⟨blockIdHead, 0, 0, BitVec.ofNat 32 (e.fetched.getD []).length⟩

theorem serviceCount_promptRegs {e : XdmaEngine} {slots : List Nat} (h : e.fetched = some slots)
    : (serviceCount 0 (promptRegs e)).toNat = slots.length := by
  have hlt := length_fetched_lt h
  have hcount : serviceCount 0 (promptRegs e) = (promptRegs e).completedDescCount := serviceCount_zero _
  rw [hcount]
  unfold promptRegs
  rw [h, Option.getD_some, BitVec.toNat_ofNat, Nat.mod_eq_of_lt hlt]

theorem promptTurn_honest (e : XdmaEngine) (slots : List Nat) (h : e.fetched = some slots)
    : ∀ x ∈ [((0 : BitVec 32), promptRegs e)], (serviceCount x.1 x.2).toNat ≤ slots.length
        ∧ ((serviceCount x.1 x.2).toNat = slots.length →
            (e.copies slots).length ≤ (e.copies (e.fetched.getD [])).length) := by
  intro x hx
  rw [List.mem_singleton] at hx
  subst hx
  rw [serviceCount_promptRegs h, h]
  exact ⟨Nat.le_refl _, fun _ => Nat.le_refl _⟩

theorem promptTurn_present
    : engineRegDump ⟨blockIdHead, 0, 0, 0⟩ = .ok () := by
  decide

/-- An engine that copies everything and is serviced once, then. -/
def promptTurn : EngineTurn where
  hwQueue := ⟨blockIdHead, 0, 0, 0⟩
  hwWake := ⟨blockIdHead, 0, 0, 0⟩
  services := fun e => [(0, promptRegs e)]
  bytes := fun e => (e.copies (e.fetched.getD [])).length
  present := promptTurn_present
  honest := promptTurn_honest

theorem promptTurn_prompt
    : promptTurn.Prompt := by
  have hclean (e : XdmaEngine) : ¬ statusError e 0 := by
    unfold statusError
    simp
  refine ⟨hclean, ?_⟩
  intro e slots h
  exact ⟨0, promptRegs e, rfl, serviceCount_promptRegs h, hclean e⟩

/-- The pages of a process, all of them there. -/
def walkAll (table : Nat → Nat) : PinKernel where
  sgAllocTable := fun _ => true
  kcalloc := fun _ => true
  getUserPagesFast := fun buf nr => (nr.toNat, (List.range' (buf.toNat / pageSize) nr.toNat).map table)

theorem walkAll_walks (table : Nat → Nat)
    : (walkAll table).Walks table := by
  constructor
  . intro buf nr n pages h
    simp only [walkAll, Prod.mk.injEq, Int.natCast_inj] at h
    obtain ⟨hn, rfl⟩ := h
    rw [hn]
    exact ⟨Nat.le_refl _, rfl⟩
  . intro buf nr rv pages h hneg
    simp only [walkAll, Prod.mk.injEq] at h
    omega

/-- A mapping that makes a segment of every entry. -/
def mapEntries (bus : Nat → BitVec 64) (entries : List SgPage) : List Scatterlist :=
  entries.map (fun e => ⟨bus e.page + e.offset.setWidth 64, e.length.toNat⟩)

theorem sgCells_mapEntries (bus : Nat → BitVec 64) (entries : List SgPage)
    : mapEntries bus entries = [] ∨ sgCells (mapEntries bus entries) = entries.flatMap (SgPage.cells bus) := by
  right
  unfold sgCells mapEntries
  rw [List.flatMap_map]
  rfl

/-- The bus address of a page that is mapped to itself. -/
def pageBus (page : Nat) : BitVec 64 := BitVec.ofNat 64 (page * pageSize)

theorem three_limit : (3 : BitVec 64).toNat ≤ 0x7ffff000 := by decide

/-- Three bytes across a page boundary, to or from some address of the card. -/
def threeBytes (write : Bool) (pos : BitVec 64) : SgdmaCall where
  file := if write then .toDevice else .fromDevice
  write := write
  buf := pos
  count := 3
  pos := pos
  table := id
  bus := pageBus
  kernel := walkAll id
  pciMapSg := mapEntries pageBus
  alloc := fun _ => true
  req := 0
  turn := fun _ => promptTurn
  limit := three_limit
  walks := walkAll_walks id
  maps := sgCells_mapEntries pageBus

/-- A device at rest. -/
def idleMachine : Machine where
  file := fun dir => ⟨Driver.init (XdmaEngine.init dir false 0x100000 0), 4, 1⟩
  mem := ⟨fun addr => addr.setWidth 8, fun _ => 0⟩

theorem idleMachine_ready : idleMachine.Ready :=
  ⟨fun _ => ⟨⟨rfl, rfl, show 0 < 2048 by decide⟩, rfl, rfl, rfl, rfl⟩, fun _ => rfl, fun _ => rfl⟩

/-- Where buffer and position agree, the check has nothing to say. -/
theorem threeBytes_checked {m : Machine} (h : m.Ready) (write : Bool) (pos : BitVec 64)
    : (threeBytes write pos).Checked m := by
  constructor
  . unfold threeBytes CharEngine.dirOk SgdmaFile.engine
    dsimp only
    rw [h.dir]
    cases write <;> rfl
  . unfold checkTransferAlign SgdmaFile.engine
    dsimp only
    rw [h.incr, if_neg Bool.false_ne_true]
    simp [threeBytes]

theorem threeBytes_smooth {m : Machine} (h : m.Ready) (write : Bool)
    : (threeBytes write 4094).Smooth ⟨false, false, 2⟩ m where
  checked := threeBytes_checked h write 4094
  pinned := by cases write <;> decide
  alloc := rfl
  mapped := by cases write <;> decide
  fits := by cases write <;> decide
  prompt := fun _ => promptTurn_prompt

end Example

section Run

open Transition

variable (p : ModuleParam) (hb : 1 ≤ p.descBlenMax) (hb' : p.descBlenMax ≤ xdmaDescBlenMax)

/-- The step of a call that does what it is to do. -/
def CallSpec (m : Machine) (c : SgdmaCall) (m' : Machine) : Prop :=
  ∃ res moved, charSgdmaReadWriteDma p c m = some res ∧ res.machine = m' ∧ CallDone p c m res moved

include hb hb'

theorem Machine.step_spec (m : Machine) (c : SgdmaCall) (h : m.Ready)
    : ∃ m', m.step p c = some m' ∧ m'.Ready ∧ CallSpec p m c m' := by
  obtain ⟨res, moved, heq, hdone⟩ := charSgdmaReadWriteDma_done p hb hb' c h
  refine ⟨res.machine, ?_, hdone.ready, res, moved, heq, rfl, hdone⟩
  unfold Machine.step
  rw [heq]
  rfl

theorem Machine.step_keeps (m : Machine) (c : SgdmaCall) (m' : Machine) (h : m.Ready)
    (hstep : m.step p c = some m')
    : m'.Ready ∧ CallSpec p m c m' := by
  obtain ⟨n, hn, hspec⟩ := m.step_spec p hb hb' c h
  rw [hstep, Option.some.injEq] at hn
  subst hn
  exact hspec

/-- A byte of the card that no call of a run writes. -/
theorem Machine.run_kept {m m' : Machine} (h : m.Ready) {cs : List SgdmaCall} {a : BitVec 64}
    (hrun : run (Machine.step p) m cs = some m')
    (hkept : ∀ c ∈ cs, c.write = true → ∀ i < c.count.toNat, c.pos + (i : BitVec 64) ≠ a)
    : m'.Ready ∧ m'.mem.card a = m.mem.card a := by
  induction cs generalizing m with
  | nil =>
    simp only [run, Option.some.injEq] at hrun
    subst hrun
    exact ⟨h, rfl⟩
  | cons c cs ih =>
    simp only [run, Option.bind_eq_some_iff] at hrun
    obtain ⟨n, hn, hrun⟩ := hrun
    rw [List.forall_mem_cons] at hkept
    obtain ⟨hready, res, moved, _, hres, hdone⟩ := m.step_keeps p hb hb' c n h hn
    have hrest := ih hready hrun hkept.2
    refine ⟨hrest.1, hrest.2.trans ?_⟩
    have heffect := hdone.effect
    have hle := hdone.le
    rw [hres] at heffect
    unfold SgdmaCall.Effect at heffect
    split at heffect
    . next hwrite =>
      apply heffect.kept
      intro k hk
      exact hkept.1 hwrite k (by omega)
    . rw [heffect.card]

/--
Any calls on the two files of a device go through, whether they complete, fail, time out or are refused:
each of them moves the first bytes of its buffer, at least as many as it returns, changes nothing else,
and leaves the engines ready.
-/
theorem sgdmaRun_spec (m : Machine) (h : m.Ready) (cs : List SgdmaCall)
    : (∃ m', run (Machine.step p) m cs = some m' ∧ m'.Ready)
      ∧ StepsHold (Machine.step p) (CallSpec p) m cs := by
  constructor
  . refine run_of_progress ?_ cs h
    intro m c h
    obtain ⟨m', hstep, hready, _⟩ := m.step_spec p hb hb' c h
    exact ⟨m', hstep, hready⟩
  . refine @stepsHold_of_inductive _ _ _ Machine.Ready _ ?_ ?_ _ _ h
    . intro m c m' h hstep
      exact (m.step_keeps p hb hb' c m' h hstep).2
    . intro m c m' h hstep
      exact (m.step_keeps p hb hb' c m' h hstep).1

omit hb hb' in
theorem sgdmaRun_spec_two
    : (∃ m', run (Machine.step ⟨false, false, 2⟩) idleMachine
          [threeBytes true 4094, threeBytes false 4094] = some m' ∧ m'.Ready)
      ∧ StepsHold (Machine.step ⟨false, false, 2⟩) (CallSpec ⟨false, false, 2⟩) idleMachine
          [threeBytes true 4094, threeBytes false 4094] :=
  sgdmaRun_spec ⟨false, false, 2⟩ (by decide) (by decide) idleMachine idleMachine_ready _

/--
A byte that a `write()` and a later `read()` of the same position count is read as it was written, whatever
the calls between them do to other bytes of the card.
-/
theorem sgdmaRun_readBack (m m' : Machine) (h : m.Ready) (w r : SgdmaCall) (cs : List SgdmaCall)
    (hwrite : w.write = true) (hread : r.write = false) (hpos : r.pos = w.pos) (hdistinct : r.Distinct)
    (resw resr : SgdmaReturn) (hresw : charSgdmaReadWriteDma p w m = some resw)
    (hrun : run (Machine.step p) resw.machine cs = some m')
    (hresr : charSgdmaReadWriteDma p r m' = some resr) (k : Nat) (hk : (k : Int) < resw.rv)
    (hk' : (k : Int) < resr.rv)
    (hkept : ∀ c ∈ cs, c.write = true → ∀ i < c.count.toNat,
      c.pos + (i : BitVec 64) ≠ w.pos + (k : BitVec 64))
    : resr.machine.mem.host (r.busAddr (r.buf.toNat + k)) = m.mem.host (w.busAddr (w.buf.toNat + k)) := by
  obtain ⟨res, moved, heq, hdone⟩ := charSgdmaReadWriteDma_done p hb hb' w h
  rw [hresw, Option.some.injEq] at heq
  subst heq
  obtain ⟨hready, hcard⟩ := Machine.run_kept p hb hb' hdone.ready hrun hkept
  obtain ⟨res, moved', heq, hdone'⟩ := charSgdmaReadWriteDma_done p hb hb' r hready
  rw [hresr, Option.some.injEq] at heq
  subst heq
  have hwritten := hdone.effect
  have hreturned := hdone'.effect
  unfold SgdmaCall.Effect at hwritten hreturned
  rw [if_pos hwrite] at hwritten
  rw [if_neg (by simp [hread])] at hreturned
  have hrv := hdone.rv
  have hrv' := hdone'.rv
  rw [hreturned.bytes hdistinct k (by omega), hpos, hcard, hwritten.bytes k (by omega)]

omit hb hb' in
/-- Three bytes are written, three others after them, and the first ones are read back. -/
theorem sgdmaRun_readBack_three
    : ∃ resw m' resr, charSgdmaReadWriteDma ⟨false, false, 2⟩ (threeBytes true 4094) idleMachine = some resw
        ∧ run (Machine.step ⟨false, false, 2⟩) resw.machine [threeBytes true 8] = some m'
        ∧ charSgdmaReadWriteDma ⟨false, false, 2⟩ (threeBytes false 4094) m' = some resr
        ∧ resr.machine.mem.host 4095 = 0xff := by
  obtain ⟨resw, _, hresw, hdone⟩ :=
    charSgdmaReadWriteDma_done ⟨false, false, 2⟩ (by decide) (by decide) (threeBytes true 4094) idleMachine_ready
  obtain ⟨m', hstep, hready, _⟩ :=
    resw.machine.step_spec ⟨false, false, 2⟩ (by decide) (by decide) (threeBytes true 8) hdone.ready
  obtain ⟨resr, _, hresr, hdone'⟩ :=
    charSgdmaReadWriteDma_done ⟨false, false, 2⟩ (by decide) (by decide) (threeBytes false 4094) hready
  have hrun : run (Machine.step ⟨false, false, 2⟩) resw.machine [threeBytes true 8] = some m' := by
    simp only [run, hstep, Option.bind_some]
  have hrv := hdone.smooth (threeBytes_smooth idleMachine_ready true)
  have hrv' := hdone'.smooth (threeBytes_smooth hready false)
  refine ⟨resw, m', resr, hresw, hrun, hresr, ?_⟩
  have h := sgdmaRun_readBack ⟨false, false, 2⟩ (by decide) (by decide) idleMachine m' idleMachine_ready
    (threeBytes true 4094) (threeBytes false 4094) [threeBytes true 8] rfl rfl rfl
    (by unfold SgdmaCall.Distinct; decide) resw resr hresw hrun hresr 1
    (by rw [hrv]; decide) (by rw [hrv']; decide) (by simp; decide)
  exact h.trans (by decide)

end Run

end Xdma
