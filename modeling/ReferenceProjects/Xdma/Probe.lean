import ReferenceProjects.Lib.Ledger
import ReferenceProjects.Xdma.Impl.Irq
import ReferenceProjects.Xdma.Impl.Probe
import Mathlib.Data.List.TakeWhile

/-!
This module contains what probing a device settles: which engines there are, that each of them has an
interrupt bit and a window of the bypass BAR of its own, and that removing them gives back what they hold.
-/

namespace Xdma

open Ledger

/-- What the driver notes of its resources in the engines. -/
def ProbedDev.owns (d : ProbedDev) : EngineRes → Prop
  | .buf id b => (d.engine id).buf b = true
  | .work id => (d.engine id).cmplthp = true

/-- What the driver holds is what it notes, and the work of the engines of which it lost the note. -/
def ProbedDev.KeptBut (d : ProbedDev) (lost : EngineId → Prop) : Prop :=
  Tracks (fun r => d.owns r ∨ ∃ id, lost id ∧ r = .work id) d.calls

/-- The notes of the driver are what it holds. -/
def ProbedDev.Kept (d : ProbedDev) : Prop := Tracks d.owns d.calls

theorem ProbedDev.kept_iff (d : ProbedDev)
    : d.KeptBut (fun _ => False) ↔ d.Kept := by
  constructor <;> intro h <;> exact h.congr (by simp)

theorem ProbedDev.Kept.congr {d d' : ProbedDev} (h : d.Kept)
    (hbuf : ∀ id, (d'.engine id).buf = (d.engine id).buf)
    (hwork : ∀ id, (d'.engine id).cmplthp = (d.engine id).cmplthp) (hcalls : d'.calls = d.calls)
    : d'.Kept := by
  unfold ProbedDev.Kept
  rw [hcalls]
  refine Tracks.congr h ?_
  intro r
  cases r with
  | buf id b => rw [ProbedDev.owns, ProbedDev.owns, hbuf]
  | work id => rw [ProbedDev.owns, ProbedDev.owns, hwork]

section Bufs

/-- At most the buffers of engine `id` are others. -/
structure BufsChanged (d d' : ProbedDev) (id : EngineId) : Prop where
  eq : d' = { d with
    engine := Function.update d.engine id { d.engine id with buf := (d'.engine id).buf }
    calls := d'.calls
  }

variable {d : ProbedDev} {id : EngineId}

theorem BufsChanged.refl
    : BufsChanged d d id := ⟨by rw [Function.update_eq_self]⟩

theorem BufsChanged.trans {d' d'' : ProbedDev} (h : BufsChanged d d' id) (h' : BufsChanged d' d'' id)
    : BufsChanged d d'' id := by
  constructor
  have heq := h.eq
  rw [h'.eq, heq]
  simp

theorem BufsChanged.cmplthp {d' : ProbedDev} (h : BufsChanged d d' id)
    : (d'.engine id).cmplthp = (d.engine id).cmplthp := by
  rw [h.eq]
  dsimp only
  rw [Function.update_self]

theorem BufsChanged.of_setBuf (bufs : EngineBuf → Bool) (calls : List EngineCall)
    : BufsChanged d { d.setEngine id { d.engine id with buf := bufs } with calls := calls } id := by
  constructor
  simp [ProbedDev.setEngine]

theorem owns_setBuf (b : EngineBuf) (ok : Bool) (calls : List EngineCall) (r : EngineRes)
    : ProbedDev.owns { d.setEngine id { d.engine id with
          buf := Function.update (d.engine id).buf b ok } with calls := calls } r
        ↔ if r = .buf id b then ok = true else d.owns r := by
  cases r with
  | work id' =>
    rw [if_neg (by simp)]
    unfold ProbedDev.owns ProbedDev.setEngine
    dsimp only
    by_cases h : id' = id
    . rw [h, Function.update_self]
    . rw [Function.update_of_ne h]
  | buf id' b' =>
    unfold ProbedDev.owns ProbedDev.setEngine
    dsimp only
    by_cases h : id' = id
    . rw [h, Function.update_self]
      dsimp only
      by_cases hb : b' = b
      . rw [hb, Function.update_self, if_pos rfl]
      . rw [Function.update_of_ne hb, if_neg (by simp [hb])]
    . rw [Function.update_of_ne h, if_neg (by simp [h])]

theorem freeBuf_spec {lost : EngineId → Prop} (h : d.KeptBut lost) (b : EngineBuf)
    : BufsChanged d (freeBuf d id b) id ∧ (freeBuf d id b).KeptBut lost
      ∧ ((freeBuf d id b).engine id).buf = Function.update (d.engine id).buf b false := by
  unfold freeBuf
  dsimp only
  split
  . next hbuf =>
    refine ⟨.of_setBuf _ _, Tracks.release h (r := .buf id b) (.inl hbuf) ?_, ?_⟩
    . intro q
      rw [owns_setBuf]
      split
      . next heq => simp [heq]
      . next hne => simp [hne]
    . simp [ProbedDev.setEngine]
  . next hbuf =>
    refine ⟨.refl, h, ?_⟩
    rw [← (Bool.not_eq_true _).mp hbuf, Function.update_eq_self]

theorem engineFreeResource_spec {lost : EngineId → Prop} (h : d.KeptBut lost)
    : BufsChanged d (engineFreeResource d id) id ∧ (engineFreeResource d id).KeptBut lost
      ∧ ((engineFreeResource d id).engine id).buf = fun _ => false := by
  obtain ⟨hchanged, hkept, hbuf⟩ := @freeBuf_spec _ id _ h .pollModeAddrVirt
  obtain ⟨hchanged', hkept', hbuf'⟩ := @freeBuf_spec _ id _ hkept .desc
  obtain ⟨hchanged'', hkept'', hbuf''⟩ := @freeBuf_spec _ id _ hkept' .cyclicResult
  refine ⟨(hchanged.trans hchanged').trans hchanged'', hkept'', ?_⟩
  unfold engineFreeResource
  rw [hbuf'', hbuf', hbuf]
  funext b
  cases b <;> simp

variable (env : ProbeEnv)

theorem allocBuf_spec (h : d.Kept) {b : EngineBuf} (hnew : (d.engine id).buf b = false)
    : BufsChanged d (allocBuf env d id b) id ∧ (allocBuf env d id b).Kept
      ∧ ((allocBuf env d id b).engine id).buf
          = Function.update (d.engine id).buf b (env.dmaAllocCoherent id b) := by
  unfold allocBuf
  dsimp only
  refine ⟨.of_setBuf _ _, Tracks.acquire h (r := .buf id b) (by simp [ProbedDev.owns, hnew]) ?_, ?_⟩
  . intro q
    rw [owns_setBuf]
    split
    . next heq => simp [heq, ProbedDev.owns, hnew]
    . next hne => simp [hne]
  . simp [ProbedDev.setEngine]

/-- The allocations of an engine: all of them, or none is left. -/
theorem allocBufs_spec (bs : List EngineBuf) (h : d.Kept) (hnodup : bs.Nodup)
    (hnew : ∀ b ∈ bs, (d.engine id).buf b = false)
    : let r := allocBufs env id bs d
      BufsChanged d r.1 id ∧ r.1.Kept
        ∧ (r.2 = none ↔ ∀ b ∈ bs, env.dmaAllocCoherent id b = true)
        ∧ (r.2 = none → ∀ b, (r.1.engine id).buf b = true ↔ (d.engine id).buf b = true ∨ b ∈ bs)
        ∧ (r.2 ≠ none → ∀ b, (r.1.engine id).buf b = false) := by
  induction bs generalizing d with
  | nil => exact ⟨.refl, h, by simp [allocBufs], by simp [allocBufs], by simp [allocBufs]⟩
  | cons b bs ih =>
    rw [List.nodup_cons] at hnodup
    rw [List.forall_mem_cons] at hnew
    obtain ⟨hchanged, hkept, hbuf⟩ := allocBuf_spec env h hnew.1
    have hok : ((allocBuf env d id b).engine id).buf b = env.dmaAllocCoherent id b := by
      rw [hbuf, Function.update_self]
    have hother : ∀ b' ≠ b, ((allocBuf env d id b).engine id).buf b' = (d.engine id).buf b' := by
      intro b' hne
      rw [hbuf, Function.update_of_ne hne]
    unfold allocBufs
    dsimp only
    rw [hok]
    cases hgot : env.dmaAllocCoherent id b with
    | false =>
      rw [if_neg Bool.false_ne_true]
      obtain ⟨hfreed, hkept', hnone⟩ := @engineFreeResource_spec _ id _ ((ProbedDev.kept_iff _).mpr hkept)
      refine ⟨hchanged.trans hfreed, (ProbedDev.kept_iff _).mp hkept', by simp [hgot], by simp, ?_⟩
      intro _ b'
      rw [hnone]
    | true =>
      rw [if_pos rfl]
      have hrest := ih hkept hnodup.2 (by
        intro b' hb'
        rw [hother b' (by rintro rfl; exact hnodup.1 hb')]
        exact hnew.2 b' hb')
      obtain ⟨hchanged', hkept', hiff, hall, hnone⟩ := hrest
      refine ⟨hchanged.trans hchanged', hkept', ?_, ?_, hnone⟩
      . rw [hiff, List.forall_mem_cons, and_iff_right hgot]
      . intro hrv b'
        rw [hall hrv, List.mem_cons]
        by_cases hb' : b' = b
        . simp [hb', hok, hgot]
        . simp [hb', hother b' hb']

end Bufs

/-- `mask_irq_h2c` or `mask_irq_c2h` -/
def ProbedDev.maskIrq (d : ProbedDev) : DmaDataDirection → BitVec 32
  | .toDevice => d.maskIrqH2c
  | .fromDevice => d.maskIrqC2h

/-- `h2c_channel_max` or `c2h_channel_max` -/
def ProbedDev.channelMax (d : ProbedDev) : DmaDataDirection → Nat
  | .toDevice => d.h2cChannelMax
  | .fromDevice => d.c2hChannelMax

section Init

variable (env : ProbeEnv)

/-- The engine is attached to a stream. -/
def ProbeEnv.streams (id : EngineId) : Bool := env.identifier (engineOffset id) &&& 0x8000 != 0

/-- The buffers that an engine is to have. -/
def ProbeEnv.needs (id : EngineId) : List EngineBuf :=
  .desc :: ((if env.pollMode then [.pollModeAddrVirt] else [])
    ++ if env.streams id ∧ id.dir = .fromDevice then [.cyclicResult] else [])

/-- There is memory for all of them. -/
def ProbeEnv.fits (id : EngineId) : Bool := (env.needs id).all (env.dmaAllocCoherent id)

/-- The registers of an engine are those of an engine of its direction and channel. -/
def ProbeEnv.found (id : EngineId) : Bool :=
  getEngineId (env.identifier (engineOffset id)) == engineIdExpected id.dir
    && (getEngineChannelId (env.identifier (engineOffset id))).toNat == id.channel

/-- What the set-up of an engine that is the next one comes to, whether there is memory for it or not. -/
structure EngineMade (d d' : ProbedDev) (id : EngineId) : Prop where
  kept : d'.Kept
  other : ∀ id' ≠ id, d'.engine id' = d.engine id'
  magic : (d'.engine id).magic = true
  dir : (d'.engine id).dir = id.dir
  channel : (d'.engine id).channel = id.channel
  irqBitmask : (d'.engine id).irqBitmask = irqBit d.enginesNum
  bypassOffset : (d'.engine id).bypassOffset = d.enginesNum * 0x100
  regs : (d'.engine id).regs = engineOffset id
  num : d'.enginesNum = d.enginesNum + 1
  mask : ∀ dir, d'.maskIrq dir
    = if dir = id.dir then d.maskIrq dir ||| irqBit d.enginesNum else d.maskIrq dir
  max : ∀ dir, d'.channelMax dir = d.channelMax dir
  elsewhere : ∀ offset ≠ engineOffset id, d'.interruptEnableMask offset = d.interruptEnableMask offset

variable {d : ProbedDev} {id : EngineId}

theorem neededBufs_engineCreate (hzero : d.engine id = .zero)
    : neededBufs env ((engineCreate env d (engineOffset id) id).engine id) = env.needs id := by
  have hslot : (engineCreate env d (engineOffset id) id).engine id = { EngineSlot.zero with
      magic := true
      channel := id.channel
      irqBitmask := irqBit d.enginesNum
      bypassOffset := d.enginesNum * 0x100
      regs := engineOffset id
      streaming := env.streams id
      dir := id.dir } := by
    unfold engineCreate
    rw [hzero]
    cases id.dir <;> exact Function.update_self _ _ _
  unfold neededBufs
  rw [hslot]
  rfl

theorem needs_nodup (id : EngineId)
    : (env.needs id).Nodup := by
  unfold ProbeEnv.needs
  split <;> split <;> decide

theorem engineCreate_made (h : d.Kept)
    : EngineMade d (engineCreate env d (engineOffset id) id) id := by
  have hkept : (engineCreate env d (engineOffset id) id).Kept := by
    refine h.congr ?_ ?_ ?_
    . intro id'
      unfold engineCreate ProbedDev.setEngine
      cases id.dir <;> (by_cases heq : id' = id <;> simp [heq])
    . intro id'
      unfold engineCreate ProbedDev.setEngine
      cases id.dir <;> (by_cases heq : id' = id <;> simp [heq])
    . unfold engineCreate
      cases id.dir <;> rfl
  refine ⟨hkept, ?_, ?_, ?_, ?_, ?_, ?_, ?_, ?_, ?_, ?_, ?_⟩
  . intro id' hne
    unfold engineCreate ProbedDev.setEngine
    cases id.dir <;> exact Function.update_of_ne hne _ _
  all_goals
    unfold engineCreate ProbedDev.setEngine
    cases id.dir <;> try simp
  . intro dir
    cases dir <;> simp [ProbedDev.maskIrq]
  . intro dir
    cases dir <;> simp [ProbedDev.maskIrq]
  . intro dir
    cases dir <;> rfl
  . intro dir
    cases dir <;> rfl

/-- What of an engine the rest of its set-up leaves as it is. -/
theorem EngineMade.congr {d₀ d' : ProbedDev} (h : EngineMade d₀ d id) (hkept : d'.Kept)
    (hengine : ∃ bufs align gran bits value work,
      d'.engine = Function.update d.engine id { d.engine id with
        buf := bufs
        addrAlign := align
        lenGranularity := gran
        addrBits := bits
        interruptEnableMaskValue := value
        cmplthp := work })
    (hmask : d'.maskIrqH2c = d.maskIrqH2c ∧ d'.maskIrqC2h = d.maskIrqC2h)
    (hmax : d'.h2cChannelMax = d.h2cChannelMax ∧ d'.c2hChannelMax = d.c2hChannelMax)
    (hnum : d'.enginesNum = d.enginesNum)
    (helsewhere : ∀ offset ≠ engineOffset id, d'.interruptEnableMask offset = d.interruptEnableMask offset)
    : EngineMade d₀ d' id := by
  obtain ⟨bufs, align, gran, bits, value, work, hengine⟩ := hengine
  have hself : d'.engine id = { d.engine id with
      buf := bufs
      addrAlign := align
      lenGranularity := gran
      addrBits := bits
      interruptEnableMaskValue := value
      cmplthp := work } := by
    rw [hengine, Function.update_self]
  refine ⟨hkept, ?_, ?_, ?_, ?_, ?_, ?_, ?_, ?_, ?_, ?_, ?_⟩
  . intro id' hne
    rw [hengine, Function.update_of_ne hne]
    exact h.other id' hne
  . rw [hself]
    exact h.magic
  . rw [hself]
    exact h.dir
  . rw [hself]
    exact h.channel
  . rw [hself]
    exact h.irqBitmask
  . rw [hself]
    exact h.bypassOffset
  . rw [hself]
    exact h.regs
  . rw [hnum]
    exact h.num
  . intro dir
    rw [← h.mask dir]
    cases dir
    . exact hmask.1
    . exact hmask.2
  . intro dir
    rw [← h.max dir]
    cases dir
    . exact hmax.1
    . exact hmax.2
  . intro offset hne
    rw [helsewhere offset hne]
    exact h.elsewhere offset hne

theorem EngineMade.bufs {d₀ d' : ProbedDev} (h : EngineMade d₀ d id) (hchanged : BufsChanged d d' id)
    (hkept : d'.Kept)
    : EngineMade d₀ d' id := by
  have heq := hchanged.eq
  refine h.congr hkept ⟨_, (d.engine id).addrAlign, (d.engine id).lenGranularity, (d.engine id).addrBits,
    (d.engine id).interruptEnableMaskValue, (d.engine id).cmplthp, congrArg ProbedDev.engine heq⟩ ?_ ?_ ?_ ?_
  . rw [heq]
    exact ⟨rfl, rfl⟩
  . rw [heq]
    exact ⟨rfl, rfl⟩
  . rw [heq]
  . intro offset _
    rw [heq]

/-- What `engine_init_regs()` changes. -/
theorem engineInitRegs_eq (d : ProbedDev) (id : EngineId)
    : ∃ align gran bits credit, d.engineInitRegs env id = { d with
        engine := Function.update d.engine id { d.engine id with
          addrAlign := align
          lenGranularity := gran
          addrBits := bits
          interruptEnableMaskValue := interruptEnableValue env }
        interruptEnableMask := Function.update d.interruptEnableMask (d.engine id).regs (interruptEnableValue env)
        creditModeEnable := credit } := by
  have hslot : ∃ align gran bits, engineAlignments (env.alignments (d.engine id).regs) (d.engine id)
      = { d.engine id with addrAlign := align, lenGranularity := gran, addrBits := bits } := by
    unfold engineAlignments
    split
    . exact ⟨_, _, _, rfl⟩
    . exact ⟨_, _, _, rfl⟩
  obtain ⟨align, gran, bits, hslot⟩ := hslot
  unfold ProbedDev.engineInitRegs ProbedDev.setEngine
  rw [hslot]
  dsimp only
  split
  . exact ⟨align, gran, bits, _, rfl⟩
  . exact ⟨align, gran, bits, _, rfl⟩

theorem engineInitRegs_made {d₀ : ProbedDev} (h : EngineMade d₀ d id)
    : EngineMade d₀ (d.engineInitRegs env id) id
      ∧ ((d.engineInitRegs env id).engine id).buf = (d.engine id).buf
      ∧ ((d.engineInitRegs env id).engine id).cmplthp = (d.engine id).cmplthp
      ∧ (d.engineInitRegs env id).interruptEnableMask (engineOffset id)
          = ((d.engineInitRegs env id).engine id).interruptEnableMaskValue := by
  obtain ⟨align, gran, bits, credit, heq⟩ := engineInitRegs_eq env d id
  rw [heq]
  refine ⟨h.congr ?_ ⟨(d.engine id).buf, align, gran, bits, _, (d.engine id).cmplthp, rfl⟩ ⟨rfl, rfl⟩
    ⟨rfl, rfl⟩ rfl ?_, by simp, by simp, ?_⟩
  . refine h.kept.congr ?_ ?_ rfl
    . intro id'
      by_cases hid : id' = id <;> simp [hid]
    . intro id'
      by_cases hid : id' = id <;> simp [hid]
  . intro offset hne
    dsimp only
    rw [h.regs, Function.update_of_ne hne]
  . dsimp only
    rw [h.regs, Function.update_self, Function.update_self]

theorem addWork_made {d₀ : ProbedDev} (h : EngineMade d₀ d id) (hnew : (d.engine id).cmplthp = false)
    : EngineMade d₀ (addWork d id) id ∧ ((addWork d id).engine id).buf = (d.engine id).buf
      ∧ ((addWork d id).engine id).cmplthp = true
      ∧ ((addWork d id).engine id).interruptEnableMaskValue = (d.engine id).interruptEnableMaskValue := by
  have hself : (addWork d id).engine id = { d.engine id with cmplthp := true } :=
    Function.update_self _ _ _
  have hkept : (addWork d id).Kept := by
    refine Tracks.acquire h.kept (r := .work id) (by simp [ProbedDev.owns, hnew]) ?_
    intro q
    unfold addWork ProbedDev.setEngine
    cases q with
    | buf id' b =>
      unfold ProbedDev.owns
      by_cases heq : id' = id <;> simp [heq]
    | work id' =>
      unfold ProbedDev.owns
      by_cases heq : id' = id <;> simp [heq]
  exact ⟨h.congr hkept ⟨(d.engine id).buf, (d.engine id).addrAlign, (d.engine id).lenGranularity,
    (d.engine id).addrBits, (d.engine id).interruptEnableMaskValue, true, rfl⟩ ⟨rfl, rfl⟩ ⟨rfl, rfl⟩ rfl
      (fun _ _ => rfl), by rw [hself], by rw [hself], by rw [hself]⟩

/--
Setting up the next engine: it is made in any case, and holds what it needs if there is memory for it, or
nothing.
-/
theorem engineInit_spec (h : d.Kept) (hzero : d.engine id = .zero)
    : let r := engineInit env d (engineOffset id) id
      EngineMade d r.1 id ∧ (r.2 = none ↔ env.fits id = true)
        ∧ (r.2 = none → ((∀ b, (r.1.engine id).buf b = true ↔ b ∈ env.needs id)
              ∧ (r.1.engine id).cmplthp = env.pollMode)
            ∧ r.1.interruptEnableMask (engineOffset id) = (r.1.engine id).interruptEnableMaskValue)
        ∧ (r.2 ≠ none → (∀ b, (r.1.engine id).buf b = false) ∧ (r.1.engine id).cmplthp = false) := by
  have hmade := @engineCreate_made env _ id h
  have hneeds := neededBufs_engineCreate env hzero
  have hempty : ((engineCreate env d (engineOffset id) id).engine id).buf = (fun _ => false)
      ∧ ((engineCreate env d (engineOffset id) id).engine id).cmplthp = false := by
    unfold engineCreate
    rw [hzero]
    cases id.dir <;> exact ⟨by simp [ProbedDev.setEngine, EngineSlot.zero],
      by simp [ProbedDev.setEngine, EngineSlot.zero]⟩
  have halloc := allocBufs_spec env (env.needs id) hmade.kept (needs_nodup env id)
    (fun b _ => congrFun hempty.1 b)
  unfold engineInit engineAllocResource
  rw [hneeds]
  generalize engineCreate env d (engineOffset id) id = c at *
  generalize allocBufs env id (env.needs id) c = a at *
  obtain ⟨a, rv⟩ := a
  obtain ⟨hchanged, hkept, hiff, hall, hnone⟩ := halloc
  have hmade' := hmade.bufs hchanged hkept
  have hwork : (a.engine id).cmplthp = false := hchanged.cmplthp.trans hempty.2
  have hfits : (rv = none ↔ env.fits id = true) := by
    rw [hiff, ProbeEnv.fits, List.all_eq_true]
  cases rv with
  | some err =>
    exact ⟨hmade', by simpa using hfits, by simp, fun _ => ⟨hnone (by simp), hwork⟩⟩
  | none =>
    have hregs := engineInitRegs_made env hmade'
    have hbufs : ∀ b, (a.engine id).buf b = true ↔ b ∈ env.needs id := by
      intro b
      rw [hall rfl b, hempty.1]
      simp
    dsimp only
    cases hpoll : env.pollMode with
    | true =>
      rw [if_pos rfl]
      have hadd := addWork_made hregs.1 (hregs.2.2.1.trans hwork)
      refine ⟨hadd.1, by simpa using hfits, fun _ => ⟨⟨?_, hadd.2.2.1⟩, ?_⟩, by simp⟩
      rotate_left
      . rw [hadd.2.2.2]
        exact hregs.2.2.2
      intro b
      rw [hadd.2.1, hregs.2.1]
      exact hbufs b
    | false =>
      rw [if_neg Bool.false_ne_true]
      refine ⟨hregs.1, by simpa using hfits, fun _ => ⟨⟨?_, hregs.2.2.1.trans hwork⟩, hregs.2.2.2⟩,
        by simp⟩
      intro b
      rw [hregs.2.1]
      exact hbufs b

end Init

/-- The probe of an engine succeeds. -/
def ProbeEnv.ready (env : ProbeEnv) (id : EngineId) : Bool := env.found id && env.fits id

/--
The engines of `order` were set up one after the other, each with the next interrupt bit and the next window;
those for which there was memory hold what they need.
-/
structure ProbeInv (env : ProbeEnv) (d : ProbedDev) (order : List EngineId) : Prop where
  kept : d.Kept
  nodup : order.Nodup
  num : d.enginesNum = order.length
  zero : ∀ id ∉ order, d.engine id = .zero
  magic : ∀ id ∈ order, (d.engine id).magic = true ∧ (d.engine id).dir = id.dir
    ∧ (d.engine id).channel = id.channel ∧ (d.engine id).regs = engineOffset id
  bit : ∀ k id, order[k]? = some id →
    (d.engine id).irqBitmask = irqBit k ∧ (d.engine id).bypassOffset = k * 0x100
  mask : ∀ dir, ∀ k < 32,
    (d.maskIrq dir).getLsbD k = true ↔ ∃ id, order[k]? = some id ∧ id.dir = dir
  holds : ∀ id ∈ order, env.ready id = true →
    (∀ b, (d.engine id).buf b = true ↔ b ∈ env.needs id) ∧ (d.engine id).cmplthp = env.pollMode
  none : ∀ id ∈ order, env.ready id = false →
    (∀ b, (d.engine id).buf b = false) ∧ (d.engine id).cmplthp = false
  enabled : (∀ id ∈ order, id.channel < 16) → ∀ id ∈ order, env.ready id = true →
    d.interruptEnableMask (engineOffset id) = (d.engine id).interruptEnableMaskValue

section Probe

variable {env : ProbeEnv} {d : ProbedDev} {order : List EngineId}

theorem ProbeInv.init (env : ProbeEnv) (h2cChannelMax c2hChannelMax : Nat)
    : ProbeInv env (.init h2cChannelMax c2hChannelMax) [] where
  kept := by
    refine ⟨trivial, ?_⟩
    intro r
    cases r <;> simp [ProbedDev.owns, ProbedDev.init, EngineSlot.zero, held]
  nodup := List.nodup_nil
  num := rfl
  zero := fun _ _ => rfl
  magic := by simp
  bit := by simp
  mask := by
    intro dir k _
    cases dir <;> simp [ProbedDev.maskIrq, ProbedDev.init]
  holds := by simp
  none := by simp
  enabled := by simp

theorem ProbeInv.setMax (h : ProbeInv env d order) (h2cChannelMax c2hChannelMax : Nat)
    : ProbeInv env { d with h2cChannelMax := h2cChannelMax, c2hChannelMax := c2hChannelMax } order :=
  ⟨h.kept, h.nodup, h.num, h.zero, h.magic, h.bit,
    fun dir => by
      cases dir
      . exact h.mask .toDevice
      . exact h.mask .fromDevice, h.holds, h.none, h.enabled⟩

theorem getLsbD_irqBit {n k : Nat} (hk : k < 32)
    : (irqBit n).getLsbD k = decide (k = n) := by
  unfold irqBit
  simp only [BitVec.getLsbD_shiftLeft, hk, decide_true, Bool.true_and, BitVec.ofNat_eq_ofNat,
    BitVec.getLsbD_one]
  by_cases h : k = n
  . simp [h]
  . by_cases hlt : k < n
    . simp [h, hlt]
    . have hpos : ¬ k - n = 0 := by omega
      simp [h, hlt, hpos]

/-- The registers of the engines are apart. -/
theorem engineOffset_inj {id id' : EngineId} (h : id.channel < 16) (h' : id'.channel < 16)
    (heq : engineOffset id = engineOffset id')
    : id = id' := by
  obtain ⟨dir, channel⟩ := id
  obtain ⟨dir', channel'⟩ := id'
  unfold engineOffset at heq
  rw [EngineId.mk.injEq]
  cases dir <;> cases dir' <;> (dsimp only at h h' heq; simp; omega)

theorem ProbeInv.made (h : ProbeInv env d order) {d' : ProbedDev} {id : EngineId}
    (hmade : EngineMade d d' id) (hnew : id ∉ order)
    (hready : env.ready id = true →
      ((∀ b, (d'.engine id).buf b = true ↔ b ∈ env.needs id) ∧ (d'.engine id).cmplthp = env.pollMode)
        ∧ d'.interruptEnableMask (engineOffset id) = (d'.engine id).interruptEnableMaskValue)
    (hnone : env.ready id = false → (∀ b, (d'.engine id).buf b = false) ∧ (d'.engine id).cmplthp = false)
    : ProbeInv env d' (order ++ [id]) := by
  have hne : ∀ id' ∈ order, id' ≠ id := by
    rintro id' hmem rfl
    exact hnew hmem
  have hsame : ∀ id' ∈ order, d'.engine id' = d.engine id' := fun id' hmem => hmade.other id' (hne id' hmem)
  refine ⟨hmade.kept, ?_, ?_, ?_, ?_, ?_, ?_, ?_, ?_, ?_⟩
  . exact List.nodup_append.mpr ⟨h.nodup, List.nodup_singleton id, by
      intro a ha b hb
      rw [List.mem_singleton] at hb
      rw [hb]
      exact hne a ha⟩
  . rw [hmade.num, h.num, List.length_append, List.length_singleton]
  . intro id' hnot
    rw [List.mem_append, List.mem_singleton, not_or] at hnot
    rw [hmade.other id' hnot.2]
    exact h.zero id' hnot.1
  . intro id' hmem
    rw [List.mem_append, List.mem_singleton] at hmem
    cases hmem with
    | inl hold =>
      rw [hsame id' hold]
      exact h.magic id' hold
    | inr heq =>
      rw [heq]
      exact ⟨hmade.magic, hmade.dir, hmade.channel, hmade.regs⟩
  . intro k id' hk
    rw [List.getElem?_append] at hk
    split at hk
    . have hmem := List.mem_of_getElem? hk
      rw [hsame id' hmem]
      exact h.bit k id' hk
    . rw [List.getElem?_singleton] at hk
      split at hk
      . next hk' =>
        rw [Option.some.injEq] at hk
        rw [← hk, hmade.irqBitmask, hmade.bypassOffset, h.num]
        have : order.length = k := by omega
        rw [this]
        exact ⟨rfl, rfl⟩
      . contradiction
  . intro dir k hk
    rw [hmade.mask, List.getElem?_append, h.num]
    have hbit := getLsbD_irqBit (n := order.length) hk
    by_cases hlt : k < order.length
    . have hother : k ≠ order.length := by omega
      rw [if_pos hlt, ← h.mask dir k hk]
      split
      . rw [BitVec.getLsbD_or, hbit]
        simp [hother]
      . rfl
    . have hold : (d.maskIrq dir).getLsbD k = false := by
        have hnot := (h.mask dir k hk).not
        rw [List.getElem?_eq_none (by omega)] at hnot
        simpa using hnot
      have hlast : [id][k - order.length]? = if k = order.length then some id else Option.none := by
        rw [List.getElem?_singleton]
        by_cases heq : k = order.length
        . rw [if_pos heq, if_pos (by omega)]
        . rw [if_neg heq, if_neg (by omega)]
      rw [if_neg hlt, hlast]
      by_cases hdir : dir = id.dir
      . rw [if_pos hdir, BitVec.getLsbD_or, hbit, hold]
        by_cases heq : k = order.length <;> simp [heq, hdir]
      . rw [if_neg hdir, hold]
        by_cases heq : k = order.length <;> simp [heq, Ne.symm hdir]
  . intro id' hmem hr
    rw [List.mem_append, List.mem_singleton] at hmem
    cases hmem with
    | inl hold =>
      rw [hsame id' hold]
      exact h.holds id' hold hr
    | inr heq =>
      rw [heq] at hr ⊢
      exact (hready hr).1
  . intro id' hmem hr
    rw [List.mem_append, List.mem_singleton] at hmem
    cases hmem with
    | inl hold =>
      rw [hsame id' hold]
      exact h.none id' hold hr
    | inr heq =>
      rw [heq] at hr ⊢
      exact hnone hr
  . intro hbound id' hmem hr
    have hsmall := hbound id (by simp)
    rw [List.mem_append, List.mem_singleton] at hmem
    cases hmem with
    | inl hold =>
      have hsmall' := hbound id' (by simp [hold])
      rw [hmade.elsewhere _ (fun heq => hne id' hold (engineOffset_inj hsmall' hsmall heq)), hsame id' hold]
      exact h.enabled (fun id₁ h₁ => hbound id₁ (by simp [h₁])) id' hold hr
    | inr heq =>
      rw [heq] at hr ⊢
      exact (hready hr).2

/-- The channels of a direction that are found, of `n` from channel `i` on. -/
def ProbeEnv.channels (env : ProbeEnv) (dir : DmaDataDirection) (n i : Nat) : Nat :=
  ((List.range' i n).takeWhile (fun j => env.ready ⟨dir, j⟩)).length

/-- The engine that ends the probing of a direction because there is no memory for it. -/
def ProbeEnv.orphan (env : ProbeEnv) (dir : DmaDataDirection) (n i : Nat) : List EngineId :=
  if env.channels dir n i < n ∧ env.found ⟨dir, i + env.channels dir n i⟩ = true then
    [⟨dir, i + env.channels dir n i⟩]
  else
    []

/-- The engines of a direction that are set up, in order. -/
def ProbeEnv.made (env : ProbeEnv) (dir : DmaDataDirection) (n i : Nat) : List EngineId :=
  (List.range' i (env.channels dir n i)).map (fun j => ⟨dir, j⟩) ++ env.orphan dir n i

theorem ProbeEnv.channels_succ_of_ready {dir : DmaDataDirection} {n i : Nat}
    (h : env.ready ⟨dir, i⟩ = true)
    : env.channels dir (n + 1) i = env.channels dir n (i + 1) + 1
      ∧ env.made dir (n + 1) i = ⟨dir, i⟩ :: env.made dir n (i + 1) := by
  have hchannels : env.channels dir (n + 1) i = env.channels dir n (i + 1) + 1 := by
    unfold channels
    rw [List.range'_succ, List.takeWhile_cons_of_pos (by exact h), List.length_cons]
  refine ⟨hchannels, ?_⟩
  have hnext : i + (env.channels dir n (i + 1) + 1) = i + 1 + env.channels dir n (i + 1) := by omega
  unfold made orphan
  rw [hchannels, List.range'_succ, List.map_cons, List.cons_append, hnext]
  congr 2
  simp only [Nat.add_lt_add_iff_right]

theorem ProbeEnv.channels_succ_of_not_ready {dir : DmaDataDirection} {n i : Nat}
    (h : env.ready ⟨dir, i⟩ = false)
    : env.channels dir (n + 1) i = 0
      ∧ env.made dir (n + 1) i = if env.found ⟨dir, i⟩ = true then [⟨dir, i⟩] else [] := by
  have hchannels : env.channels dir (n + 1) i = 0 := by
    unfold channels
    rw [List.range'_succ, List.takeWhile_cons_of_neg (by simp [h])]
    rfl
  refine ⟨hchannels, ?_⟩
  unfold made orphan
  rw [hchannels]
  simp

/-- A loop of `probe_engines()` sets up the engines that it is to set up. -/
theorem probeLoop_spec {dir : DmaDataDirection} (n i : Nat) (h : ProbeInv env d order)
    (hnew : ∀ j, i ≤ j → ⟨dir, j⟩ ∉ order)
    : let r := probeLoop env dir n i d
      ProbeInv env r.1 (order ++ env.made dir n i) ∧ r.2 = i + env.channels dir n i
        ∧ r.1.h2cChannelMax = d.h2cChannelMax ∧ r.1.c2hChannelMax = d.c2hChannelMax := by
  induction n generalizing i d order with
  | zero => exact ⟨by simpa [ProbeEnv.made, ProbeEnv.orphan, ProbeEnv.channels, probeLoop] using h, rfl, rfl, rfl⟩
  | succ n ih =>
    have hnot := hnew i (Nat.le_refl i)
    unfold probeLoop probeForEngine
    dsimp only
    have hfound : env.found ⟨dir, i⟩ = true ↔ ¬ (getEngineId (env.identifier (engineOffset ⟨dir, i⟩))
          ≠ engineIdExpected dir
        ∨ (getEngineChannelId (env.identifier (engineOffset ⟨dir, i⟩))).toNat ≠ i) := by
      simp [ProbeEnv.found]
    by_cases hf : env.found ⟨dir, i⟩ = true
    . rw [if_neg (hfound.mp hf)]
      have hspec := engineInit_spec env h.kept (h.zero _ hnot)
      generalize engineInit env d (engineOffset ⟨dir, i⟩) ⟨dir, i⟩ = r at *
      obtain ⟨d', rv⟩ := r
      obtain ⟨hmade, hfits, hsome, hnone⟩ := hspec
      have hready : env.ready ⟨dir, i⟩ = true ↔ rv = none := by
        rw [hfits]
        simp [ProbeEnv.ready, hf]
      have hinv := h.made hmade hnot (fun hr => hsome (hready.mp hr)) (fun hr => hnone (by
        intro heq
        rw [hready.mpr heq] at hr
        contradiction))
      have hmax := hmade.max
      have hh2c := hmax .toDevice
      have hc2h := hmax .fromDevice
      cases rv with
      | some err =>
        have hr : env.ready ⟨dir, i⟩ = false := by
          rw [← Bool.not_eq_true, hready]
          simp
        obtain ⟨hchannels, horder⟩ := ProbeEnv.channels_succ_of_not_ready (n := n) hr
        rw [horder, if_pos hf, hchannels]
        exact ⟨hinv, rfl, hh2c, hc2h⟩
      | none =>
        obtain ⟨hchannels, horder⟩ := ProbeEnv.channels_succ_of_ready (n := n) (hready.mpr rfl)
        have hrest := ih (i + 1) hinv (by
          intro j hj
          rw [List.mem_append, List.mem_singleton, not_or]
          refine ⟨hnew j (by omega), ?_⟩
          intro heq
          cases heq
          omega)
        dsimp only at hrest ⊢
        rw [horder, hchannels]
        rw [List.append_assoc] at hrest
        refine ⟨hrest.1, ?_, hrest.2.2.1.trans hh2c, hrest.2.2.2.trans hc2h⟩
        rw [hrest.2.1]
        omega
    . rw [if_pos (by
        by_contra hcontra
        exact hf (hfound.mpr hcontra))]
      have hr : env.ready ⟨dir, i⟩ = false := by
        rw [Bool.not_eq_true] at hf
        simp [ProbeEnv.ready, hf]
      obtain ⟨hchannels, horder⟩ := ProbeEnv.channels_succ_of_not_ready (n := n) hr
      rw [horder, if_neg hf, List.append_nil, hchannels]
      exact ⟨h, rfl, rfl, rfl⟩

end Probe

section Result

variable (env : ProbeEnv) (h2cMax c2hMax : Nat)

/-- A device that is probed for so many channels. -/
def probedDev : ProbedDev := (ProbedDev.init h2cMax c2hMax).probeEngines env

theorem mem_made {dir : DmaDataDirection} {n i : Nat} {id : EngineId} (h : id ∈ env.made dir n i)
    : id.dir = dir := by
  unfold ProbeEnv.made at h
  rw [List.mem_append, List.mem_map] at h
  cases h with
  | inl h =>
    obtain ⟨j, _, rfl⟩ := h
    rfl
  | inr h =>
    unfold ProbeEnv.orphan at h
    split at h
    . rw [List.mem_singleton] at h
      rw [h]
    . contradiction

theorem probedDev_inv
    : ProbeInv env (probedDev env h2cMax c2hMax)
        (env.made .toDevice h2cMax 0 ++ env.made .fromDevice c2hMax 0)
      ∧ (probedDev env h2cMax c2hMax).h2cChannelMax = env.channels .toDevice h2cMax 0
      ∧ (probedDev env h2cMax c2hMax).c2hChannelMax = env.channels .fromDevice c2hMax 0 := by
  have hfirst := @probeLoop_spec env (.init h2cMax c2hMax) [] .toDevice h2cMax 0
    (.init env h2cMax c2hMax) (by simp)
  unfold probedDev ProbedDev.probeEngines
  generalize hr : probeLoop env .toDevice (ProbedDev.init h2cMax c2hMax).h2cChannelMax 0
    (.init h2cMax c2hMax) = r
  replace hr : probeLoop env .toDevice h2cMax 0 (.init h2cMax c2hMax) = r := hr
  rw [hr] at hfirst
  obtain ⟨d, i⟩ := r
  obtain ⟨hinv, hi, _, hc2h⟩ := hfirst
  replace hc2h : d.c2hChannelMax = c2hMax := hc2h
  dsimp only at hi hinv ⊢
  have hsecond := @probeLoop_spec env { d with h2cChannelMax := i } _ .fromDevice d.c2hChannelMax 0
    (hinv.setMax i d.c2hChannelMax) (by
      intro j _ hmem
      have hdir := mem_made env hmem
      contradiction)
  generalize probeLoop env .fromDevice d.c2hChannelMax 0 { d with h2cChannelMax := i } = r at *
  obtain ⟨d', i'⟩ := r
  obtain ⟨hinv', hi', hmax, _⟩ := hsecond
  dsimp only at hi' hinv' hmax ⊢
  rw [hc2h] at hinv' hi'
  refine ⟨hinv'.setMax d'.h2cChannelMax i', ?_, ?_⟩
  . rw [hmax, hi, Nat.zero_add]
  . rw [hi', Nat.zero_add]

/-- The engine is one of those that the device has. -/
def ProbedDev.Present (d : ProbedDev) (id : EngineId) : Prop := id.channel < d.channelMax id.dir

theorem takeWhile_ready (dir : DmaDataDirection) (n : Nat)
    : (List.range' 0 n).takeWhile (fun j => env.ready ⟨dir, j⟩) = List.range' 0 (env.channels dir n 0)
      ∧ env.channels dir n 0 ≤ n := by
  have hprefix := List.takeWhile_prefix (fun j => env.ready ⟨dir, j⟩) (l := List.range' 0 n)
  have hle : env.channels dir n 0 ≤ n := by
    have := hprefix.length_le
    rwa [List.length_range'] at this
  refine ⟨?_, hle⟩
  have htake := List.prefix_iff_eq_take.mp hprefix
  rw [htake, ← ProbeEnv.channels, List.take_range'_of_length_ge hle]

theorem channel_lt_of_mem_made {dir : DmaDataDirection} {n : Nat} {id : EngineId} (h : id ∈ env.made dir n 0)
    : id.channel < n := by
  have hle := (takeWhile_ready env dir n).2
  unfold ProbeEnv.made at h
  rw [List.mem_append, List.mem_map] at h
  cases h with
  | inl h =>
    obtain ⟨j, hj, rfl⟩ := h
    rw [List.mem_range'_1] at hj
    dsimp only
    omega
  | inr h =>
    unfold ProbeEnv.orphan at h
    split at h
    . next hlt =>
      rw [List.mem_singleton] at h
      rw [h]
      dsimp only
      omega
    . contradiction

theorem ready_of_lt {dir : DmaDataDirection} {n j : Nat} (h : j < env.channels dir n 0)
    : env.ready ⟨dir, j⟩ = true := by
  have hmem : j ∈ (List.range' 0 n).takeWhile (fun j => env.ready ⟨dir, j⟩) := by
    rw [(takeWhile_ready env dir n).1, List.mem_range'_1]
    omega
  exact List.mem_takeWhile_imp (p := fun j => env.ready ⟨dir, j⟩) hmem

theorem not_ready_channels {dir : DmaDataDirection} {n : Nat} (h : env.channels dir n 0 < n)
    : env.ready ⟨dir, env.channels dir n 0⟩ = false := by
  have hsplit := @List.takeWhile_append_dropWhile _ (fun j => env.ready ⟨dir, j⟩) (List.range' 0 n)
  have hlength : (List.range' 0 n)[env.channels dir n 0]? = some (env.channels dir n 0) := by
    rw [List.getElem?_range' h]
    simp
  rw [← hsplit, List.getElem?_append_right (by exact Nat.le_refl _), ← ProbeEnv.channels,
    Nat.sub_self] at hlength
  have hhead := List.head?_dropWhile_not (fun j => env.ready ⟨dir, j⟩) (List.range' 0 n)
  rw [List.head?_eq_getElem?, hlength] at hhead
  simpa using hhead

theorem length_made (dir : DmaDataDirection) (n : Nat)
    : (env.made dir n 0).length = env.channels dir n 0 + (env.orphan dir n 0).length
      ∧ (env.made dir n 0).length ≤ n := by
  have hle := (takeWhile_ready env dir n).2
  unfold ProbeEnv.made ProbeEnv.orphan
  rw [List.length_append, List.length_map, List.length_range']
  refine ⟨rfl, ?_⟩
  split
  . rw [List.length_singleton]
    omega
  . rw [List.length_nil]
    omega

theorem getElem?_made {dir : DmaDataDirection} {n j : Nat} (h : j < env.channels dir n 0)
    : (env.made dir n 0)[j]? = some ⟨dir, j⟩ := by
  unfold ProbeEnv.made
  rw [List.getElem?_append_left (by simpa using h), List.getElem?_map, List.getElem?_range' h]
  simp

/-- The number under which an engine of the device was set up. -/
def ProbeEnv.number (id : EngineId) : Nat :=
  match id.dir with
  | .toDevice => id.channel
  | .fromDevice => (env.made .toDevice h2cMax 0).length + id.channel

theorem getElem?_number {id : EngineId} (h : (probedDev env h2cMax c2hMax).Present id)
    : (env.made .toDevice h2cMax 0 ++ env.made .fromDevice c2hMax 0)[env.number h2cMax id]? = some id
      ∧ env.ready id = true := by
  obtain ⟨_, hh2c, hc2h⟩ := probedDev_inv env h2cMax c2hMax
  obtain ⟨dir, channel⟩ := id
  unfold ProbedDev.Present ProbedDev.channelMax at h
  unfold ProbeEnv.number
  cases dir with
  | toDevice =>
    dsimp only at h ⊢
    rw [hh2c] at h
    have hlt : channel < (env.made .toDevice h2cMax 0).length := by
      rw [(length_made env .toDevice h2cMax).1]
      omega
    rw [List.getElem?_append_left hlt]
    exact ⟨getElem?_made env h, ready_of_lt env h⟩
  | fromDevice =>
    dsimp only at h ⊢
    rw [hc2h] at h
    rw [List.getElem?_append_right (Nat.le_add_right _ _), Nat.add_sub_cancel_left]
    exact ⟨getElem?_made env h, ready_of_lt env h⟩

/-- An engine that was set up is one that the device has, or there was no memory for it. -/
theorem present_iff {id : EngineId}
    (h : id ∈ env.made .toDevice h2cMax 0 ++ env.made .fromDevice c2hMax 0)
    : (probedDev env h2cMax c2hMax).Present id ↔ env.ready id = true := by
  obtain ⟨_, hh2c, hc2h⟩ := probedDev_inv env h2cMax c2hMax
  refine ⟨fun hp => (getElem?_number env h2cMax c2hMax hp).2, ?_⟩
  have hside (dir : DmaDataDirection) (n : Nat) (hmem : id ∈ env.made dir n 0) (hready : env.ready id = true)
      : id.dir = dir ∧ id.channel < env.channels dir n 0 := by
    unfold ProbeEnv.made at hmem
    rw [List.mem_append, List.mem_map] at hmem
    cases hmem with
    | inl hmem =>
      obtain ⟨j, hj, rfl⟩ := hmem
      rw [List.mem_range'_1] at hj
      exact ⟨rfl, by dsimp only; omega⟩
    | inr hmem =>
      unfold ProbeEnv.orphan at hmem
      split at hmem
      . next hlt =>
        rw [List.mem_singleton] at hmem
        subst hmem
        rw [Nat.zero_add, not_ready_channels env hlt.1] at hready
        contradiction
      . contradiction
  intro hready
  unfold ProbedDev.Present
  rw [List.mem_append] at h
  cases h with
  | inl h =>
    obtain ⟨hdir, hlt⟩ := hside _ _ h hready
    rw [hdir]
    exact hlt.trans_eq hh2c.symm
  | inr h =>
    obtain ⟨hdir, hlt⟩ := hside _ _ h hready
    rw [hdir]
    exact hlt.trans_eq hc2h.symm

theorem irqBit_and_irqBit {n k : Nat} (hne : n ≠ k)
    : irqBit n &&& irqBit k = 0 := by
  apply BitVec.eq_of_getLsbD_eq
  intro i hi
  rw [BitVec.getLsbD_and, getLsbD_irqBit hi, getLsbD_irqBit hi]
  by_cases h : i = n
  . simp [h, hne]
  . simp [h]

theorem irqBit_ne_zero {n : Nat} (hn : n < 32)
    : irqBit n ≠ 0 := by
  intro h
  have hbit := getLsbD_irqBit (n := n) hn
  rw [h] at hbit
  simp at hbit

/-- The interrupt bit of an engine, in the masks of the directions. -/
theorem irqBit_and {w : BitVec 32} {n : Nat} (hn : n < 32)
    : irqBit n &&& w = if w.getLsbD n then irqBit n else 0 := by
  apply BitVec.eq_of_getLsbD_eq
  intro i hi
  rw [BitVec.getLsbD_and, getLsbD_irqBit hi]
  by_cases h : i = n
  . subst h
    split
    . next hw => simp [getLsbD_irqBit hi, hw]
    . next hw => simp [hw]
  . split
    . simp [getLsbD_irqBit hi, h]
    . simp [h]

theorem number_lt (hh : h2cMax ≤ xdmaChannelNumMax) (hc : c2hMax ≤ xdmaChannelNumMax) {id : EngineId}
    (h : (probedDev env h2cMax c2hMax).Present id)
    : env.number h2cMax id < 8 := by
  have hget := (getElem?_number env h2cMax c2hMax h).1
  have hlt := (List.getElem?_eq_some_iff.mp hget).1
  have hleft := (length_made env .toDevice h2cMax).2
  have hright := (length_made env .fromDevice c2hMax).2
  unfold xdmaChannelNumMax at hh hc
  rw [List.length_append] at hlt
  omega

theorem number_inj {id id' : EngineId} (h : (probedDev env h2cMax c2hMax).Present id)
    (h' : (probedDev env h2cMax c2hMax).Present id') (heq : env.number h2cMax id = env.number h2cMax id')
    : id = id' := by
  have hget := (getElem?_number env h2cMax c2hMax h).1
  have hget' := (getElem?_number env h2cMax c2hMax h').1
  rw [heq, hget', Option.some.injEq] at hget
  exact hget.symm

variable {id : EngineId}

/-- An engine of the device is set up, with what it needs. -/
theorem probedDev_setup (h : (probedDev env h2cMax c2hMax).Present id)
    : let e := (probedDev env h2cMax c2hMax).engine id
      e.magic = true ∧ e.dir = id.dir ∧ e.channel = id.channel ∧ e.regs = engineOffset id
        ∧ (∀ b, e.buf b = true ↔ b ∈ env.needs id) ∧ e.cmplthp = env.pollMode := by
  obtain ⟨hinv, _, _⟩ := probedDev_inv env h2cMax c2hMax
  obtain ⟨hget, hready⟩ := getElem?_number env h2cMax c2hMax h
  have hmem := List.mem_of_getElem? hget
  obtain ⟨hmagic, hdir, hchannel, hregs⟩ := hinv.magic id hmem
  exact ⟨hmagic, hdir, hchannel, hregs, hinv.holds id hmem hready⟩

theorem channel_lt_of_mem (hh : h2cMax ≤ xdmaChannelNumMax) (hc : c2hMax ≤ xdmaChannelNumMax)
    (h : id ∈ env.made .toDevice h2cMax 0 ++ env.made .fromDevice c2hMax 0)
    : id.channel < xdmaChannelNumMax := by
  rw [List.mem_append] at h
  cases h with
  | inl h => exact (channel_lt_of_mem_made env h).trans_le hh
  | inr h => exact (channel_lt_of_mem_made env h).trans_le hc

theorem probedDev_channel_lt (hh : h2cMax ≤ xdmaChannelNumMax) (hc : c2hMax ≤ xdmaChannelNumMax)
    (h : (probedDev env h2cMax c2hMax).Present id)
    : id.channel < xdmaChannelNumMax :=
  channel_lt_of_mem env h2cMax c2hMax hh hc
    (List.mem_of_getElem? (getElem?_number env h2cMax c2hMax h).1)

/-- The interrupts of an engine of the device are enabled in its registers. -/
theorem probedDev_enabled (hh : h2cMax ≤ xdmaChannelNumMax) (hc : c2hMax ≤ xdmaChannelNumMax)
    (h : (probedDev env h2cMax c2hMax).Present id)
    : (probedDev env h2cMax c2hMax).interruptEnableMask (engineOffset id)
        = ((probedDev env h2cMax c2hMax).engine id).interruptEnableMaskValue := by
  obtain ⟨hinv, _, _⟩ := probedDev_inv env h2cMax c2hMax
  obtain ⟨hget, hready⟩ := getElem?_number env h2cMax c2hMax h
  refine hinv.enabled ?_ id (List.mem_of_getElem? hget) hready
  intro id' hmem
  have hlt := channel_lt_of_mem env h2cMax c2hMax hh hc hmem
  unfold xdmaChannelNumMax at hlt
  omega

theorem probedDev_bit (h : (probedDev env h2cMax c2hMax).Present id)
    : ((probedDev env h2cMax c2hMax).engine id).irqBitmask = irqBit (env.number h2cMax id)
      ∧ ((probedDev env h2cMax c2hMax).engine id).bypassOffset = env.number h2cMax id * 0x100 :=
  (probedDev_inv env h2cMax c2hMax).1.bit _ id (getElem?_number env h2cMax c2hMax h).1

/-- No two engines of the device share an interrupt bit. -/
theorem probedDev_bits {id' : EngineId} (h : (probedDev env h2cMax c2hMax).Present id)
    (h' : (probedDev env h2cMax c2hMax).Present id') (hne : id ≠ id')
    : ((probedDev env h2cMax c2hMax).engine id).irqBitmask
        &&& ((probedDev env h2cMax c2hMax).engine id').irqBitmask = 0 := by
  rw [(probedDev_bit env h2cMax c2hMax h).1, (probedDev_bit env h2cMax c2hMax h').1]
  exact irqBit_and_irqBit (fun heq => hne (number_inj env h2cMax c2hMax h h' heq))

/-- The interrupt bit of an engine of the device is in the mask of its direction, and of no other. -/
theorem probedDev_mask (hh : h2cMax ≤ xdmaChannelNumMax) (hc : c2hMax ≤ xdmaChannelNumMax)
    (h : (probedDev env h2cMax c2hMax).Present id)
    : let d := probedDev env h2cMax c2hMax
      (d.engine id).irqBitmask ≠ 0 ∧ ∀ dir,
        (d.engine id).irqBitmask &&& d.maskIrq dir = if dir = id.dir then (d.engine id).irqBitmask else 0 := by
  have hsmall := number_lt env h2cMax c2hMax hh hc h
  dsimp only
  rw [(probedDev_bit env h2cMax c2hMax h).1]
  refine ⟨irqBit_ne_zero (by omega), ?_⟩
  intro dir
  have hmask := (probedDev_inv env h2cMax c2hMax).1.mask dir (env.number h2cMax id) (by omega)
  rw [(getElem?_number env h2cMax c2hMax h).1] at hmask
  rw [irqBit_and (by omega)]
  by_cases hdir : dir = id.dir
  . rw [if_pos hdir, if_pos (hmask.mpr ⟨id, rfl, hdir.symm⟩)]
  . rw [if_neg hdir, if_neg (by
      rw [hmask]
      rintro ⟨id', heq, hdir'⟩
      rw [Option.some.injEq] at heq
      exact hdir (heq ▸ hdir'.symm))]

theorem probedDev_channels
    : (probedDev env h2cMax c2hMax).h2cChannelMax = probeEngines (fun i => env.ready ⟨.toDevice, i⟩) h2cMax
      ∧ (probedDev env h2cMax c2hMax).c2hChannelMax
          = probeEngines (fun i => env.ready ⟨.fromDevice, i⟩) c2hMax := by
  obtain ⟨_, hh2c, hc2h⟩ := probedDev_inv env h2cMax c2hMax
  rw [hh2c, hc2h]
  unfold ProbeEnv.channels probeEngines
  rw [List.range_eq_range', List.range_eq_range']
  exact ⟨rfl, rfl⟩

/--
What probing settles: as many channels as the engines that are found from the first one on, each set up with
what it needs, and with an interrupt bit of its direction and a window of the bypass BAR of its own.
-/
structure EnginesProbed (d : ProbedDev) : Prop where
  h2cChannels : d.h2cChannelMax = probeEngines (fun i => env.ready ⟨.toDevice, i⟩) h2cMax
  c2hChannels : d.c2hChannelMax = probeEngines (fun i => env.ready ⟨.fromDevice, i⟩) c2hMax
  setup : ∀ id, d.Present id → (d.engine id).magic = true ∧ (d.engine id).dir = id.dir
    ∧ (d.engine id).channel = id.channel ∧ (d.engine id).regs = engineOffset id
    ∧ (∀ b, (d.engine id).buf b = true ↔ b ∈ env.needs id) ∧ (d.engine id).cmplthp = env.pollMode
  enabled : ∀ id, d.Present id →
    d.interruptEnableMask (engineOffset id) = (d.engine id).interruptEnableMaskValue
  bits : ∀ id id', d.Present id → d.Present id' → id ≠ id' →
    (d.engine id).irqBitmask &&& (d.engine id').irqBitmask = 0
  mask : ∀ id, d.Present id → (d.engine id).irqBitmask ≠ 0 ∧ ∀ dir,
    (d.engine id).irqBitmask &&& d.maskIrq dir = if dir = id.dir then (d.engine id).irqBitmask else 0
  windows : ∀ id id', d.Present id → d.Present id' → id ≠ id' →
    (d.engine id).bypassOffset + 0x100 ≤ (d.engine id').bypassOffset
      ∨ (d.engine id').bypassOffset + 0x100 ≤ (d.engine id).bypassOffset

/--
A device with two H2C engines, where there is no memory for the second one, and one C2H engine that is
attached to a stream.
-/
def twoEngines : ProbeEnv where
  pollMode := true
  enableCreditMp := true
  identifier := fun offset =>
    if offset = 0 then 0x1fc00000 else if offset = 0x100 then 0x1fc00100
      else if offset = 0x1000 then 0x1fc18000 else 0
  alignments := fun _ => 0
  dmaAllocCoherent := fun id b => id != ⟨.toDevice, 1⟩ || b == .desc

end Result

section Remove

variable (env : ProbeEnv) {d : ProbedDev} {id : EngineId}

theorem ProbedDev.KeptBut.congr {lost : EngineId → Prop} {d' : ProbedDev} (h : d.KeptBut lost)
    (hengine : d'.engine = d.engine) (hcalls : d'.calls = d.calls)
    : d'.KeptBut lost := by
  unfold ProbedDev.KeptBut
  rw [hcalls]
  refine Tracks.congr h ?_
  intro r
  unfold ProbedDev.owns
  rw [hengine]

theorem removeWork_spec {lost : EngineId → Prop} (h : d.KeptBut lost) (hlost : ¬ lost id)
    : (removeWork d id).KeptBut lost ∧ removeWork d id = { d with
        engine := Function.update d.engine id { d.engine id with cmplthp := false }
        calls := (removeWork d id).calls } := by
  unfold removeWork
  split
  . next hwork =>
    refine ⟨Tracks.release h (r := .work id) (.inl hwork) ?_, rfl⟩
    intro q
    unfold ProbedDev.owns ProbedDev.setEngine
    cases q with
    | buf id' b =>
      by_cases heq : id' = id <;> simp [heq]
    | work id' =>
      by_cases heq : id' = id
      . simp [heq, hlost]
      . simp [heq]
  . next hwork =>
    rw [Bool.not_eq_true] at hwork
    refine ⟨h, ?_⟩
    rw [← hwork, Function.update_eq_self]

/-- The work of an engine is lost when it is destroyed after poll mode was turned off. -/
def ProbeEnv.loses (d : ProbedDev) (id : EngineId) : Prop :=
  (d.engine id).cmplthp = true ∧ env.pollMode = false

/-- The work of an engine is removed in poll mode. -/
theorem removeWork_poll_spec {lost : EngineId → Prop} (h : d.KeptBut lost) (hlost : ¬ lost id)
    : let d' := if env.pollMode then removeWork d id else d
      d'.KeptBut lost ∧ (env.loses d id ↔ (d'.engine id).cmplthp = true) ∧ d' = { d with
        engine := Function.update d.engine id { d.engine id with cmplthp := (d'.engine id).cmplthp }
        calls := d'.calls } := by
  unfold ProbeEnv.loses
  cases env.pollMode with
  | true =>
    obtain ⟨hkept, heq⟩ := removeWork_spec h hlost
    have hwork : ((removeWork d id).engine id).cmplthp = false := by
      rw [heq]
      simp
    dsimp only
    rw [if_pos rfl, hwork]
    exact ⟨hkept, by simp, heq⟩
  | false =>
    dsimp only
    rw [if_neg Bool.false_ne_true]
    refine ⟨h, by simp, ?_⟩
    rw [Function.update_eq_self]

/--
Destroying an engine clears it and its interrupt mask, and gives back what it holds, except for the work that
is lost.
-/
theorem engineDestroy_spec {lost : EngineId → Prop} (h : d.KeptBut lost) (hlost : ¬ lost id)
    : (engineDestroy env d id).KeptBut (fun id' => lost id' ∨ id' = id ∧ env.loses d id)
      ∧ ∃ credit, engineDestroy env d id = { d with
        engine := Function.update d.engine id .zero
        interruptEnableMask := Function.update d.interruptEnableMask (d.engine id).regs 0
        creditModeEnable := credit
        enginesNum := d.enginesNum - 1
        calls := (engineDestroy env d id).calls } := by
  unfold engineDestroy
  dsimp only
  generalize hd₂ : (if usesCredit env (d.engine id) then
    ({ d with
      interruptEnableMask := Function.update d.interruptEnableMask (d.engine id).regs 0
      creditModeEnable := d.creditModeEnable &&& ~~~creditBit (d.engine id).channel } : ProbedDev)
    else { d with
      interruptEnableMask := Function.update d.interruptEnableMask (d.engine id).regs 0 }) = d₂
  have heq₂ : ∃ credit, d₂ = { d with
      interruptEnableMask := Function.update d.interruptEnableMask (d.engine id).regs 0
      creditModeEnable := credit } := by
    rw [← hd₂]
    split
    . exact ⟨_, rfl⟩
    . exact ⟨_, rfl⟩
  obtain ⟨credit, heq₂⟩ := heq₂
  have hkept₂ : d₂.KeptBut lost := h.congr (by rw [heq₂]) (by rw [heq₂])
  have hloses : env.loses d₂ id ↔ env.loses d id := by
    rw [heq₂]
    rfl
  obtain ⟨hkept₃, hwork, heq₃⟩ := removeWork_poll_spec env hkept₂ hlost
  generalize (if env.pollMode then removeWork d₂ id else d₂) = d₃ at *
  obtain ⟨hchanged, hkept₄, hbuf⟩ := @engineFreeResource_spec _ id _ hkept₃
  have heq₄ := hchanged.eq
  have hcmplthp := hchanged.cmplthp
  generalize engineFreeResource d₃ id = d₄ at *
  refine ⟨?_, credit, ?_⟩
  . refine Tracks.congr hkept₄ ?_
    intro r
    cases r with
    | buf id' b =>
      unfold ProbedDev.owns ProbedDev.setEngine
      by_cases heq : id' = id
      . simp [heq, hbuf, EngineSlot.zero]
      . simp [heq]
    | work id' =>
      unfold ProbedDev.owns ProbedDev.setEngine
      by_cases heq : id' = id
      . rw [← hloses, hwork, ← hcmplthp]
        simp [heq, EngineSlot.zero, or_comm]
      . simp [heq]
  . rw [heq₄, heq₃, heq₂]
    simp [ProbedDev.setEngine]

/-- A loop of `remove_engines()` over engines that are there destroys them all. -/
theorem removeLoop_spec {dir : DmaDataDirection} (n i : Nat) {lost : EngineId → Prop} (h : d.KeptBut lost)
    (hthere : ∀ j, i ≤ j → j < i + n → (d.engine ⟨dir, j⟩).magic = true ∧ ¬ lost ⟨dir, j⟩)
    : let d' := removeLoop env dir n i d
      let among := fun id : EngineId => id.dir = dir ∧ i ≤ id.channel ∧ id.channel < i + n
      d'.KeptBut (fun id => lost id ∨ among id ∧ env.loses d id)
        ∧ (∀ id, among id → d'.engine id = .zero) ∧ (∀ id, ¬ among id → d'.engine id = d.engine id)
        ∧ (∀ id, among id → d'.interruptEnableMask (d.engine id).regs = 0)
        ∧ (∀ offset, d.interruptEnableMask offset = 0 → d'.interruptEnableMask offset = 0)
        ∧ d'.enginesNum = d.enginesNum - n
        ∧ d'.h2cChannelMax = d.h2cChannelMax ∧ d'.c2hChannelMax = d.c2hChannelMax := by
  induction n generalizing i d lost with
  | zero =>
    have hnone (id : EngineId) : ¬ (id.dir = dir ∧ i ≤ id.channel ∧ id.channel < i + 0) := by omega
    refine ⟨?_, ?_, fun _ _ => rfl, ?_, fun _ hzero => hzero, rfl, rfl, rfl⟩
    . refine Tracks.congr h ?_
      intro r
      simp only [hnone, false_and, or_false]
      rfl
    . intro id hamong
      exact absurd hamong (hnone id)
    . intro id hamong
      exact absurd hamong (hnone id)
  | succ n ih =>
    obtain ⟨hmagic, hlost⟩ := hthere i (Nat.le_refl i) (by omega)
    obtain ⟨hkept, credit, heq⟩ := engineDestroy_spec env h hlost
    unfold removeLoop
    rw [if_pos hmagic]
    generalize engineDestroy env d ⟨dir, i⟩ = d₁ at *
    have hself : d₁.engine ⟨dir, i⟩ = .zero := by
      rw [heq]
      exact Function.update_self _ _ _
    have hother : ∀ id ≠ ⟨dir, i⟩, d₁.engine id = d.engine id := by
      intro id hne
      rw [heq]
      exact Function.update_of_ne hne _ _
    have hne : ∀ j, i + 1 ≤ j → (⟨dir, j⟩ : EngineId) ≠ ⟨dir, i⟩ := by
      intro j hj heq'
      rw [EngineId.mk.injEq] at heq'
      omega
    obtain ⟨hkept', hzero, hrest, hmask, hstays, hnum, hh2c, hc2h⟩ := ih (i + 1) hkept (by
      intro j hj hlt
      obtain ⟨hmagic', hlost'⟩ := hthere j (by omega) (by omega)
      rw [hother _ (hne j hj)]
      refine ⟨hmagic', ?_⟩
      rintro (hl | ⟨heq', _⟩)
      . exact hlost' hl
      . exact hne j hj heq')
    -- the engines of the loop are this one and those of the rest
    have hamong (id : EngineId) : id.dir = dir ∧ i ≤ id.channel ∧ id.channel < i + (n + 1)
        ↔ id = ⟨dir, i⟩ ∨ id.dir = dir ∧ i + 1 ≤ id.channel ∧ id.channel < i + 1 + n := by
      obtain ⟨dir', j⟩ := id
      rw [EngineId.mk.injEq]
      dsimp only
      constructor
      . rintro ⟨hdir, hle, hlt⟩
        by_cases hj : j = i
        . exact .inl ⟨hdir, hj⟩
        . exact .inr ⟨hdir, by omega, by omega⟩
      . rintro (⟨hdir, hj⟩ | ⟨hdir, hle, hlt⟩)
        . exact ⟨hdir, by omega, by omega⟩
        . exact ⟨hdir, by omega, by omega⟩
    have hnot : ¬ (dir = dir ∧ i + 1 ≤ i ∧ i < i + 1 + n) := by omega
    dsimp only
    refine ⟨?_, ?_, ?_, ?_, ?_, ?_, ?_, ?_⟩
    . refine Tracks.congr hkept' ?_
      intro r
      refine or_congr_right (exists_congr ?_)
      intro id
      refine and_congr_left' ?_
      dsimp only
      rw [hamong, or_assoc]
      refine or_congr_right ?_
      by_cases hid : id = ⟨dir, i⟩
      . subst hid
        simp
      . unfold ProbeEnv.loses
        rw [hother id hid]
        simp [hid]
    . intro id hid
      rw [hamong] at hid
      cases hid with
      | inl hid =>
        rw [hid, hrest _ (by exact hnot), hself]
      | inr hid => exact hzero id hid
    . intro id hid
      rw [hamong, not_or] at hid
      rw [hrest id hid.2, hother id hid.1]
    . intro id hid
      by_cases hid' : id = ⟨dir, i⟩
      . apply hstays
        rw [hid', heq]
        exact Function.update_self _ _ _
      . rw [← hother id hid']
        exact hmask id (((hamong id).mp hid).resolve_left hid')
    . intro offset hz
      apply hstays
      rw [heq]
      by_cases hoffset : offset = (d.engine ⟨dir, i⟩).regs
      . rw [hoffset]
        exact Function.update_self _ _ _
      . exact (Function.update_of_ne hoffset _ _).trans hz
    . rw [hnum, heq]
      dsimp only
      omega
    . rw [hh2c, heq]
    . rw [hc2h, heq]

/--
What removing the engines leaves: every engine of the device is cleared and its interrupts are masked, and
of all that probing acquired, only the work of the engines is left if poll mode was turned off meanwhile.
-/
structure EnginesRemoved (env env' : ProbeEnv) (d d' : ProbedDev) : Prop where
  sound : Sound d'.calls
  held : ∀ r, r ∈ held d'.calls ↔
    ∃ id, r = .work id ∧ d.Present id ∧ env.pollMode = true ∧ env'.pollMode = false
  cleared : ∀ id, d.Present id → d'.engine id = .zero ∧ d'.interruptEnableMask (engineOffset id) = 0

/-- The work of the engines of the device is there in poll mode, and there alone. -/
theorem loses_iff (env env' : ProbeEnv) (h2cMax c2hMax : Nat) {id : EngineId}
    (h : (probedDev env h2cMax c2hMax).Present id)
    : env'.loses (probedDev env h2cMax c2hMax) id ↔ env.pollMode = true ∧ env'.pollMode = false := by
  obtain ⟨hinv, _, _⟩ := probedDev_inv env h2cMax c2hMax
  obtain ⟨hget, hready⟩ := getElem?_number env h2cMax c2hMax h
  unfold ProbeEnv.loses
  rw [(hinv.holds id (List.mem_of_getElem? hget) hready).2]

/-- Only the engines of the device hold something after the probe. -/
theorem present_of_owns (env : ProbeEnv) (h2cMax c2hMax : Nat) {id : EngineId}
    (h : (∃ b, ((probedDev env h2cMax c2hMax).engine id).buf b = true)
      ∨ ((probedDev env h2cMax c2hMax).engine id).cmplthp = true)
    : (probedDev env h2cMax c2hMax).Present id := by
  obtain ⟨hinv, _, _⟩ := probedDev_inv env h2cMax c2hMax
  by_cases hmem : id ∈ env.made .toDevice h2cMax 0 ++ env.made .fromDevice c2hMax 0
  . rw [present_iff env h2cMax c2hMax hmem]
    by_contra hready
    rw [Bool.not_eq_true] at hready
    obtain ⟨hbuf, hwork⟩ := hinv.none id hmem hready
    rw [hwork] at h
    simp [hbuf] at h
  . rw [hinv.zero id hmem] at h
    simp [EngineSlot.zero] at h

/-- Both loops together destroy every engine of the device, and no other. -/
theorem removeEngines_loops (env env' : ProbeEnv) (h2cMax c2hMax : Nat)
    : let d := probedDev env h2cMax c2hMax
      let d' := d.removeEngines env'
      d'.KeptBut (fun id => d.Present id ∧ env'.loses d id)
        ∧ (∀ id, d.Present id → d'.engine id = .zero ∧ d'.interruptEnableMask (engineOffset id) = 0)
        ∧ ∀ id, ¬ d.Present id → d'.engine id = d.engine id := by
  obtain ⟨hinv, _, _⟩ := probedDev_inv env h2cMax c2hMax
  have hset (id : EngineId) (h : (probedDev env h2cMax c2hMax).Present id)
      : ((probedDev env h2cMax c2hMax).engine id).magic = true
        ∧ ((probedDev env h2cMax c2hMax).engine id).regs = engineOffset id := by
    have hmagic := hinv.magic id (List.mem_of_getElem? (getElem?_number env h2cMax c2hMax h).1)
    exact ⟨hmagic.1, hmagic.2.2.2⟩
  unfold ProbedDev.removeEngines
  generalize probedDev env h2cMax c2hMax = d at *
  dsimp only
  obtain ⟨hkept, hzero, hrest, hmask, _, _, hh2c, hc2h⟩ :=
    @removeLoop_spec env' d .toDevice d.h2cChannelMax 0 (fun _ => False)
      ((ProbedDev.kept_iff d).mpr hinv.kept) (by
        intro j _ hlt
        rw [Nat.zero_add] at hlt
        exact ⟨(hset ⟨.toDevice, j⟩ hlt).1, not_false⟩)
  generalize removeLoop env' .toDevice d.h2cChannelMax 0 d = d₁ at *
  have hside (j : Nat) : d₁.engine ⟨.fromDevice, j⟩ = d.engine ⟨.fromDevice, j⟩ := by
    apply hrest
    simp
  obtain ⟨hkept', hzero', hrest', hmask', hstays', _, _, _⟩ :=
    @removeLoop_spec env' d₁ .fromDevice d.c2hChannelMax 0 _ hkept (by
      intro j _ hlt
      rw [Nat.zero_add] at hlt
      rw [hside]
      exact ⟨(hset ⟨.fromDevice, j⟩ hlt).1, by simp⟩)
  generalize removeLoop env' .fromDevice d.c2hChannelMax 0 d₁ = d₂ at *
  -- an engine of the device is in the one loop or in the other
  have hamong (id : EngineId) : d.Present id
      ↔ (id.dir = .toDevice ∧ 0 ≤ id.channel ∧ id.channel < 0 + d.h2cChannelMax)
        ∨ id.dir = .fromDevice ∧ 0 ≤ id.channel ∧ id.channel < 0 + d.c2hChannelMax := by
    obtain ⟨dir, channel⟩ := id
    unfold ProbedDev.Present
    cases dir <;> simp [ProbedDev.channelMax]
  -- what is lost of an engine of the second loop is what was noted before the first one
  have hloses (id : EngineId) (hdir : id.dir = .fromDevice) : env'.loses d₁ id ↔ env'.loses d id := by
    obtain ⟨dir, channel⟩ := id
    dsimp only at hdir
    subst hdir
    unfold ProbeEnv.loses
    rw [hside]
  refine ⟨?_, ?_, ?_⟩
  . refine Tracks.congr hkept' ?_
    intro r
    refine or_congr_right (exists_congr ?_)
    intro id
    refine and_congr_left' ?_
    dsimp only
    rw [hamong, or_and_right, false_or]
    refine or_congr_right (and_congr_right ?_)
    intro hin
    exact (hloses id hin.1).symm
  . intro id h
    obtain ⟨dir, channel⟩ := id
    cases (hamong _).mp h with
    | inl hin =>
      obtain ⟨hdir, hin⟩ := hin
      dsimp only at hdir
      subst hdir
      refine ⟨?_, hstays' _ ?_⟩
      . rw [hrest' _ (by simp)]
        exact hzero _ ⟨rfl, hin⟩
      . rw [← (hset _ h).2]
        exact hmask _ ⟨rfl, hin⟩
    | inr hin =>
      obtain ⟨hdir, hin⟩ := hin
      dsimp only at hdir
      subst hdir
      refine ⟨hzero' _ ⟨rfl, hin⟩, ?_⟩
      rw [← (hset _ h).2, ← hside]
      exact hmask' _ ⟨rfl, hin⟩
  . intro id h
    have hout := (hamong id).not.mp h
    rw [not_or] at hout
    rw [hrest' id hout.2, hrest id hout.1]

theorem removeEngines_held (env env' : ProbeEnv) (h2cMax c2hMax : Nat)
    : let d := probedDev env h2cMax c2hMax
      let d' := d.removeEngines env'
      Sound d'.calls ∧ ∀ r, r ∈ held d'.calls ↔
        ∃ id, r = .work id ∧ d.Present id ∧ env.pollMode = true ∧ env'.pollMode = false := by
  have hloses := fun id => @loses_iff env env' h2cMax c2hMax id
  have howns := fun id => @present_of_owns env h2cMax c2hMax id
  obtain ⟨hkept, hcleared, hrest⟩ := removeEngines_loops env env' h2cMax c2hMax
  generalize probedDev env h2cMax c2hMax = d at *
  have hgone (id : EngineId) : (∀ b, ((d.removeEngines env').engine id).buf b = false)
      ∧ ((d.removeEngines env').engine id).cmplthp = false := by
    by_cases h : d.Present id
    . rw [(hcleared id h).1]
      exact ⟨fun _ => rfl, rfl⟩
    . rw [hrest id h]
      have hnot := mt (howns id) h
      rw [not_or, not_exists] at hnot
      simpa using hnot
  refine ⟨hkept.sound, ?_⟩
  intro r
  rw [hkept.mem]
  constructor
  . rintro (hown | ⟨id, ⟨h, hlost⟩, rfl⟩)
    . cases r with
      | buf id b => exact absurd hown (by simp [ProbedDev.owns, (hgone id).1 b])
      | work id => exact absurd hown (by simp [ProbedDev.owns, (hgone id).2])
    . exact ⟨id, rfl, h, (hloses id h).mp hlost⟩
  . rintro ⟨id, rfl, h, hmodes⟩
    exact .inr ⟨id, ⟨h, (hloses id h).mpr hmodes⟩, rfl⟩

/-- The driver holds the buffers that the engines of the device need, and in poll mode their work. -/
theorem probedDev_held (env : ProbeEnv) (h2cMax c2hMax : Nat)
    : let d := probedDev env h2cMax c2hMax
      Sound d.calls ∧ ∀ r, r ∈ held d.calls ↔ ∃ id, d.Present id
        ∧ ((∃ b ∈ env.needs id, r = .buf id b) ∨ (r = .work id ∧ env.pollMode = true)) := by
  have howns := fun id => @present_of_owns env h2cMax c2hMax id
  have hkept : (probedDev env h2cMax c2hMax).Kept := (probedDev_inv env h2cMax c2hMax).1.kept
  refine ⟨hkept.sound, ?_⟩
  intro r
  rw [hkept.mem]
  cases r with
  | buf id b =>
    constructor
    . intro hown
      have h := howns id (.inl ⟨b, hown⟩)
      have hneeds := (probedDev_setup env h2cMax c2hMax h).2.2.2.2.1 b
      exact ⟨id, h, .inl ⟨b, hneeds.mp hown, rfl⟩⟩
    . rintro ⟨id', h, ⟨b', hb, heq⟩ | ⟨heq, _⟩⟩
      . obtain ⟨rfl, rfl⟩ := EngineRes.buf.inj heq
        exact ((probedDev_setup env h2cMax c2hMax h).2.2.2.2.1 b).mpr hb
      . contradiction
  | work id =>
    constructor
    . intro hown
      have h := howns id (.inr hown)
      have hwork := (probedDev_setup env h2cMax c2hMax h).2.2.2.2.2
      exact ⟨id, h, .inr ⟨rfl, hwork.symm.trans hown⟩⟩
    . rintro ⟨id', h, ⟨b', _, heq⟩ | ⟨heq, hpoll⟩⟩
      . contradiction
      . obtain rfl := EngineRes.work.inj heq
        exact (probedDev_setup env h2cMax c2hMax h).2.2.2.2.2.trans hpoll

theorem removeEngines_spec (env env' : ProbeEnv) (h2cMax c2hMax : Nat)
    : EnginesRemoved env env' (probedDev env h2cMax c2hMax)
        ((probedDev env h2cMax c2hMax).removeEngines env') := by
  obtain ⟨_, hcleared, _⟩ := removeEngines_loops env env' h2cMax c2hMax
  obtain ⟨hsound, hheld⟩ := removeEngines_held env env' h2cMax c2hMax
  exact ⟨hsound, hheld, hcleared⟩

end Remove

end Xdma
