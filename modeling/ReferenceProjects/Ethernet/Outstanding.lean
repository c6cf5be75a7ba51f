import ReferenceProjects.Ethernet.Lemmas.System

/-!
This module contains the rules of the AXI-Lite bus that `ethernet_flow_cntrl` keeps as its master, for
every timing of the slave.
-/

namespace Ethernet

open Handshake (Channel)

/-- What is offered on a channel is offered until it is taken. -/
def Channel.Stable (c c' : Channel (BitVec 32)) (ready : Bool) : Prop :=
  c.valid = true → ready = false → c'.valid = true ∧ c'.payload = c.payload

/-- `t` counts the handshakes of one write more than `t₀`. -/
def Tally.OneWrite (t₀ t : Tally) : Prop :=
  t = { t₀ with aw := t₀.aw + 1, w := t₀.w + 1, b := t₀.b + 1 }

/-- `t` counts the handshakes of one read more than `t₀`. -/
def Tally.OneRead (t₀ t : Tally) : Prop := t = { t₀ with ar := t₀.ar + 1, r := t₀.r + 1 }

/-- Address and data of a write are offered, or were transferred and the response was not. -/
def Sys.WriteOutstanding (s : Sys) : Prop :=
  s.regs.aw.valid = true ∨ s.regs.w.valid = true ∨ s.mon.tally.b < s.mon.tally.aw
    ∨ s.mon.tally.b < s.mon.tally.w

def Sys.ReadOutstanding (s : Sys) : Prop :=
  s.regs.ar.valid = true ∨ s.mon.tally.r < s.mon.tally.ar

/-- What holds in every state. -/
structure Sys.Exclusive (s : Sys) : Prop where
  one : ¬ (s.WriteOutstanding ∧ s.ReadOutstanding)
  idle : s.regs.axiAccessSm = .idle → Quiet s.regs

/-- What holds of every clock. -/
structure MasterStep (s : Sys) (i : Inputs) (s' : Sys) : Prop where
  aw : Channel.Stable s.regs.aw s'.regs.aw i.awready
  w : Channel.Stable s.regs.w s'.regs.w i.wready
  ar : Channel.Stable s.regs.ar s'.regs.ar i.arready
  write : s.regs.axiAccessSm = .write → s'.regs.axiAccessSm ≠ .write →
    Tally.OneWrite s'.mon.base s'.mon.tally
  read : s.regs.axiAccessSm = .read → s'.regs.axiAccessSm ≠ .read →
    Tally.OneRead s'.mon.base s'.mon.tally

/-- As many handshakes on each channel of an access. -/
structure Tally.Balanced (t : Tally) : Prop where
  aw : t.aw = t.b
  w : t.w = t.b
  ar : t.ar = t.r

/-- The handshakes of the current write are the ones that the status bits remember. -/
structure WriteTally (s : Regs) (m : Monitor) : Prop where
  base : m.base.Balanced
  aw : m.tally.aw = m.base.aw + s.aw.status.toNat
  w : m.tally.w = m.base.w + s.w.status.toNat
  b : m.tally.b = m.base.b + s.b.status.toNat
  ar : m.tally.ar = m.base.ar
  r : m.tally.r = m.base.r

structure ReadTally (s : Regs) (m : Monitor) : Prop where
  base : m.base.Balanced
  aw : m.tally.aw = m.base.aw
  w : m.tally.w = m.base.w
  b : m.tally.b = m.base.b
  ar : m.tally.ar = m.base.ar + s.ar.status.toNat
  r : m.tally.r = m.base.r + s.r.status.toNat

/-- An access takes place or none does, and the handshakes were counted accordingly. -/
inductive AccessInv (s : Regs) (m : Monitor) : Prop where
  | none (axi : s.axiAccessSm = .idle ∨ s.axiAccessSm = .done) (quiet : Quiet s)
      (tally : m.tally.Balanced)
  | write (writing : Writing s) (tally : WriteTally s m)
  | read (reading : Reading s) (tally : ReadTally s m)

section Access

variable {s : Regs} {m : Monitor} {i : Inputs}

theorem OpInv.axi (h : OpInv s m)
    : (s.axiAccessSm = .idle ∨ s.axiAccessSm = .done) ∧ Quiet s ∨ Writing s ∨ Reading s := by
  cases h with
  | ready h => exact .inl ⟨.inl h.axi, h.between.quiet⟩
  | mdio op phase =>
    cases phase with
    | started axi mdio start between => exact .inl ⟨.inl axi, between.quiet⟩
    | setData mdio start data ready access => exact .inr (.inl access.writing)
    | dataSet axi mdio start between => exact .inl ⟨.inr axi, between.quiet⟩
    | init axi mdio start between => exact .inl ⟨.inl axi, between.quiet⟩
    | initiate mdio start ready data access => exact .inr (.inl access.writing)
    | polled axi mdio start between => exact .inl ⟨axi.symm, between.quiet⟩
    | poll rest mdio start access => exact .inr (.inr access.reading)
    | ended axi mdio start between => exact .inl ⟨.inr axi, between.quiet⟩
  | access op phase =>
    cases phase with
    | started axi start between => exact .inl ⟨.inl axi, between.quiet⟩
    | write start ready access => exact .inr (.inl access.writing)
    | read start access => exact .inr (.inr access.reading)
    | ended axi start between => exact .inl ⟨.inr axi, between.quiet⟩

theorem Quiet.clock_tally (h : Quiet s)
    : (m.clock s i).tally = m.tally := by
  simp [Monitor.clock, Tally.clock, Channel.fires, h.aw, h.w, h.b, h.ar, h.r]

theorem count_status {α : Type} {c : Channel α} {value : α} (h : c.Offers value) (ready : Bool)
    : c.status.toNat + (c.fires ready).toNat = (c.status || c.fires ready).toNat := by
  cases hs : c.status with
  | true => simp [h.not_fires ready hs]
  | false => simp

theorem Writing.tally (h : Writing s) (ht : WriteTally s m)
    : WriteTally (clock s i) (m.clock s i) := by
  have hbase : (m.clock s i).base = m.base := by simp [Monitor.clock, h.axi]
  have haw := count_status h.aw i.awready
  have hw := count_status h.w i.wready
  have hb := count_status h.b i.bvalid
  constructor
  . rw [hbase]
    apply ht.base
  . rw [hbase, h.clock_aw, Channel.clock_status, ← haw, ← Nat.add_assoc, ← ht.aw]
    rfl
  . rw [hbase, h.clock_w, Channel.clock_status, ← hw, ← Nat.add_assoc, ← ht.w]
    rfl
  . rw [hbase, h.clock_b, Channel.clock_status, ← hb, ← Nat.add_assoc, ← ht.b]
    rfl
  . rw [hbase, ← ht.ar]
    simp [Monitor.clock, Tally.clock, Channel.fires, h.rest.ar]
  . rw [hbase, ← ht.r]
    simp [Monitor.clock, Tally.clock, Channel.fires, h.rest.r]

theorem Reading.tally (h : Reading s) (ht : ReadTally s m)
    : ReadTally (clock s i) (m.clock s i) := by
  have hbase : (m.clock s i).base = m.base := by simp [Monitor.clock, h.axi]
  have har := count_status h.ar i.arready
  have hr := count_status h.r i.rvalid
  constructor
  . rw [hbase]
    apply ht.base
  . rw [hbase, ← ht.aw]
    simp [Monitor.clock, Tally.clock, Channel.fires, h.rest.aw]
  . rw [hbase, ← ht.w]
    simp [Monitor.clock, Tally.clock, Channel.fires, h.rest.w]
  . rw [hbase, ← ht.b]
    simp [Monitor.clock, Tally.clock, Channel.fires, h.rest.b]
  . rw [hbase, h.clock_ar, Channel.clock_status, ← har, ← Nat.add_assoc, ← ht.ar]
    rfl
  . rw [hbase, h.clock_r, Channel.clock_status, ← hr, ← Nat.add_assoc, ← ht.r]
    rfl

theorem WriteTally.oneWrite (h : WriteTally s m) (hstatus : s.aw.status && s.w.status && s.b.status)
    : Tally.OneWrite m.base m.tally := by
  have haw := h.aw
  have hw := h.w
  have hb := h.b
  have har := h.ar
  have hr := h.r
  simp only [Bool.and_eq_true] at hstatus
  simp only [hstatus, Bool.toNat_true] at haw hw hb
  unfold Tally.OneWrite
  rw [← haw, ← hw, ← hb, ← har, ← hr]

theorem ReadTally.oneRead (h : ReadTally s m) (hstatus : s.ar.status && s.r.status)
    : Tally.OneRead m.base m.tally := by
  have haw := h.aw
  have hw := h.w
  have hb := h.b
  have har := h.ar
  have hr := h.r
  simp only [Bool.and_eq_true] at hstatus
  simp only [hstatus, Bool.toNat_true] at har hr
  unfold Tally.OneRead
  rw [← haw, ← hw, ← hb, ← har, ← hr]

theorem Tally.OneWrite.balanced {t₀ t : Tally} (h : Tally.OneWrite t₀ t) (hbase : t₀.Balanced)
    : t.Balanced := by
  rw [h]
  constructor
  . simp [hbase.aw]
  . simp [hbase.w]
  . simp [hbase.ar]

theorem Tally.OneRead.balanced {t₀ t : Tally} (h : Tally.OneRead t₀ t) (hbase : t₀.Balanced)
    : t.Balanced := by
  rw [h]
  constructor
  . simp [hbase.aw]
  . simp [hbase.w]
  . simp [hbase.ar]

theorem clock_axi_of_write (hresetN : i.resetN = true) (haxi : s.axiAccessSm = .write)
    : (clock s i).axiAccessSm = if s.aw.status && s.w.status && s.b.status then .done else .write := by
  simp [clock, axiBlock, hresetN, haxi]

theorem clock_axi_of_read (hresetN : i.resetN = true) (haxi : s.axiAccessSm = .read)
    : (clock s i).axiAccessSm = if s.ar.status && s.r.status then .done else .read := by
  simp [clock, axiBlock, hresetN, haxi]

theorem Writing.oneWrite (h : Writing s) (ht : WriteTally s m) (hresetN : i.resetN = true)
    (haxi : (clock s i).axiAccessSm ≠ .write)
    : Tally.OneWrite (m.clock s i).base (m.clock s i).tally := by
  rw [clock_axi_of_write hresetN h.axi] at haxi
  split at haxi
  . next hstatus =>
    apply (h.tally (i := i) ht).oneWrite
    simp only [Bool.and_eq_true] at hstatus
    rw [h.clock_aw, h.clock_w, h.clock_b, Channel.clock_status, Channel.clock_status,
      Channel.clock_status, hstatus.1.1, hstatus.1.2, hstatus.2]
    rfl
  . contradiction

theorem Reading.oneRead (h : Reading s) (ht : ReadTally s m) (hresetN : i.resetN = true)
    (haxi : (clock s i).axiAccessSm ≠ .read)
    : Tally.OneRead (m.clock s i).base (m.clock s i).tally := by
  rw [clock_axi_of_read hresetN h.axi] at haxi
  split at haxi
  . next hstatus =>
    apply (h.tally (i := i) ht).oneRead
    simp only [Bool.and_eq_true] at hstatus
    rw [h.clock_ar, h.clock_r, Channel.clock_status, Channel.clock_status, hstatus.1, hstatus.2]
    rfl
  . contradiction

theorem WriteTally.of_rest (hw : s.WriteRest) (htally : m.tally.Balanced) (hbase : m.base = m.tally)
    : WriteTally s m := by
  constructor
  . rw [hbase]
    apply htally
  . rw [hbase, hw.aw]
    rfl
  . rw [hbase, hw.w]
    rfl
  . rw [hbase, hw.b]
    rfl
  . rw [hbase]
  . rw [hbase]

theorem ReadTally.of_rest (hr : s.ReadRest) (htally : m.tally.Balanced) (hbase : m.base = m.tally)
    : ReadTally s m := by
  constructor
  . rw [hbase]
    apply htally
  . rw [hbase]
  . rw [hbase]
  . rw [hbase]
  . rw [hbase, hr.ar]
    rfl
  . rw [hbase, hr.r]
    rfl

theorem AccessInv.step_none (hop : OpInv (clock s i) (m.clock s i))
    (haxi : s.axiAccessSm = .idle ∨ s.axiAccessSm = .done) (hquiet : Quiet s)
    (htally : m.tally.Balanced)
    : AccessInv (clock s i) (m.clock s i) := by
  have hw : (clock s i).WriteRest := by
    apply clock_writeRest
    rcases haxi with haxi | haxi <;> simp [haxi]
  have hr : (clock s i).ReadRest := by
    apply clock_readRest
    rcases haxi with haxi | haxi <;> simp [haxi]
  have hbase : (m.clock s i).base = (m.clock s i).tally := by
    rcases haxi with haxi | haxi <;> simp [Monitor.clock, haxi]
  have htally' : (m.clock s i).tally.Balanced := by
    rw [hquiet.clock_tally]
    apply htally
  rcases hop.axi with ⟨haxi', hquiet'⟩ | hwriting | hreading
  . exact .none haxi' hquiet' htally'
  . exact .write hwriting (.of_rest hw htally' hbase)
  . exact .read hreading (.of_rest hr htally' hbase)

theorem AccessInv.step_write (hop : OpInv (clock s i) (m.clock s i)) (hresetN : i.resetN = true)
    (hwriting : Writing s) (htally : WriteTally s m)
    : AccessInv (clock s i) (m.clock s i) := by
  rcases hop.axi with ⟨haxi', hquiet'⟩ | hwriting' | hreading'
  . have hone := hwriting.oneWrite htally hresetN (by rcases haxi' with h | h <;> simp [h])
    exact .none haxi' hquiet' (hone.balanced (hwriting.tally htally).base)
  . exact .write hwriting' (hwriting.tally htally)
  . have haxi := clock_axi_of_write hresetN hwriting.axi
    rw [hreading'.axi] at haxi
    split at haxi <;> contradiction

theorem AccessInv.step_read (hop : OpInv (clock s i) (m.clock s i)) (hresetN : i.resetN = true)
    (hreading : Reading s) (htally : ReadTally s m)
    : AccessInv (clock s i) (m.clock s i) := by
  rcases hop.axi with ⟨haxi', hquiet'⟩ | hwriting' | hreading'
  . have hone := hreading.oneRead htally hresetN (by rcases haxi' with h | h <;> simp [h])
    exact .none haxi' hquiet' (hone.balanced (hreading.tally htally).base)
  . have haxi := clock_axi_of_read hresetN hreading.axi
    rw [hwriting'.axi] at haxi
    split at haxi <;> contradiction
  . exact .read hreading' (hreading.tally htally)

theorem AccessInv.exclusive (h : AccessInv s m)
    : Sys.Exclusive ⟨s, m⟩ := by
  cases h with
  | none axi quiet tally =>
    refine ⟨?_, fun _ => quiet⟩
    rintro ⟨hw, -⟩
    simp [Sys.WriteOutstanding, quiet.aw, quiet.w, tally.aw, tally.w] at hw
  | write writing tally =>
    refine ⟨?_, fun haxi => by rw [writing.axi] at haxi; contradiction⟩
    rintro ⟨-, hr⟩
    simp [Sys.ReadOutstanding, writing.rest.ar, tally.ar, tally.r, tally.base.ar] at hr
  | read reading tally =>
    refine ⟨?_, fun haxi => by rw [reading.axi] at haxi; contradiction⟩
    rintro ⟨hw, -⟩
    simp [Sys.WriteOutstanding, reading.rest.aw, reading.rest.w, tally.aw, tally.w, tally.b,
      tally.base.aw, tally.base.w] at hw

theorem Channel.stable_of_not_valid {c : Channel (BitVec 32)} (h : c.valid = false)
    (c' : Channel (BitVec 32)) (ready : Bool)
    : Channel.Stable c c' ready := by
  intro hvalid
  rw [h] at hvalid
  contradiction

theorem AccessInv.masterStep (h : AccessInv s m) (hresetN : i.resetN = true)
    : MasterStep ⟨s, m⟩ i ⟨clock s i, m.clock s i⟩ := by
  cases h with
  | none axi quiet tally =>
    constructor
    . apply Channel.stable_of_not_valid quiet.aw
    . apply Channel.stable_of_not_valid quiet.w
    . apply Channel.stable_of_not_valid quiet.ar
    . intro haxi
      rcases axi with axi | axi <;> simp [axi] at haxi
    . intro haxi
      rcases axi with axi | axi <;> simp [axi] at haxi
  | write writing tally =>
    constructor
    . intro hvalid hready
      rw [writing.clock_aw]
      apply writing.aw.clock_stable 0 hvalid hready
    . intro hvalid hready
      rw [writing.clock_w]
      apply writing.w.clock_stable 0 hvalid hready
    . apply Channel.stable_of_not_valid
      simp [writing.rest.ar]
    . intro _ haxi
      apply writing.oneWrite tally hresetN haxi
    . intro haxi
      simp [writing.axi] at haxi
  | read reading tally =>
    constructor
    . apply Channel.stable_of_not_valid
      simp [reading.rest.aw]
    . apply Channel.stable_of_not_valid
      simp [reading.rest.w]
    . intro hvalid hready
      rw [reading.clock_ar]
      apply reading.ar.clock_stable 0 hvalid hready
    . intro haxi
      simp [reading.axi] at haxi
    . intro _ haxi
      apply reading.oneRead tally hresetN haxi

end Access

/-- The invariant of a run with its handshakes counted. -/
structure Sys.Counted (s : Sys) : Prop where
  inv : s.Inv
  access : AccessInv s.regs s.mon

section Sys

variable {s s' : Sys} {i : Inputs}

theorem Sys.Initial.counted (h : s.Initial)
    : s.Counted := by
  refine ⟨h.inv, ?_⟩
  obtain ⟨hreset, hmon⟩ := h
  apply AccessInv.none
  . exact .inl hreset.regs.2.1
  . exact Quiet.of_rest hreset.regs.2.2.2.1 hreset.regs.2.2.2.2
  . rw [hmon]
    exact ⟨rfl, rfl, rfl⟩

theorem Sys.Counted.step (h : s.Counted) (hstep : s.step i = some s')
    : s'.Counted := by
  have hinv := h.inv.step hstep
  obtain ⟨hresetN, rfl⟩ := Sys.step_eq hstep
  refine ⟨hinv, ?_⟩
  cases h.access with
  | none axi quiet tally => apply AccessInv.step_none hinv.op axi quiet tally
  | write writing tally => apply AccessInv.step_write hinv.op hresetN writing tally
  | read reading tally => apply AccessInv.step_read hinv.op hresetN reading tally

end Sys

/--
For every timing of a slave: what is offered stands until it is taken, reads and writes do not overlap,
an access is left after one handshake on each of its channels, and nothing is driven outside of one.
-/
theorem master_keeps_protocol (s : Sys) (es : List Inputs) (hinit : s.Initial)
    : Transition.StatesHold Sys.step Sys.Exclusive s es
        ∧ Transition.StepsHold Sys.step MasterStep s es := by
  constructor
  . exact Transition.statesHold_of_inductive (fun _ h => Sys.Counted.access h |>.exclusive)
      (fun _ _ _ h hstep => Sys.Counted.step h hstep) hinit.counted
  . refine Transition.stepsHold_of_inductive ?_ (fun _ _ _ h hstep => Sys.Counted.step h hstep)
      hinit.counted
    intro s i s' h hstep
    obtain ⟨hresetN, rfl⟩ := Sys.step_eq hstep
    apply h.access.masterStep hresetN

/-- The first write after a reset, where the slave takes the data one clock after the address. -/
theorem master_keeps_protocol_reset
    : Transition.StatesHold Sys.step Sys.Exclusive resetSys
          [.quiet true false, .quiet true false, .quiet true false,
            { Inputs.quiet true false with awready := true },
            { Inputs.quiet true false with wready := true }]
        ∧ Transition.StepsHold Sys.step MasterStep resetSys
          [.quiet true false, .quiet true false, .quiet true false,
            { Inputs.quiet true false with awready := true },
            { Inputs.quiet true false with wready := true }] :=
  master_keeps_protocol _ _ resetSys_initial

end Ethernet
