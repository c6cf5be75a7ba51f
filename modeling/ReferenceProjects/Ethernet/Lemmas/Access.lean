import ReferenceProjects.Ethernet.Bus

/-!
This module contains what happens in a clock of an access: each channel transfers once, and the access
is seen in the clock of the last transfer.
-/

namespace Ethernet

open Handshake (Channel Halves)

/-- Nothing is driven on the channels of a write. -/
structure Regs.WriteRest (s : Regs) : Prop where
  aw : s.aw = ⟨0, false, false⟩
  w : s.w = ⟨0, false, false⟩
  b : s.b = ⟨(), false, false⟩

/-- Nothing is driven on the channels of a read. -/
structure Regs.ReadRest (s : Regs) : Prop where
  ar : s.ar = ⟨0, false, false⟩
  r : s.r = ⟨(), false, false⟩

/-- A write takes place: each of its channels offers what the write consists of. -/
structure Writing (s : Regs) : Prop where
  axi : s.axiAccessSm = .write
  rest : s.ReadRest
  aw : s.aw.Offers s.writeAddr
  w : s.w.Offers s.writeData
  b : s.b.Offers ()

/-- A read takes place. -/
structure Reading (s : Regs) : Prop where
  axi : s.axiAccessSm = .read
  rest : s.WriteRest
  ar : s.ar.Offers (s.main.addr.setWidth 32)
  r : s.r.Offers ()
  ready : s.mdioReady = (s.main.driveMdio && s.r.status && readyBit s.main.addr s.axiRdData)

/-- The write of the current access, when its address and data were transferred. -/
def Regs.written (s : Regs) : List BusAccess :=
  if s.aw.status && s.w.status then [.write s.writeAddr s.writeData] else []

/-- The read of the current access, when its address and data were transferred. -/
def Regs.wasRead (s : Regs) : List BusAccess :=
  if s.ar.status && s.r.status then [.read (s.main.addr.setWidth 32) s.axiRdData] else []

/-- No channel is driven. -/
structure Quiet (s : Regs) : Prop where
  aw : s.aw.valid = false
  w : s.w.valid = false
  b : s.b.valid = false
  ar : s.ar.valid = false
  r : s.r.valid = false

/-- No half of an access was seen that is not part of an access seen. -/
structure Monitor.Whole (m : Monitor) : Prop where
  write : m.writeHalves = ⟨none, none⟩
  read : m.readHalves = ⟨none, none⟩

/-- The halves of a write are the ones that its channels transferred. -/
structure WriteHalves (s : Regs) (m : Monitor) : Prop where
  write : m.writeHalves = Halves.ahead s.aw.status s.w.status s.writeAddr s.writeData
  read : m.readHalves = ⟨none, none⟩

/-- The halves of a read are the ones that its channels transferred. -/
structure ReadHalves (s : Regs) (m : Monitor) : Prop where
  write : m.writeHalves = ⟨none, none⟩
  read : m.readHalves
    = Halves.ahead s.ar.status s.r.status (s.main.addr.setWidth 32) s.axiRdData

section Rest

variable {s : Regs} {m : Monitor} {i : Inputs}

theorem clock_writeRest (h : s.axiAccessSm ≠ .write)
    : (clock s i).WriteRest := by
  have hactive : (s.axiAccessSm == .write) = false := by simpa using h
  constructor
  . simp [clock, writeAddrBlock, Channel.clock, hactive]
  . simp [clock, writeDataBlock, Channel.clock, hactive]
  . simp [clock, writeRespBlock, Channel.clock, hactive]

theorem clock_readRest (h : s.axiAccessSm ≠ .read)
    : (clock s i).ReadRest := by
  have hactive : (s.axiAccessSm == .read) = false := by simpa using h
  constructor
  . simp [clock, readAddrBlock, Channel.clock, hactive]
  . simp [clock, readDataBlock, Channel.clock, hactive]

theorem Quiet.of_rest (hw : s.WriteRest) (hr : s.ReadRest)
    : Quiet s := by
  constructor
  . rw [hw.aw]
  . rw [hw.w]
  . rw [hw.b]
  . rw [hr.ar]
  . rw [hr.r]

theorem Writing.of_rest (haxi : s.axiAccessSm = .write) (hw : s.WriteRest) (hr : s.ReadRest)
    : Writing s := by
  refine ⟨haxi, hr, ?_, ?_, ?_⟩
  . rw [hw.aw]
    apply Channel.Offers.rest
  . rw [hw.w]
    apply Channel.Offers.rest
  . rw [hw.b]
    apply Channel.Offers.rest

theorem Reading.of_rest (haxi : s.axiAccessSm = .read) (hw : s.WriteRest) (hr : s.ReadRest)
    (hready : s.mdioReady = false)
    : Reading s := by
  refine ⟨haxi, hw, ?_, ?_, ?_⟩
  . rw [hr.ar]
    apply Channel.Offers.rest
  . rw [hr.r]
    apply Channel.Offers.rest
  . simp [hready, hr.r]

theorem Regs.WriteRest.written (h : s.WriteRest)
    : s.written = [] := by
  simp [Regs.written, h.aw]

theorem Regs.ReadRest.wasRead (h : s.ReadRest)
    : s.wasRead = [] := by
  simp [Regs.wasRead, h.ar]

theorem Regs.WriteRest.halves (h : s.WriteRest) (hm : m.Whole)
    : WriteHalves s m := by
  constructor
  . rw [hm.write, h.aw, h.w]
    rfl
  . apply hm.read

theorem Regs.ReadRest.halves (h : s.ReadRest) (hm : m.Whole)
    : ReadHalves s m := by
  constructor
  . apply hm.write
  . rw [hm.read, h.ar, h.r]
    rfl

end Rest

section Clock

variable {s : Regs} {m : Monitor} {i : Inputs}

theorem clockWrite_of_not_valid (haw : s.aw.valid = false) (hw : s.w.valid = false)
    (hm : m.writeHalves = ⟨none, none⟩)
    : m.clockWrite s i = (⟨none, none⟩, none) := by
  simp [Monitor.clockWrite, Channel.fires, haw, hw, hm, Halves.clock]

theorem clockRead_of_not_valid (har : s.ar.valid = false) (hr : s.r.valid = false)
    (hm : m.readHalves = ⟨none, none⟩)
    : m.clockRead s i = (⟨none, none⟩, none) := by
  simp [Monitor.clockRead, Channel.fires, har, hr, hm, Halves.clock]

theorem Quiet.seen (h : Quiet s) (hm : m.Whole)
    : m.seen s i = [] := by
  simp [Monitor.seen, clockWrite_of_not_valid h.aw h.w hm.write,
    clockRead_of_not_valid h.ar h.r hm.read]

theorem Quiet.whole (h : Quiet s) (hm : m.Whole)
    : (m.clock s i).Whole := by
  constructor
  . simp [Monitor.clock, clockWrite_of_not_valid h.aw h.w hm.write]
  . simp [Monitor.clock, clockRead_of_not_valid h.ar h.r hm.read]

theorem transfer_eq {c : Channel (BitVec 32)} {value : BitVec 32} (h : c.Offers value) (ready : Bool)
    : (if c.fires ready then some c.payload else none)
        = if c.fires ready then some value else none := by
  split
  . next hfires =>
    have hvalid : c.valid = true := by
      simp only [Channel.fires, Bool.and_eq_true] at hfires
      apply hfires.1
    rw [h.payload hvalid]
  . rfl

theorem Writing.clock_aw (h : Writing s) (i : Inputs)
    : (clock s i).aw = s.aw.clock 0 true s.writeAddr i.awready := by
  simp [clock, writeAddrBlock, h.axi]

theorem Writing.clock_w (h : Writing s) (i : Inputs)
    : (clock s i).w = s.w.clock 0 true s.writeData i.wready := by
  simp [clock, writeDataBlock, h.axi]

theorem Writing.clock_b (h : Writing s) (i : Inputs)
    : (clock s i).b = s.b.clock () true () i.bvalid := by
  simp [clock, writeRespBlock, h.axi]

theorem Reading.clock_ar (h : Reading s) (i : Inputs)
    : (clock s i).ar = s.ar.clock 0 true (s.main.addr.setWidth 32) i.arready := by
  simp [clock, readAddrBlock, h.axi]

theorem Reading.clock_r (h : Reading s) (i : Inputs)
    : (clock s i).r = s.r.clock () true () i.rvalid := by
  simp [clock, readDataBlock, h.axi]

theorem Writing.clockWrite (h : Writing s) (hm : WriteHalves s m)
    : m.clockWrite s i
        = (Halves.ahead (clock s i).aw.status (clock s i).w.status s.writeAddr s.writeData,
          if (clock s i).aw.status && (clock s i).w.status && !(s.aw.status && s.w.status) then
            some (s.writeAddr, s.writeData)
          else
            none) := by
  rw [h.clock_aw, h.clock_w, Channel.clock_status, Channel.clock_status, Monitor.clockWrite,
    transfer_eq h.aw, transfer_eq h.w, hm.write]
  apply Halves.clock_ahead
  . apply h.aw.not_fires
  . apply h.w.not_fires
  . intro _
    rfl

theorem Reading.clock_regs (h : Reading s) (i : Inputs)
    : readRegsBlock s i
        = if s.r.fires i.rvalid then
            (s.main.driveMdio && readyBit s.main.addr i.rdata || s.mdioReady, i.rdata)
          else
            (s.mdioReady, s.axiRdData) := by
  have hfires := h.r.not_fires i.rvalid
  simp only [readRegsBlock, h.axi, beq_self_eq_true, ↓reduceIte]
  cases hstatus : s.r.status with
  | true => simp [hfires hstatus]
  | false => simp

theorem Reading.clock_axiRdData (h : Reading s) (i : Inputs)
    : (clock s i).axiRdData = if s.r.fires i.rvalid then i.rdata else s.axiRdData := by
  rw [clock, h.clock_regs]
  split
  . rfl
  . rfl

theorem Reading.clockRead (h : Reading s) (hm : ReadHalves s m)
    : m.clockRead s i
        = (Halves.ahead (clock s i).ar.status (clock s i).r.status (s.main.addr.setWidth 32)
            (clock s i).axiRdData,
          if (clock s i).ar.status && (clock s i).r.status && !(s.ar.status && s.r.status) then
            some (s.main.addr.setWidth 32, (clock s i).axiRdData)
          else
            none) := by
  have hdata : (if s.r.fires i.rvalid then some i.rdata else none)
      = if s.r.fires i.rvalid then some (clock s i).axiRdData else none := by
    rw [h.clock_axiRdData]
    split
    . rfl
    . rfl
  rw [Monitor.clockRead, transfer_eq h.ar, hdata, hm.read, h.clock_ar, h.clock_r,
    Channel.clock_status, Channel.clock_status]
  apply Halves.clock_ahead
  . apply h.ar.not_fires
  . apply h.r.not_fires
  . intro hfires
    rw [h.clock_axiRdData, hfires]
    rfl

theorem Writing.step (h : Writing s) (hresetN : i.resetN = true)
    (haddr : (clock s i).writeAddr = s.writeAddr) (hdata : (clock s i).writeData = s.writeData)
    (hstatus : (s.aw.status && s.w.status && s.b.status) = false)
    : Writing (clock s i) := by
  refine ⟨?_, clock_readRest (by simp [h.axi]), ?_, ?_, ?_⟩
  . simp [Ethernet.clock, axiBlock, hresetN, h.axi, hstatus]
  . rw [haddr, h.clock_aw]
    apply h.aw.clock
  . rw [hdata, h.clock_w]
    apply h.w.clock
  . rw [h.clock_b]
    apply h.b.clock

theorem Writing.halves (h : Writing s) (hm : WriteHalves s m)
    (haddr : (clock s i).writeAddr = s.writeAddr)
    (hdata : (clock s i).writeData = s.writeData)
    : WriteHalves (clock s i) (m.clock s i) := by
  constructor
  . rw [haddr, hdata, Monitor.clock, h.clockWrite hm]
  . simp [Monitor.clock, clockRead_of_not_valid (i := i) (by rw [h.rest.ar]) (by rw [h.rest.r]) hm.read]

theorem Writing.seen (h : Writing s) (hm : WriteHalves s m)
    (haddr : (clock s i).writeAddr = s.writeAddr)
    (hdata : (clock s i).writeData = s.writeData)
    : m.seen s i ++ s.written = (clock s i).written := by
  have hread := clockRead_of_not_valid (i := i) (by rw [h.rest.ar]) (by rw [h.rest.r]) hm.read
  have haw : s.aw.status = true → (clock s i).aw.status = true := by
    intro hs
    rw [h.clock_aw, Channel.clock_status, hs, Bool.true_or]
  have hw : s.w.status = true → (clock s i).w.status = true := by
    intro hs
    rw [h.clock_w, Channel.clock_status, hs, Bool.true_or]
  simp only [Monitor.seen, hread, h.clockWrite hm, Regs.written, haddr, hdata, Option.map_none,
    Option.toList_none, List.nil_append]
  cases hs : s.aw.status && s.w.status with
  | true =>
    simp only [Bool.and_eq_true] at hs
    simp [haw hs.1, hw hs.2]
  | false =>
    cases hs' : (clock s i).aw.status && (clock s i).w.status <;> simp

theorem Writing.done (h : Writing s) (hresetN : i.resetN = true)
    (hstatus : (s.aw.status && s.w.status && s.b.status) = true)
    : (clock s i).axiAccessSm = .done ∧ Quiet (clock s i)
        ∧ s.written = [.write s.writeAddr s.writeData] := by
  simp only [Bool.and_eq_true] at hstatus
  obtain ⟨⟨haw, hw⟩, hb⟩ := hstatus
  have hrest : (clock s i).ReadRest := clock_readRest (by simp [h.axi])
  refine ⟨?_, ⟨?_, ?_, ?_, ?_, ?_⟩, ?_⟩
  . simp [Ethernet.clock, axiBlock, hresetN, h.axi, haw, hw, hb]
  . rw [h.clock_aw]
    apply (h.aw.clock 0 i.awready).once
    rw [Channel.clock_status, haw, Bool.true_or]
  . rw [h.clock_w]
    apply (h.w.clock 0 i.wready).once
    rw [Channel.clock_status, hw, Bool.true_or]
  . rw [h.clock_b]
    apply (h.b.clock () i.bvalid).once
    rw [Channel.clock_status, hb, Bool.true_or]
  . rw [hrest.ar]
  . rw [hrest.r]
  . simp [Regs.written, haw, hw]

theorem Writing.whole (h : Writing s) (hm : WriteHalves s m)
    (hstatus : (s.aw.status && s.w.status && s.b.status) = true)
    : (m.clock s i).Whole := by
  simp only [Bool.and_eq_true] at hstatus
  constructor
  . simp [Monitor.clock, h.clockWrite hm, h.clock_aw, h.clock_w, Channel.clock_status, hstatus,
      Halves.ahead]
  . simp [Monitor.clock, clockRead_of_not_valid (i := i) (by rw [h.rest.ar]) (by rw [h.rest.r]) hm.read]

theorem Reading.clock_ready (h : Reading s) (haddr : (clock s i).main.addr = s.main.addr)
    (hdrive : (clock s i).main.driveMdio = s.main.driveMdio)
    : (clock s i).mdioReady
        = ((clock s i).main.driveMdio && (clock s i).r.status
            && readyBit (clock s i).main.addr (clock s i).axiRdData) := by
  have hready : (clock s i).mdioReady = (readRegsBlock s i).1 := rfl
  have hfires := h.r.not_fires i.rvalid
  rw [hready, h.clock_regs, h.clock_axiRdData, haddr, hdrive, h.clock_r, Channel.clock_status, h.ready]
  cases hf : s.r.fires i.rvalid with
  | true =>
    have hstatus : s.r.status = false := by
      cases hs : s.r.status with
      | false => rfl
      | true => rw [hfires hs] at hf; contradiction
    simp [hstatus]
  | false => simp

theorem Reading.step (h : Reading s) (hresetN : i.resetN = true)
    (haddr : (clock s i).main.addr = s.main.addr)
    (hdrive : (clock s i).main.driveMdio = s.main.driveMdio)
    (hstatus : (s.ar.status && s.r.status) = false)
    : Reading (clock s i) := by
  refine ⟨?_, clock_writeRest (by simp [h.axi]), ?_, ?_, h.clock_ready haddr hdrive⟩
  . simp [Ethernet.clock, axiBlock, hresetN, h.axi, hstatus]
  . rw [haddr, h.clock_ar]
    apply h.ar.clock
  . rw [h.clock_r]
    apply h.r.clock

theorem Reading.halves (h : Reading s) (hm : ReadHalves s m)
    (haddr : (clock s i).main.addr = s.main.addr)
    : ReadHalves (clock s i) (m.clock s i) := by
  constructor
  . simp [Monitor.clock, clockWrite_of_not_valid (i := i) (by rw [h.rest.aw]) (by rw [h.rest.w])
      hm.write]
  . rw [haddr, Monitor.clock, h.clockRead hm]

theorem Reading.seen (h : Reading s) (hm : ReadHalves s m)
    (haddr : (clock s i).main.addr = s.main.addr)
    : m.seen s i ++ s.wasRead = (clock s i).wasRead := by
  have hwrite := clockWrite_of_not_valid (i := i) (by rw [h.rest.aw]) (by rw [h.rest.w]) hm.write
  have har : s.ar.status = true → (clock s i).ar.status = true := by
    intro hs
    rw [h.clock_ar, Channel.clock_status, hs, Bool.true_or]
  simp only [Monitor.seen, hwrite, h.clockRead hm, Regs.wasRead, haddr, Option.map_none,
    Option.toList_none, List.append_nil]
  cases hs : s.ar.status && s.r.status with
  | true =>
    simp only [Bool.and_eq_true] at hs
    have hr : (clock s i).r.status = true := by
      rw [h.clock_r, Channel.clock_status, hs.2, Bool.true_or]
    have hdata : (clock s i).axiRdData = s.axiRdData := by
      rw [h.clock_axiRdData, h.r.not_fires i.rvalid hs.2]
      rfl
    simp [har hs.1, hr, hdata]
  | false =>
    cases hs' : (clock s i).ar.status && (clock s i).r.status <;> simp

theorem Reading.done (h : Reading s) (hresetN : i.resetN = true)
    (hstatus : (s.ar.status && s.r.status) = true)
    : (clock s i).axiAccessSm = .done ∧ Quiet (clock s i)
        ∧ s.wasRead = [.read (s.main.addr.setWidth 32) s.axiRdData]
        ∧ (clock s i).axiRdData = s.axiRdData := by
  simp only [Bool.and_eq_true] at hstatus
  obtain ⟨har, hr⟩ := hstatus
  have hrest : (clock s i).WriteRest := clock_writeRest (by simp [h.axi])
  refine ⟨?_, ⟨?_, ?_, ?_, ?_, ?_⟩, ?_, ?_⟩
  . simp [Ethernet.clock, axiBlock, hresetN, h.axi, har, hr]
  . rw [hrest.aw]
  . rw [hrest.w]
  . rw [hrest.b]
  . rw [h.clock_ar]
    apply (h.ar.clock 0 i.arready).once
    rw [Channel.clock_status, har, Bool.true_or]
  . rw [h.clock_r]
    apply (h.r.clock () i.rvalid).once
    rw [Channel.clock_status, hr, Bool.true_or]
  . simp [Regs.wasRead, har, hr]
  . rw [h.clock_axiRdData, h.r.not_fires i.rvalid hr]
    rfl

theorem Reading.whole (h : Reading s) (hm : ReadHalves s m)
    (hstatus : (s.ar.status && s.r.status) = true)
    : (m.clock s i).Whole := by
  simp only [Bool.and_eq_true] at hstatus
  constructor
  . simp [Monitor.clock, clockWrite_of_not_valid (i := i) (by rw [h.rest.aw]) (by rw [h.rest.w])
      hm.write]
  . simp [Monitor.clock, h.clockRead hm, h.clock_ar, h.clock_r, Channel.clock_status, hstatus,
      Halves.ahead]

end Clock

end Ethernet
