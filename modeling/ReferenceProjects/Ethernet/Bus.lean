import ReferenceProjects.Ethernet.Impl

/-!
This module contains what is seen of `ethernet_flow_cntrl` from outside: the accesses on its AXI-Lite
bus, the operations of the main state machine they belong to, and the MDIO commands they carry.
-/

namespace Ethernet

open Handshake (Channel Halves)

/-- An access whose address and data were both transferred. -/
inductive BusAccess where
  | write (addr data : BitVec 32)
  | read (addr data : BitVec 32)
  deriving DecidableEq, Repr

/-- What the main state machine chose when it started an operation. -/
inductive Start where
  | reset
  | access (writenread : Bool) (addr : BitVec 17) (axiWrData : BitVec 32)
  | mdio (mdioOp : BitVec 2) (axiWrData : BitVec 32) (addr : BitVec 17)
  deriving DecidableEq, Repr

def Start.isMdio : Start → Bool
  | .mdio _ _ _ => true
  | _ => false

/-- The operation that is started by the pulse on `start_mdio` or `start_access`. -/
def MainRegs.started (m : MainRegs) : Option Start :=
  if m.startMdio then some (.mdio m.mdioOp m.axiWrData m.addr)
  else if m.startAccess then some (.access m.writenread m.addr m.axiWrData)
  else none

/-- An operation with the accesses that were seen of it, the latest one first. -/
structure Op where
  start : Start
  accesses : List BusAccess
  deriving DecidableEq, Repr

/-- The two writes that give an MDIO operation to the MAC, and reads that do not return the ready bit. -/
def Polled (op : BitVec 2) (data : BitVec 32) (addr : BitVec 17) : List BusAccess → Prop
  | [.write addr₁ data₁, .write addr₀ data₀] =>
    addr₀ = mdioTxData.setWidth 32 ∧ data₀ = data
      ∧ addr₁ = mdioControl.setWidth 32 ∧ data₁ = mdioCommand op devAddr
  | .read a rdata :: accesses =>
    a = addr.setWidth 32 ∧ readyBit addr rdata = false ∧ Polled op data addr accesses
  | _ => False

/-- All accesses of an MDIO operation; the last one returns the ready bit, and `rdata`. -/
def MdioFrame (op : BitVec 2) (data : BitVec 32) (addr : BitVec 17) (rdata : BitVec 32)
    : List BusAccess → Prop
  | .read a rdata' :: accesses =>
    a = addr.setWidth 32 ∧ rdata' = rdata ∧ readyBit addr rdata = true
      ∧ Polled op data addr accesses
  | _ => False

/-- The accesses are the ones the operation consists of. -/
def Op.Complete (o : Op) : Prop :=
  match o.start with
  | .reset => o.accesses = []
  | .access true addr data => o.accesses = [.write (addr.setWidth 32) data]
  | .access false addr _ => ∃ rdata, o.accesses = [.read (addr.setWidth 32) rdata]
  | .mdio op data addr => ∃ rdata, MdioFrame op data addr rdata o.accesses

/-- The accesses so far are the first ones the operation consists of. -/
def Op.Begun (o : Op) : Prop :=
  o.Complete ∨ o.accesses = [] ∨
    match o.start with
    | .mdio op data addr =>
      o.accesses = [.write (mdioTxData.setWidth 32) data] ∨ Polled op data addr o.accesses
    | _ => False

/-- An MDIO write, with the address that the device has at that time. -/
structure MdioWrite where
  device : BitVec 5
  address : Option (BitVec 5 × BitVec 16)
  data : BitVec 16
  deriving DecidableEq, Repr

/--
What the accesses amount to on the MDIO bus: the device and register of the last ADDRESS command, all
WRITE commands, and what was read, with the ready bit, after a READ command that is the last command.
-/
structure Phy where
  txData : BitVec 32
  command : Option (BitVec 2)
  address : Option (BitVec 5 × BitVec 16)
  writes : List MdioWrite
  lastRead : Option (BitVec 32)
  deriving DecidableEq, Repr

def Phy.init : Phy := ⟨0, none, none, [], none⟩

/-- A write of the control register with the initiate bit. -/
def Phy.initiate (p : Phy) (control : BitVec 32) : Phy :=
  let op := control.extractLsb' 14 2
  let device := control.extractLsb' 16 5
  let p := { p with command := some op, lastRead := none }
  if op = mdioOpAddr then
    { p with address := some (device, p.txData.setWidth 16) }
  else if op = mdioOpWr then
    { p with writes := ⟨device, p.address, p.txData.setWidth 16⟩ :: p.writes }
  else
    p

def Phy.see (p : Phy) : BusAccess → Phy
  | .write addr data =>
    if addr = mdioTxData.setWidth 32 then
      { p with txData := data }
    else if addr = mdioControl.setWidth 32 ∧ data.getLsbD 11 = true then
      p.initiate data
    else
      p
  | .read addr rdata =>
    if addr = mdioRxData.setWidth 32 ∧ rdata.getLsbD 16 = true ∧ p.command = some mdioOpRd then
      { p with lastRead := some rdata }
    else
      p

/-- What accesses, the latest one first, amount to. -/
def Phy.observe : List BusAccess → Phy
  | [] => .init
  | a :: accesses => (observe accesses).see a

/-- The number of handshakes on each channel. -/
structure Tally where
  aw : Nat
  w : Nat
  b : Nat
  ar : Nat
  r : Nat
  deriving DecidableEq, Repr

/--
What was seen: the halves of the accesses under way, the operation started last and the ones before
it, the handshakes in all and up to the last clock outside of an access, and the mode that
`MDIO_ADDR_1` or `MDIO_ADDR_2` chose the data by.
-/
structure Monitor where
  writeHalves : Halves (BitVec 32) (BitVec 32)
  readHalves : Halves (BitVec 32) (BitVec 32)
  op : Op
  past : List Op
  tally : Tally
  base : Tally
  sampled : Bool
  deriving DecidableEq, Repr

def Monitor.init : Monitor :=
  ⟨⟨none, none⟩, ⟨none, none⟩, ⟨.reset, []⟩, [], ⟨0, 0, 0, 0, 0⟩, ⟨0, 0, 0, 0, 0⟩, false⟩

/-- All accesses of the run, the latest one first. -/
def Monitor.trace (m : Monitor) : List BusAccess :=
  m.op.accesses ++ m.past.flatMap Op.accesses

def Monitor.phy (m : Monitor) : Phy := Phy.observe m.trace

variable (m : Monitor) (s : Regs) (i : Inputs)

def Monitor.clockWrite : Halves (BitVec 32) (BitVec 32) × Option (BitVec 32 × BitVec 32) :=
  m.writeHalves.clock (if s.aw.fires i.awready then some s.aw.payload else none)
    (if s.w.fires i.wready then some s.w.payload else none)

def Monitor.clockRead : Halves (BitVec 32) (BitVec 32) × Option (BitVec 32 × BitVec 32) :=
  m.readHalves.clock (if s.ar.fires i.arready then some s.ar.payload else none)
    (if s.r.fires i.rvalid then some i.rdata else none)

/-- The accesses that are complete in this clock. -/
def Monitor.seen : List BusAccess :=
  ((m.clockRead s i).2.map (fun (addr, data) => .read addr data)).toList
    ++ ((m.clockWrite s i).2.map (fun (addr, data) => .write addr data)).toList

/-- The handshakes of this clock are counted. -/
def Tally.clock (t : Tally) (s : Regs) (i : Inputs) : Tally where
  aw := t.aw + (s.aw.fires i.awready).toNat
  w := t.w + (s.w.fires i.wready).toNat
  b := t.b + (s.b.fires i.bvalid).toNat
  ar := t.ar + (s.ar.fires i.arready).toNat
  r := t.r + (s.r.fires i.rvalid).toNat

def Monitor.clock : Monitor :=
  let op : Op := { m.op with accesses := m.seen s i ++ m.op.accesses }
  let tally := m.tally.clock s i
  {
    writeHalves := (m.clockWrite s i).1
    readHalves := (m.clockRead s i).1
    op :=
      match (Ethernet.clock s i).main.started with
      | some start => ⟨start, []⟩
      | none => op
    past := if (Ethernet.clock s i).main.started.isSome then op :: m.past else m.past
    tally := tally
    base := if s.axiAccessSm = .read ∨ s.axiAccessSm = .write then m.base else tally
    sampled :=
      if s.canStep ∧ (s.main.axiState = .mdioAddr1 ∨ s.main.axiState = .mdioAddr2) then
        s.pcsLoopbackReg
      else
        m.sampled
  }

/-- The registers and what was seen of them since the reset. -/
structure Sys where
  regs : Regs
  mon : Monitor
  deriving DecidableEq, Repr

/-- A clock in which the reset is not asserted. -/
def Sys.step (s : Sys) (i : Inputs) : Option Sys :=
  if i.resetN then some ⟨Ethernet.clock s.regs i, s.mon.clock s.regs i⟩ else none

def Sys.Initial (s : Sys) : Prop := AfterReset s.regs ∧ s.mon = .init

end Ethernet
