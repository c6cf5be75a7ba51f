import ReferenceProjects.Ethernet.Defs

/-!
This module contains `ethernet_flow_cntrl` clock by clock: one definition for each `always` block, all
of which read the registers as they are before the clock.
-/

namespace Ethernet

open Handshake (Channel)

variable (s : Regs) (i : Inputs)

/-- The main state machine stalls while an access takes place. -/
def Regs.canStep : Bool :=
  s.axiAccessSm == .idle && s.mdioAccessSm == .idle && !s.main.startAccess && !s.main.startMdio

/-- The data that resets the receiver, by `config_mode`. -/
def receiverData : BitVec 32 :=
  match i.enableVlan, i.enableCustomPreamble with
  | false, false => 0x90000000
  | false, true => 0x94000000
  | true, false => 0x98000000
  | true, true => 0x9C000000

/-- The data that resets the transmitter, by `config_mode`. -/
def transmitterData : BitVec 32 :=
  match i.enableVlan, i.enableCustomPreamble with
  | false, false => 0x90000000
  | false, true => 0x90800000
  | true, false => 0x98000000
  | true, true => 0x98800000

/-- A write of `data` to `addr` that is not an MDIO operation. -/
def MainRegs.startWrite (m : MainRegs) (addr : BitVec 17) (data : BitVec 32) (next : AxiState)
    : MainRegs :=
  { m with startAccess := true, writenread := true, addr := addr, axiWrData := data, axiState := next }

/-- What every state that starts an MDIO operation does. -/
def MainRegs.startMdioOp (m : MainRegs) : MainRegs := { m with startMdio := true, driveMdio := true }

/-- The registers after `case (axi_state)`. -/
def mainCase : MainRegs :=
  let m := s.main
  match m.axiState with
  | .startup => m.startWrite configManagementAddr 0x45 .resetMacRx
  | .resetMacRx => m.startWrite receiverAddr (receiverData i) .resetMacTx
  | .resetMacTx => m.startWrite transmitterAddr (transmitterData i) .mdioAddr1
  | .mdioAddr1 =>
    let m := { m.startMdioOp with writenread := true, addr := mdioControl, mdioRegAddr := devAddr }
    if s.mdioReady then
      if s.pcsLoopbackReg then
        { m with mdioOp := mdioOpWr, axiWrData := 0x8000, axiState := .mdioReadPcsReset }
      else
        { m with mdioOp := mdioOpWr, axiWrData := 0x2000, axiState := .mdioWr }
    else
      m
  | .mdioReadPcsReset =>
    let m := { m.startMdioOp with mdioRegAddr := devAddr }
    if s.mdioReady then { m with mdioOp := mdioOpRd, axiState := .mdioReadPcsResetPoll } else m
  | .mdioReadPcsResetPoll =>
    let m := { m.startMdioOp with writenread := false, mdioOp := mdioOpRd, mdioRegAddr := devAddr }
    if s.mdioReady then { m with axiState := .mdioReadPcsResetRead } else m
  | .mdioReadPcsResetRead =>
    let m := { m.startMdioOp with mdioOp := mdioOpRd, mdioRegAddr := devAddr }
    if s.mdioReady then { m with addr := mdioRxData, axiState := .mdioResetCheck } else m
  | .mdioResetCheck =>
    let m := m.startMdioOp
    if s.mdioReady then
      if s.axiRdData.setWidth 16 = (0x2040 : BitVec 16) then { m with axiState := .mdioAddr2 } else m
    else
      m
  | .mdioAddr2 =>
    let m := { m.startMdioOp with writenread := true, addr := mdioControl, mdioRegAddr := devAddr }
    if s.mdioReady && !s.main.startMdio then
      let data := if s.pcsLoopbackReg then 0x4000 else 0x2000
      { m with mdioOp := mdioOpWr, axiWrData := data, axiState := .mdioWr }
    else
      m
  | .mdioWr =>
    let m := { m.startMdioOp with writenread := true, mdioOp := mdioOpWr, mdioRegAddr := devAddr }
    if s.mdioReady && !s.main.startMdio then
      if s.pcsLoopbackReg then
        { m with pcsLoopbackConfDone := true, axiState := .mdioRd1 }
      else
        { m with pcsDefaultConfDone := true, axiState := .mdioRd1 }
    else
      m
  | .mdioRd1 =>
    let m := { m.startMdioOp with
      writenread := true, mdioOp := mdioOpRd, mdioRegAddr := devAddr, blockLock := false }
    if s.main.pcsLoopbackConfDone && s.pcsLoopbackReg then
      { m with enableGen := true }
    else
      let m := { m with pcsLoopbackConfDone := false }
      if s.mdioReady && !s.main.startMdio then
        if s.main.pcsDefaultConfDone then
          { m with axiState := .mdioAddr, axiWrData := 0x20 }
        else
          { m with axiState := .mdioAddr1, axiWrData := 0x00 }
      else
        m
  | .mdioAddr =>
    -- 3.32 BASE-R Status 1 register address
    let m := { m.startMdioOp with
      writenread := false, mdioOp := mdioOpAddr, addr := mdioControl, mdioRegAddr := devAddr
      axiWrData := 0x20 }
    if s.mdioReady then { m with axiState := .mdioRd } else m
  | .mdioRd =>
    let m := { m.startMdioOp with writenread := false, mdioOp := mdioOpRd, mdioRegAddr := devAddr }
    if s.mdioReady then { m with axiState := .mdioPollCheck, addr := mdioRxData } else m
  | .mdioPollCheck =>
    let m := m.startMdioOp
    if s.mdioReady then { m with axiState := .mdioCheckData } else m
  | .mdioCheckData =>
    let m := m.startMdioOp
    if s.mdioReady then
      -- BASE-R Link aligned and BlockLock
      if s.axiRdData.setWidth 17 = (0x11005 : BitVec 17) then
        { m with
            startAccess := false, startMdio := false, driveMdio := false, mdioOp := 0
            mdioRegAddr := 0, writenread := false, addr := 0, axiState := .configDone
            blockLock := true }
      else
        { m with axiState := .mdioAddr }
    else
      m
  | .configDone =>
    if s.pcsLoopbackReg then
      { m with startAccess := true, axiState := .resetMacTx, pcsDefaultConfDone := false }
    else
      { m with enableGen := true }
  | .unused => { m with axiState := .startup }

/-- The registers of the main state machine after a reset. -/
def MainRegs.reset : MainRegs where
  axiState := .startup
  enableGen := false
  blockLock := false
  startAccess := false
  startMdio := false
  driveMdio := false
  mdioOp := 0
  mdioRegAddr := 0
  writenread := false
  addr := 0
  axiWrData := 0
  pcsLoopbackConfDone := false
  pcsDefaultConfDone := false

/-- Management process -/
def mainBlock : MainRegs :=
  if !i.resetN then
    .reset
  else if s.canStep then
    mainCase s i
  else
    { s.main with startAccess := false, startMdio := false }

/--
The command word of an MDIO operation. The two places that compose it differ in leading zeros only.
-/
def mdioCommand (op : BitVec 2) (regAddr : BitVec 5) : BitVec 32 :=
  (prtAddr ++ (0 : BitVec 3) ++ regAddr ++ op ++ (1 : BitVec 3) ++ (0 : BitVec 11)).setWidth 32

/-- MDIO setup: `mdio_access_sm` and `mdio_wr_data` -/
def mdioBlock : MdioAccessSm × BitVec 32 :=
  let command := mdioCommand s.main.mdioOp s.main.mdioRegAddr
  if !i.resetN then
    (.idle, s.mdioWrData)
  else if s.axiAccessSm == .idle || s.axiAccessSm == .done then
    match s.mdioAccessSm with
    | .idle =>
      if s.main.startMdio then
        if s.main.mdioOp = mdioOpAddr ∨ s.main.mdioOp = mdioOpWr ∨ s.main.mdioOp = mdioOpRd then
          (.setData, s.main.axiWrData)
        else
          (.init, command)
      else
        (.idle, s.mdioWrData)
    | .setData => (.init, command)
    | .init => (.poll, s.mdioWrData)
    | .poll => (if s.mdioReady then .idle else .poll, s.mdioWrData)
  else if s.mdioAccessSm == .poll && s.mdioReady then
    (.idle, s.mdioWrData)
  else
    (s.mdioAccessSm, s.mdioWrData)

/-- `axi_access_sm` -/
def axiBlock : AxiAccessSm :=
  if !i.resetN then
    .idle
  else
    match s.axiAccessSm with
    | .idle =>
      if s.main.startAccess || s.main.startMdio || s.mdioAccessSm != .idle then
        if s.mdioAccessSm == .poll then
          .read
        else if s.main.startAccess && s.main.writenread
            || (s.mdioAccessSm == .setData || s.mdioAccessSm == .init) || s.main.startMdio then
          .write
        else
          .read
      else
        .idle
    -- wait until axi_status signals that the access is complete
    | .write => if s.aw.status && s.w.status && s.b.status then .done else .write
    | .read => if s.ar.status && s.r.status then .done else .read
    | .done => .idle

/-- READ ADDR -/
def readAddrBlock : Channel (BitVec 32) :=
  s.ar.clock 0 (s.axiAccessSm == .read) (s.main.addr.setWidth 32) i.arready

/-- READ DATA/RESP, the ready signal and its status -/
def readDataBlock : Channel Unit := s.r.clock () (s.axiAccessSm == .read) () i.rvalid

/-- The bit of the data read from `addr` that says that an MDIO operation is over. -/
def readyBit (addr : BitVec 17) (rdata : BitVec 32) : Bool :=
  if addr = mdioRxData then rdata.getLsbD 16 else rdata.getLsbD 7

/-- READ DATA/RESP, `mdio_ready` and `axi_rd_data` -/
def readRegsBlock : Bool × BitVec 32 :=
  if s.axiAccessSm == .read then
    if !s.r.status && s.r.fires i.rvalid then
      (s.main.driveMdio && readyBit s.main.addr i.rdata || s.mdioReady, i.rdata)
    else
      (s.mdioReady, s.axiRdData)
  else if s.axiAccessSm == .idle && (s.main.startAccess || s.main.startMdio) then
    (false, 0)
  else
    (s.mdioReady, s.axiRdData)

/-- The address of a write. -/
def Regs.writeAddr : BitVec 32 :=
  if s.main.driveMdio then
    if s.mdioAccessSm = .setData then mdioTxData.setWidth 32 else mdioControl.setWidth 32
  else
    s.main.addr.setWidth 32

/-- The data of a write. -/
def Regs.writeData : BitVec 32 := if s.main.driveMdio then s.mdioWrData else s.main.axiWrData

/-- WRITE ADDR -/
def writeAddrBlock : Channel (BitVec 32) :=
  s.aw.clock 0 (s.axiAccessSm == .write) s.writeAddr i.awready

/-- WRITE DATA -/
def writeDataBlock : Channel (BitVec 32) :=
  s.w.clock 0 (s.axiAccessSm == .write) s.writeData i.wready

/-- WRITE RESP -/
def writeRespBlock : Channel Unit := s.b.clock () (s.axiAccessSm == .write) () i.bvalid

/-- One clock of `s_axi_aclk`. -/
def clock : Regs where
  main := mainBlock s i
  pcsLoopbackReg := i.pcsLoopback
  mdioAccessSm := (mdioBlock s i).1
  mdioWrData := (mdioBlock s i).2
  axiAccessSm := axiBlock s i
  ar := readAddrBlock s i
  r := readDataBlock s i
  mdioReady := (readRegsBlock s i).1
  axiRdData := (readRegsBlock s i).2
  aw := writeAddrBlock s i
  w := writeDataBlock s i
  b := writeRespBlock s i

/-- The reset is held for two clocks at least, from any state on. -/
def AfterReset (s : Regs) : Prop :=
  ∃ (s₀ : Regs) (i j : Inputs), i.resetN = false ∧ j.resetN = false ∧ s = clock (clock s₀ i) j

end Ethernet
