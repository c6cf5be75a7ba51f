import ReferenceProjects.Lib.Handshake
import Mathlib.Data.BitVec

/-!
This module contains the registers and inputs of `ethernet_flow_cntrl`, which configures the MAC and,
over MDIO, the PCS of a 10G Ethernet port, and the constants of its three state machines.
-/

namespace Ethernet

open Handshake (Channel)

/-- Main state machine; `unused` stands for the codes that have no state. -/
inductive AxiState where
  | startup
  | resetMacTx
  | resetMacRx
  | mdioAddr
  | mdioRd
  | mdioRd1
  | mdioWr
  | mdioAddr1
  | mdioAddr2
  | mdioPollCheck
  | mdioCheckData
  | configDone
  | mdioReadPcsReset
  | mdioReadPcsResetPoll
  | mdioReadPcsResetRead
  | mdioResetCheck
  | unused
  deriving DecidableEq, Repr

/-- MDIO state machine -/
inductive MdioAccessSm where
  | idle
  | setData
  | init
  | poll
  deriving DecidableEq, Repr

/-- AXI state machine -/
inductive AxiAccessSm where
  | idle
  | read
  | write
  | done
  deriving DecidableEq, Repr

def configManagementAddr : BitVec 17 := 0x500
def receiverAddr : BitVec 17 := 0x404
def transmitterAddr : BitVec 17 := 0x408

/- MDIO registers -/
def mdioControl : BitVec 17 := 0x504
def mdioTxData : BitVec 17 := 0x508
def mdioRxData : BitVec 17 := 0x50C

def mdioOpAddr : BitVec 2 := 0b00
def mdioOpRd : BitVec 2 := 0b11
def mdioOpRdIncr : BitVec 2 := 0b10
def mdioOpWr : BitVec 2 := 0b01

def prtAddr : BitVec 5 := 0x00
def devAddr : BitVec 5 := 0x03

/-- The inputs that a clock samples. The responses `bresp` and `rresp` are not looked at. -/
structure Inputs where
  resetN : Bool
  pcsLoopback : Bool
  enableVlan : Bool
  enableCustomPreamble : Bool
  awready : Bool
  wready : Bool
  bvalid : Bool
  arready : Bool
  rdata : BitVec 32
  rvalid : Bool
  deriving DecidableEq, Repr

/-- The registers of the main state machine. -/
structure MainRegs where
  axiState : AxiState
  enableGen : Bool
  blockLock : Bool
  startAccess : Bool
  startMdio : Bool
  driveMdio : Bool
  mdioOp : BitVec 2
  mdioRegAddr : BitVec 5
  writenread : Bool
  addr : BitVec 17
  axiWrData : BitVec 32
  pcsLoopbackConfDone : Bool
  pcsDefaultConfDone : Bool
  deriving DecidableEq, Repr

/--
All registers. Each of the five AXI channels has its `axi_status` bit next to what it drives; on the
channels `b` and `r` that is the ready signal.
-/
structure Regs where
  main : MainRegs
  pcsLoopbackReg : Bool
  mdioAccessSm : MdioAccessSm
  mdioWrData : BitVec 32
  axiAccessSm : AxiAccessSm
  ar : Channel (BitVec 32)
  r : Channel Unit
  mdioReady : Bool
  axiRdData : BitVec 32
  aw : Channel (BitVec 32)
  w : Channel (BitVec 32)
  b : Channel Unit
  deriving DecidableEq, Repr

end Ethernet
