import Mathlib.Data.BitVec

/-!
This module contains the AXI DMA demo: the main loop of `axi_dma_intr_poll`, one access to a flag at a
time, and the interrupt handlers of its two channels.
-/

namespace AxiDma

def irqErrorMask : BitVec 32 := 0x4000
def irqAllMask : BitVec 32 := 0x7000

def resetTimeoutCntrVal : Nat := 0x1000
def maxTxValue : Nat := 0x100

inductive Direction where
  | dmaToDevice
  | deviceToDma
  deriving DecidableEq, Repr

/-- What the DMA is told. -/
inductive DmaCall where
  | simpleTransfer (dir : Direction)
  | intrAckIrq (status : BitVec 32) (dir : Direction)
  | reset
  | resetIsDone
  deriving DecidableEq, Repr

/-- Where `main()` is in its loop. -/
inductive Pc where
  /-- waits for the coefficient -/
  | inbyte
  | fill
  | clearTx
  | clearRx
  | dmaToDev
  | devToDma
  /-- reads `tx_done_flag` in the condition of the inner loop -/
  | waitTx
  | waitRx
  /-- reads `tx_error` -/
  | testTx
  | testRx
  /-- prints the error -/
  | error
  /-- prints the buffers -/
  | success
  deriving DecidableEq, Repr

/-- A status word with the channel that it came from. -/
structure Status where
  dir : Direction
  word : BitVec 32
  deriving DecidableEq, Repr

/-- The flags and the rest of the memory, with the status words of the current iteration. -/
structure Demo where
  pc : Pc
  txDoneFlag : Bool
  rxDoneFlag : Bool
  txError : Bool
  rxError : Bool
  mulCoefficient : BitVec 8
  txBuffer : List Nat
  calls : List DmaCall
  statuses : List Status
  deriving DecidableEq, Repr

inductive Event where
  /-- a byte comes in while `main()` waits for it -/
  | inbyte (byte : BitVec 8)
  /-- `main()` goes on -/
  | main
  /-- an interrupt with its status word, and what `XAxiDma_ResetIsDone()` returns one time after another -/
  | txIntr (status : BitVec 32) (resetIsDone : Nat → Bool)
  | rxIntr (status : BitVec 32) (resetIsDone : Nat → Bool)

def Demo.init : Demo := ⟨.inbyte, false, false, false, false, 0, [], [], []⟩

/-- `while (reset_cntr--)` -/
def resetLoop (resetIsDone : Nat → Bool) : (resetCntr n : Nat) → List DmaCall → List DmaCall
  | 0, _, calls => calls
  | resetCntr + 1, n, calls =>
    if resetIsDone n then
      .resetIsDone :: calls
    else
      resetLoop resetIsDone resetCntr (n + 1) (.resetIsDone :: calls)

/-- The condition under which a handler reports an error; `FALSE` is 0, and `TRUE` is 1. -/
def IntrError (status : BitVec 32) : Prop :=
  0 ≠ status &&& irqAllMask ∧ 1 = status &&& irqErrorMask

instance (status : BitVec 32) : Decidable (IntrError status) := inferInstanceAs (Decidable (_ ∧ _))

/-- `tx_intr_handler()` -/
def txIntrHandler (status : BitVec 32) (resetIsDone : Nat → Bool) (s : Demo) : Demo :=
  let calls := .intrAckIrq status .dmaToDevice :: s.calls
  let s := { s with calls, txDoneFlag := true, statuses := ⟨.dmaToDevice, status⟩ :: s.statuses }
  if IntrError status then
    { s with txError := true, calls := resetLoop resetIsDone resetTimeoutCntrVal 0 (.reset :: calls) }
  else
    s

/-- `rx_intr_handler()` -/
def rxIntrHandler (status : BitVec 32) (resetIsDone : Nat → Bool) (s : Demo) : Demo :=
  let calls := .intrAckIrq status .deviceToDma :: s.calls
  let s := { s with calls, rxDoneFlag := true, statuses := ⟨.deviceToDma, status⟩ :: s.statuses }
  if IntrError status then
    { s with rxError := true, calls := resetLoop resetIsDone resetTimeoutCntrVal 0 (.reset :: calls) }
  else
    s

/-- `for (i = 0; i < MAX_TX_VALUE; i++)` -/
def fillTxBuffer (mulCoefficient : BitVec 8) : List Nat :=
  (List.range maxTxValue).map (fun i => (i * mulCoefficient.toNat) % maxTxValue)

/-- The start of an iteration, once the byte is there. -/
def Demo.inbyte (byte : BitVec 8) (s : Demo) : Demo :=
  let mulCoefficient := byte - 0x30
  if mulCoefficient = 0 ∨ 9 < mulCoefficient then
    -- the next iteration starts
    { s with mulCoefficient, statuses := [] }
  else
    { s with mulCoefficient, pc := .fill }

/-- The next step of `main()`, which does nothing while it waits for a byte. -/
def Demo.main (s : Demo) : Option Demo :=
  match s.pc with
  | .inbyte => none
  | .fill => some { s with txBuffer := fillTxBuffer s.mulCoefficient, pc := .clearTx }
  | .clearTx => some { s with txDoneFlag := false, pc := .clearRx }
  | .clearRx => some { s with rxDoneFlag := false, pc := .dmaToDev }
  | .dmaToDev => some { s with calls := .simpleTransfer .dmaToDevice :: s.calls, pc := .devToDma }
  | .devToDma => some { s with calls := .simpleTransfer .deviceToDma :: s.calls, pc := .waitTx }
  | .waitTx => some { s with pc := if s.txDoneFlag then .waitRx else .waitTx }
  | .waitRx => some { s with pc := if s.rxDoneFlag then .testTx else .waitTx }
  | .testTx => some { s with pc := if s.txError then .error else .testRx }
  | .testRx => some { s with pc := if s.rxError then .error else .success }
  | .error | .success => some { s with pc := .inbyte, statuses := [] }

/-- Interrupts come at any time. -/
def Demo.step (s : Demo) : Event → Option Demo
  | .inbyte byte => if s.pc = .inbyte then some (s.inbyte byte) else none
  | .main => s.main
  | .txIntr status resetIsDone => some (txIntrHandler status resetIsDone s)
  | .rxIntr status resetIsDone => some (rxIntrHandler status resetIsDone s)

end AxiDma
