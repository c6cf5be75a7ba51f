import ReferenceProjects.Xdma.Impl.Irq

/-!
This module contains the tables in which a device has which message each of its interrupts is sent as,
and how `irq_setup()` and `irq_teardown()` write them.
-/

namespace Xdma

/-- `struct interrupt_regs`, its tables `user_msi_vector` and `channel_msi_vector` by word. -/
structure MsiVectors where
  user : Nat → BitVec 32
  channel : Nat → BitVec 32

/--
The inner loop of `prog_irq_msix_channel()` and `prog_irq_msix_user()` over `n` more bytes of a word: what it
leaves `i` at, and the word.
-/
def progIrqMsixWord (max : Nat) : (n i shift : Nat) → BitVec 32 → Nat × BitVec 32
  | 0, i, _, val => (i, val)
  | n + 1, i, shift, val =>
    if i < max then
      progIrqMsixWord max n (i + 1) (shift + 8) (val ||| (BitVec.ofNat 32 i &&& 0x1f) <<< shift)
    else
      (i, val)

/-- Their outer loop over at most `n` more words, from word `j` on. -/
def progIrqMsixLoop (clear : Bool) (max : Nat) : (n i j : Nat) → (Nat → BitVec 32) → Nat → BitVec 32
  | 0, _, _, vector => vector
  | n + 1, i, j, vector =>
    if i < max then
      let (i, val) := if clear then (i + 4, 0) else progIrqMsixWord max 4 i 0 0
      progIrqMsixLoop clear max n i (j + 1) (Function.update vector j val)
    else
      vector

/-- `prog_irq_msix_user()`; there are at most as many words as there are interrupts. -/
def progIrqMsixUser (c : IrqConfig) (clear : Bool) (v : MsiVectors) : MsiVectors :=
  let i := c.c2hChannelMax + c.h2cChannelMax
  let max := i + c.userMax
  { v with user := progIrqMsixLoop clear max max i 0 v.user }

/-- `prog_irq_msix_channel()` -/
def progIrqMsixChannel (c : IrqConfig) (clear : Bool) (v : MsiVectors) : MsiVectors :=
  let max := c.c2hChannelMax + c.h2cChannelMax
  { v with channel := progIrqMsixLoop clear max max 0 0 v.channel }

/-- The writes of `irq_legacy_setup()`, for the interrupt pin that it reads. -/
def progIrqLegacy (val : BitVec 8) (v : MsiVectors) : MsiVectors :=
  if val > 1 then
    let val := (val - 1).setWidth 32
    let w := val <<< 24 ||| val <<< 16 ||| val <<< 8 ||| val
    { user := fun j => if j < 4 then w else v.user j
      channel := fun j => if j < 2 then w else v.channel j }
  else
    v

/-- `irq_setup()`, what it does to the tables. -/
def irqSetupVectors (c : IrqConfig) (req : RequestIrq) (s : IrqState) (v : MsiVectors) : MsiVectors :=
  if c.msixEnabled then
    match irqSetup c req s with
    | (_, some _) => v
    | (_, none) => progIrqMsixUser c false (progIrqMsixChannel c false v)
  else if c.msiEnabled then
    v
  else
    progIrqLegacy (BitVec.ofNat 8 c.pdev.interruptPin) v

/-- `irq_teardown()`, what it does to the tables. -/
def irqTeardownVectors (c : IrqConfig) (v : MsiVectors) : MsiVectors :=
  if c.msixEnabled then progIrqMsixUser c true (progIrqMsixChannel c true v) else v

/-- A device that is open or not, its interrupts and the tables. -/
structure IrqVectors where
  sys : IrqSys
  vectors : MsiVectors

/-- What a call does to the tables. -/
def IrqVectors.after (s : IrqVectors) : IrqEvent → MsiVectors
  | .open o req =>
    if o.error.isSome ∨ (enableMsiMsix o.msi).2.2.isSome then
      s.vectors
    else
      irqSetupVectors o.config req ⟨-1, fun _ => 0, fun _ => 0, s.sys.irq.calls⟩ s.vectors
  | .offline | .close =>
    match s.sys.dev with
    | some c => irqTeardownVectors c s.vectors
    | none => s.vectors
  | .online pollMode req =>
    match s.sys.dev with
    | some c => if !pollMode then irqSetupVectors c req s.sys.irq s.vectors else s.vectors
    | none => s.vectors

/-- One call, with the tables. -/
def IrqVectors.step (s : IrqVectors) (e : IrqEvent) : Option IrqVectors :=
  (s.sys.step e).map (fun sys => ⟨sys, s.after e⟩)

end Xdma
