import Mathlib.Tactic.TypeStar

/-!
This module contains handshakes: a party that offers a value on a channel until it is taken, with a
bit that remembers that it was, and the joining of what two such channels transfer.
-/

namespace Handshake

/--
What a party drives of a channel, a payload and whether it is valid, and its status: the handshake of
the current access took place.
-/
structure Channel (α : Type*) where
  payload : α
  valid : Bool
  status : Bool
  deriving DecidableEq, Repr

variable {α β : Type*}

/-- Both sides agree in this clock. -/
def Channel.fires (c : Channel α) (ready : Bool) : Bool := c.valid && ready

/--
One clock: while an access lasts the value is offered until it is taken, and nothing otherwise.
-/
def Channel.clock (c : Channel α) (rest : α) (active : Bool) (value : α) (ready : Bool) : Channel α :=
  if active then
    if !c.status then
      if c.fires ready then ⟨rest, false, true⟩ else ⟨value, true, false⟩
    else
      c
  else
    ⟨rest, false, false⟩

/-- What is offered is the value of the access, and it is not offered a second time. -/
structure Channel.Offers (c : Channel α) (value : α) : Prop where
  payload : c.valid = true → c.payload = value
  once : c.status = true → c.valid = false

section Channel

variable {c : Channel α} {value : α}

theorem Channel.Offers.rest (value : α) (rest : α)
    : (Channel.mk rest false false).Offers value := by
  constructor
  . intro h
    contradiction
  . intro h
    contradiction

theorem Channel.Offers.not_fires (h : c.Offers value) (ready : Bool) (hstatus : c.status = true)
    : c.fires ready = false := by
  rw [Channel.fires, h.once hstatus, Bool.false_and]

theorem Channel.Offers.clock (h : c.Offers value) (rest : α) (ready : Bool)
    : (c.clock rest true value ready).Offers value := by
  unfold Channel.clock
  simp only [↓reduceIte]
  split
  . split
    . constructor
      . intro hvalid
        contradiction
      . intro _
        rfl
    . constructor
      . intro _
        rfl
      . intro hstatus
        contradiction
  . apply h

theorem Channel.clock_status (c : Channel α) (rest value : α) (ready : Bool)
    : (c.clock rest true value ready).status = (c.status || c.fires ready) := by
  unfold Channel.clock
  cases hstatus : c.status with
  | true => simp [hstatus]
  | false => cases hfires : c.fires ready <;> simp

/-- An offer that is not taken stands. -/
theorem Channel.Offers.clock_stable (h : c.Offers value) (rest : α) {ready : Bool}
    (hvalid : c.valid = true) (hready : ready = false)
    : (c.clock rest true value ready).valid = true
      ∧ (c.clock rest true value ready).payload = c.payload := by
  have hstatus : c.status = false := by
    cases hs : c.status with
    | false => rfl
    | true => rw [h.once hs] at hvalid; contradiction
  have hfires : c.fires ready = false := by rw [Channel.fires, hready, Bool.and_false]
  unfold Channel.clock
  simp [hstatus, hfires, h.payload hvalid]

end Channel

/-- The halves of a transfer that were seen so far. -/
structure Halves (α β : Type*) where
  fst : Option α
  snd : Option β
  deriving DecidableEq, Repr

/-- Take in what comes in a clock; a transfer is complete when both of its halves are there. -/
def Halves.clock (h : Halves α β) (a : Option α) (b : Option β) : Halves α β × Option (α × β) :=
  match a.or h.fst, b.or h.snd with
  | some a, some b => (⟨none, none⟩, some (a, b))
  | a, b => (⟨a, b⟩, none)

/-- The halves that are seen when one of two channels is ahead of the other. -/
def Halves.ahead (fst snd : Bool) (a : α) (b : β) : Halves α β where
  fst := if fst && !snd then some a else none
  snd := if snd && !fst then some b else none

/--
Each channel transfers once; the transfer is complete in the clock in which the second of them does.
-/
theorem Halves.clock_ahead {fst snd fires fires' : Bool} (hfst : fst = true → fires = false)
    (hsnd : snd = true → fires' = false) (a : α) {b b' : β} (hb : fires' = false → b' = b)
    : (Halves.ahead fst snd a b).clock (if fires then some a else none)
          (if fires' then some b' else none)
        = (Halves.ahead (fst || fires) (snd || fires') a b',
          if (fst || fires) && (snd || fires') && !(fst && snd) then some (a, b') else none) := by
  cases fires' with
  | true =>
    cases fst <;> cases snd <;> cases fires <;> simp_all [Halves.ahead, Halves.clock]
  | false =>
    rw [hb rfl]
    cases fst <;> cases snd <;> cases fires <;> simp_all [Halves.ahead, Halves.clock]

end Handshake
