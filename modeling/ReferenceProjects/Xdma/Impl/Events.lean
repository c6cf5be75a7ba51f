import ReferenceProjects.Lib.Latch
import ReferenceProjects.Lib.Run
import ReferenceProjects.Xdma.Defs

/-!
This module contains the events of a user interrupt: `user_irq_service()`, which raises them, and the
readers of the character device that wait for them in `char_events_read()`.
-/

namespace Xdma

/-- `irqreturn_t` -/
inductive IrqReturn where
  | none
  | handled
  deriving DecidableEq, Repr

/-- `struct xdma_user_irq`; what a registered handler returns stands for the handler. -/
structure UserIrq where
  eventsIrq : BitVec 32
  handler : Option IrqReturn
  deriving DecidableEq, Repr

def userIrqService (userIrq : UserIrq) : UserIrq × IrqReturn :=
  match userIrq.handler with
  | some ret => (userIrq, ret)
  | none =>
    if userIrq.eventsIrq = 0 then
      ({ userIrq with eventsIrq := 1 }, .handled)
    else
      (userIrq, .handled)

/-- The section of `char_events_read()` under `events_lock`, with `events_user`. -/
def eventsTake (userIrq : UserIrq) : UserIrq × BitVec 32 :=
  ({ userIrq with eventsIrq := 0 }, userIrq.eventsIrq)

/-- What `char_events_read()` returns, with `events_user` and the bytes that were not copied of it. -/
inductive EventsReadRet where
  | einval
  | eproto
  | erestartsys
  | read (eventsUser : BitVec 32) (notCopied : Nat)
  deriving DecidableEq, Repr

def EventsReadRet.rv : EventsReadRet → Int
  | .einval => -22
  | .eproto => -71
  | .erestartsys => -512
  | .read _ _ => 4

/-- Where a reader is. -/
inductive EventsReader where
  | idle
  /-- in `wait_event_interruptible()` -/
  | waiting
  /-- after the wait, before the section under `events_lock` -/
  | woken
  deriving DecidableEq, Repr

/--
`char_events_read()` up to the wait; `found` says that `xcdev_check()` passes and the device has a
`user_irq`.
-/
def charEventsReadCheck (found : Bool) (count pos : BitVec 64) : Option EventsReadRet :=
  if ¬ found then
    some .einval
  else if count ≠ 4 then
    some .eproto
  else if pos &&& 3 ≠ 0 then
    some .eproto
  else
    none

/-- The steps on one user interrupt; readers are numbered. -/
inductive EventsAct where
  /-- `user_irq_service()` -/
  | irq
  /-- `char_events_read()` is called -/
  | call (r : Nat) (found : Bool) (count pos : BitVec 64)
  /-- `wait_event_interruptible()` looks at `events_irq` -/
  | test (r : Nat) (signal : Bool)
  /-- the section under `events_lock`, after which nothing is shared, with the result of `copy_to_user()` -/
  | take (r : Nat) (notCopied : Nat)
  deriving DecidableEq, Repr

/-- The user interrupt and its readers; with the steps and the returns so far, the latest first. -/
structure Events where
  userIrq : UserIrq
  readers : Nat → EventsReader
  history : List EventsAct
  returned : List EventsReadRet

/-- `probe_one()` has cleared the device, and nobody has registered a handler. -/
def Events.init : Events := ⟨⟨0, none⟩, fun _ => .idle, [], []⟩

/-- The reader `r` comes to `reader`. -/
def Events.setReader (s : Events) (r : Nat) (reader : EventsReader) : Nat → EventsReader :=
  fun i => if i = r then reader else s.readers i

def Events.step (s : Events) (a : EventsAct) : Option Events :=
  match a with
  | .irq => some { s with userIrq := (userIrqService s.userIrq).1, history := a :: s.history }
  | .call r found count pos =>
    match s.readers r with
    | .idle =>
      match charEventsReadCheck found count pos with
      | some ret => some { s with history := a :: s.history, returned := ret :: s.returned }
      | none => some { s with readers := s.setReader r .waiting, history := a :: s.history }
    | _ => none
  | .test r signal =>
    match s.readers r with
    | .waiting =>
      if s.userIrq.eventsIrq ≠ 0 then
        some { s with readers := s.setReader r .woken, history := a :: s.history }
      else if signal then
        some { s with
          readers := s.setReader r .idle
          history := a :: s.history
          returned := .erestartsys :: s.returned }
      else
        some { s with history := a :: s.history }
    | _ => none
  | .take r notCopied =>
    match s.readers r with
    | .woken =>
      let (userIrq, eventsUser) := eventsTake s.userIrq
      some {
        userIrq := userIrq
        readers := s.setReader r .idle
        history := a :: s.history
        returned := .read eventsUser notCopied :: s.returned }
    | _ => none

end Xdma
