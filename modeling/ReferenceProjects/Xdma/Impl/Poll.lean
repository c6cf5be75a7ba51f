import ReferenceProjects.Lib.Mailbox
import ReferenceProjects.Xdma.Defs

/-!
This module contains the poll mode: the writeback word, the steps of `engine_service_wb_monitor()`, and
`engine_service_poll()` around it.
-/

namespace Xdma

/-- The count in a writeback. -/
def wbCount (wb : BitVec 32) : Nat := (wb &&& wbCountMask).toNat

/-- Where the thread that polls is, with its `expected_wb` and `desc_wb`. -/
inductive PollPc where
  | idle
  /-- before the word is read -/
  | read (expectedWb : BitVec 32)
  /-- before the word, which was not 0, is cleared -/
  | clear (expectedWb descWb : BitVec 32)
  /-- before `desc_wb` is looked at -/
  | check (expectedWb descWb : BitVec 32)
  /-- before `engine_service()` is called -/
  | service (descWb : BitVec 32)
  deriving DecidableEq, Repr

/--
The mailbox is `completed_desc_count` of the writeback buffer. `met` is the largest count that was read
and met what was expected, and `serviced` the largest that `engine_service()` was called with.
-/
structure Poll where
  mailbox : Mailbox.State (BitVec 32)
  pc : PollPc
  met : Nat
  serviced : Nat
  deriving DecidableEq, Repr

inductive PollEvent where
  /-- the hardware writes back -/
  | store (wb : BitVec 32)
  /-- `engine_service_poll()` is called -/
  | poll (expectedDescCount : BitVec 32)
  | read
  | clear
  | check (timeAfter : Bool)
  | service
  deriving DecidableEq, Repr

/-- The engine has just been started, and its buffer was set up. -/
def Poll.init : Poll := ⟨Mailbox.init 0, .idle, 0, 0⟩

/-- A writeback that ends the loop without a time-out. -/
def WbMet (expectedWb descWb : BitVec 32) : Prop :=
  descWb &&& wbErrMask ≠ 0 ∨ expectedWb ≤ descWb

instance (expectedWb descWb : BitVec 32) : Decidable (WbMet expectedWb descWb) :=
  inferInstanceAs (Decidable (_ ∨ _))

/-- What `engine_service_poll()` does with what `engine_service_wb_monitor()` returns. -/
def PollPc.returned (descWb : BitVec 32) : PollPc := if descWb = 0 then .idle else .service descWb

/-- The end of the loop of `engine_service_wb_monitor()`; `timeAfter` is the comparison with `jiffies`. -/
def PollPc.loop (expectedWb descWb : BitVec 32) (timeAfter : Bool) : PollPc :=
  if descWb &&& wbErrMask ≠ 0 then
    .returned descWb
  else if expectedWb ≤ descWb then
    .returned descWb
  else if timeAfter then
    .returned (if expectedWb < descWb &&& wbCountMask then expectedWb ||| wbErrMask else descWb)
  else
    .read expectedWb

/-- One step of the thread or of the hardware. -/
def Poll.step (s : Poll) : PollEvent → Option Poll
  | .store wb => (Mailbox.store wbCount s.mailbox wb).map (fun m => { s with mailbox := m })
  | .poll expectedWb =>
    match s.pc with
    | .idle => some { s with pc := if expectedWb = 0 then .returned 0 else .read expectedWb }
    | _ => none
  | .read =>
    match s.pc with
    | .read expectedWb =>
      let descWb := s.mailbox.word
      some { s with
        mailbox := Mailbox.read wbCount s.mailbox
        pc := if descWb ≠ 0 then .clear expectedWb descWb else .check expectedWb descWb
        met := if WbMet expectedWb descWb then max s.met (wbCount descWb) else s.met }
    | _ => none
  | .clear =>
    match s.pc with
    | .clear expectedWb descWb =>
      some { s with mailbox := Mailbox.clear 0 s.mailbox, pc := .check expectedWb descWb }
    | _ => none
  | .check timeAfter =>
    match s.pc with
    | .check expectedWb descWb => some { s with pc := .loop expectedWb descWb timeAfter }
    | _ => none
  | .service =>
    match s.pc with
    | .service descWb => some { s with pc := .idle, serviced := max s.serviced (wbCount descWb) }
    | _ => none

end Xdma
