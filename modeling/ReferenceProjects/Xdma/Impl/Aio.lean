import ReferenceProjects.Xdma.Impl.Sgdma

/-!
This module contains the life of a vectored, asynchronous operation: the loop that submits its
segments, and `async_io_handler()`, which the completion of a segment calls, in any order.
-/

namespace Xdma

/-- How a transfer of a request ended, and the bytes that it moved if it completed. -/
structure XferOutcome where
  completed : Bool
  bytes : Nat
  deriving DecidableEq, Repr

/-- What `xdma_xfer_submit_nowait()` comes to. -/
inductive NowaitOutcome where
  | refused (err : Errno)
  | queued (xfers : List XferOutcome)
  deriving DecidableEq, Repr

/-- The bytes that `xdma_xfer_completion()` counts: up to the first transfer that failed. -/
def xferCompletionDone (xfers : List XferOutcome) : Nat :=
  ((xfers.takeWhile XferOutcome.completed).map XferOutcome.bytes).sum

/-- The memory that an operation allocates: its `struct cdev_async_io`, and `&caio->cb[i]`. -/
inductive AioBlock where
  | caio
  | cb (i : Nat)
  deriving DecidableEq, Repr

/-- A call of `ki_complete()`: its result, and the segments whose completion was handled by then. -/
structure KiComplete where
  res : Nat
  handled : List Nat
  deriving DecidableEq, Repr

/-- An operation: what it is called with, and what becomes of the submission of each segment. -/
structure AioCall where
  engine : CharEngine
  iov : List Iovec
  pos : Nat
  write : Bool
  nowait : Nat → NowaitOutcome

/--
The state of an operation: the index of the loop, the value it returned, the counters of the
`struct cdev_async_io`, and a history, the latest first.
-/
structure AioState where
  next : Nat
  ret : Option (Except Errno Unit)
  cmplCnt : Nat
  res : Nat
  handled : List Nat
  completions : List KiComplete
  frees : List AioBlock
  deriving Repr

def AioState.init : AioState where
  next := 0
  ret := none
  cmplCnt := 0
  res := 0
  handled := []
  completions := []
  frees := []

inductive AioEvent where
  /-- one round of the loop, or what follows the loop -/
  | submit
  /-- the last transfer of segment `i` is served, and its callback runs -/
  | finish (i : Nat)
  deriving DecidableEq, Repr

variable (pin : PinPages)

/--
One round of the loop of `cdev_aio_write()` and `cdev_aio_read()`, which an engine of the other
direction does not enter. What the submission returns is not looked at.
-/
def aioSubmit (c : AioCall) (s : AioState) : AioState :=
  if !c.engine.dirOk c.write then
    { s with ret := some (.error .einval) }
  else
    match c.iov[s.next]? with
    | none => { s with ret := some (.ok ()) }
    | some io =>
      match checkTransferAlign c.engine io.iovBase io.iovLen c.pos true with
      | .error err => { s with ret := some (.error err), frees := .caio :: s.frees }
      | .ok () =>
        match charSgdmaMapUserBufToSgl pin io.iovBase io.iovLen with
        | .error err => { s with ret := some (.error err) }
        | .ok _ => { s with next := s.next + 1 }

/-- `async_io_handler()` for segment `i`, without an error and with the lock of the operation free. -/
def asyncIoHandler (c : AioCall) (s : AioState) (i : Nat) (xfers : List XferOutcome) : AioState :=
  let s := { s with
    cmplCnt := s.cmplCnt + 1
    res := s.res + xferCompletionDone xfers
    handled := i :: s.handled
  }
  if s.cmplCnt = c.iov.length then
    { s with
        completions := ⟨s.res, s.handled⟩ :: s.completions
        frees := .cb i :: .caio :: s.frees
    }
  else
    s

/-- One step; a request without transfers has none whose service could call back. -/
def aioStep (c : AioCall) (s : AioState) : AioEvent → Option AioState
  | .submit => if s.ret.isSome then none else some (aioSubmit pin c s)
  | .finish i =>
    if i < s.next ∧ i ∉ s.handled then
      match c.nowait i with
      | .queued (x :: xs) => some (asyncIoHandler c s i (x :: xs))
      | _ => none
    else
      none

end Xdma
