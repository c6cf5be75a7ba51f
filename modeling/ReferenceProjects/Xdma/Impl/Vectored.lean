import ReferenceProjects.Xdma.Impl.Aio
import ReferenceProjects.Xdma.Impl.Nowait
import ReferenceProjects.Xdma.Impl.Pages

/-!
This module contains the memory of a vectored, asynchronous operation: `cdev_aio_write()` and
`cdev_aio_read()` with everything they allocate, pin and put on the queue, and `async_io_handler()`, which
gives it back while their loop may still be running.
-/

namespace Xdma

/--
What an operation holds: its two blocks, where `caio->cb` is the address of `caio->cb[0]`, and for each
segment the request of its submission and what its mapping holds.
-/
inductive AioRes where
  | block (b : AioBlock)
  | req (i : Nat)
  | map (i : Nat) (r : MapRes)
  deriving DecidableEq, Repr

abbrev AioResCall := Ledger.Call AioRes

/-- A transfer on the queue whose callback argument is `&caio->cb[seg]`. -/
structure SegXfer where
  seg : Nat
  lastInRequest : Bool
  deriving DecidableEq, Repr

/-- The numbers of the errors, as they are returned. -/
def Errno.rv : Errno → Int
  | .eio => -5
  | .enomem => -12
  | .ebusy => -16
  | .einval => -22
  | .erestartsys => -512

/--
The transfers that the submission of a segment leaves on the queue: all it built, without the last one if
that was refused.
-/
def NowaitResult.queued (r : NowaitResult) (seg : Nat) : List SegXfer :=
  let first := r.tferIdx.dropLast.map (fun _ => ⟨seg, false⟩)
  match r.err with
  | none => first ++ r.tferIdx.getLast?.toList.map (fun _ => ⟨seg, true⟩)
  | some _ => first

/--
What the submission of a segment allocates and frees: its request, if it gets as far as a transfer.
-/
def NowaitResult.calls (r : NowaitResult) (seg : Nat) : List AioResCall :=
  match r.err with
  | none => [.acquire (.req seg) true]
  | some _ => if r.tferIdx = [] then [] else [.release (.req seg), .acquire (.req seg) true]

/--
A call of `cdev_aio_write()` or `cdev_aio_read()`: what the file and the user give it, and what becomes of
the mapping and the submission of each segment.
-/
structure VectoredCall where
  xcdev : Option CharEngine
  iov : List Iovec
  pos : Nat
  write : Bool
  kernel : Nat → PinKernel
  nowait : Nat → NowaitResult

/--
The state of an operation: the index of the loop, what it returned, where `ok` is `-EIOCBQUEUED`, the
counter of the `struct cdev_async_io`, its segments, the queue, and the calls, the latest first.
-/
structure Vectored where
  next : Nat
  ret : Option (Except Int Unit)
  cmplCnt : Nat
  cb : Nat → XdmaIoCb
  queued : List SegXfer
  calls : List AioResCall

inductive VectoredEvent where
  /-- one round of the loop, or what follows the loop -/
  | submit
  /-- a transfer is taken off the queue, and its callback runs if it is the last of its request -/
  | complete (x : SegXfer)
  deriving DecidableEq, Repr

/-- An operation that was refused before it allocated anything. -/
def Vectored.refused : Vectored where
  next := 0
  ret := some (.error Errno.einval.rv)
  cmplCnt := 0
  cb := fun _ => .ofBuf 0 0
  queued := []
  calls := []

/-- An operation with its two blocks, before its loop. -/
def Vectored.allocated : Vectored where
  next := 0
  ret := none
  cmplCnt := 0
  cb := fun _ => .ofBuf 0 0
  queued := []
  calls := [.acquire (.block (.cb 0)) true, .acquire (.block .caio) true]

/--
`cdev_aio_write()` and `cdev_aio_read()` up to their loop. What an allocation returns is written to
without a test, so there is no run in which one fails.
-/
def VectoredCall.enter (c : VectoredCall) : Vectored :=
  match c.xcdev with
  | none => .refused
  | some engine => if engine.dirOk c.write then .allocated else .refused

/-- One round of the loop; what the submission returns is not looked at. -/
def vectoredRound (c : VectoredCall) (engine : CharEngine) (s : Vectored) : Vectored :=
  match c.iov[s.next]? with
  | none => { s with ret := some (.ok ()) }
  | some io =>
    let cb := XdmaIoCb.ofBuf (BitVec.ofNat 64 io.iovBase) (BitVec.ofNat 64 io.iovLen)
    match checkTransferAlign engine io.iovBase io.iovLen c.pos true with
    | .error err =>
      { s with
          ret := some (.error err.rv)
          cb := Function.update s.cb s.next cb
          calls := .release (.block .caio) :: s.calls
      }
    | .ok () =>
      let r := cb.charSgdmaMapUserBufToSgl (c.kernel s.next)
      let s := { s with
        cb := Function.update s.cb s.next r.cb
        calls := r.calls.map (Ledger.Call.map (AioRes.map s.next)) ++ s.calls
      }
      if r.rv < 0 then
        { s with ret := some (.error r.rv) }
      else
        { s with
            next := s.next + 1
            queued := s.queued ++ (c.nowait s.next).queued s.next
            calls := (c.nowait s.next).calls s.next ++ s.calls
        }

/--
`async_io_handler()` for segment `i`: `xdma_xfer_completion()` frees the request, the buffer is unmapped,
and the last one that is handled frees `caio` and its own `cb`.
-/
def vectoredHandler (c : VectoredCall) (s : Vectored) (i : Nat) : Vectored :=
  let (cb, calls) := charSgdmaUnmapUserBuf (s.cb i) []
  let s := { s with
    cmplCnt := s.cmplCnt + 1
    cb := Function.update s.cb i cb
    calls := calls.map (Ledger.Call.map (AioRes.map i)) ++ .release (.req i) :: s.calls
  }
  if s.cmplCnt = c.iov.length then
    { s with calls := .release (.block (.cb i)) :: .release (.block .caio) :: s.calls }
  else
    s

/--
One step. There is none in which the callback of a transfer reads a `caio` that was freed.
-/
def Vectored.step (c : VectoredCall) (s : Vectored) : VectoredEvent → Option Vectored
  | .submit =>
    match s.ret, c.xcdev with
    | none, some engine => some (vectoredRound c engine s)
    | _, _ => none
  | .complete x =>
    if x ∉ s.queued then
      none
    else
      let s := { s with queued := s.queued.erase x }
      if !x.lastInRequest then
        some s
      else if AioRes.block .caio ∈ Ledger.held s.calls then
        some (vectoredHandler c s x.seg)
      else
        none

end Xdma
