import Mathlib.Data.BitVec

/-!
This module contains the tools `dma_to_device` and `dma_from_device`: `read_to_buffer()` and
`write_from_buffer()`, which they share, and `test_dma()` of each.
-/

namespace Tools

def eio : Int := 5
def enomem : Int := 12
def einval : Int := 22

/-- A system call moves at most this many bytes. -/
def rwMaxSize : Nat := 0x7ffff000

inductive Fd where
  | device
  | infile
  | outfile
  deriving DecidableEq, Repr

/-- The system calls; `pos` bytes of the transfer are behind the start `buf` of its buffer already. -/
inductive Call where
  | lseek (fd : Fd) (offset : BitVec 64)
  | read (fd : Fd) (buf : BitVec 64) (pos bytes : Nat)
  | write (fd : Fd) (buf : BitVec 64) (pos bytes : Nat)
  deriving DecidableEq, Repr

/--
What the system calls of a run return, one after the other. A call moves no more than it is asked to,
and no buffer is as long as half of the address space.
-/
structure Calls where
  result : Nat → Call → Int
  read_le : ∀ n fd buf pos bytes, result n (.read fd buf pos bytes) ≤ bytes
    ∧ pos + result n (.read fd buf pos bytes) < 2 ^ 63
  write_le : ∀ n fd buf pos bytes, result n (.write fd buf pos bytes) ≤ bytes
    ∧ pos + result n (.write fd buf pos bytes) < 2 ^ 63

/-- How a transfer ended, with the number of bytes that it moved. -/
inductive Outcome where
  | failed (count : Nat)
  | moved (count : Nat)
  deriving DecidableEq, Repr

def Outcome.count : Outcome → Nat
  | .failed count => count
  | .moved count => count

/-- What is returned for it, an `ssize_t`. -/
def Outcome.rc : Outcome → Int
  | .failed _ => -eio
  | .moved count => (BitVec.ofNat 64 count).toInt

/--
`while (count < size)` from the system call `n` on; `call` is the one that moves data. With the outcome
comes the number of the next system call.
-/
def transferLoop (calls : Calls) (fd : Fd) (call : Nat → Nat → Call) (size n count : Nat)
    (offset : BitVec 64) : Outcome × Nat :=
  if count < size then
    let bytes := min (size - count) rwMaxSize
    let seek := offset ≠ 0
    if seek ∧ calls.result n (.lseek fd offset) ≠ offset.toInt then
      (.failed count, n + 1)
    else
      let n := if seek then n + 1 else n
      let rc := calls.result n (call count bytes)
      if rc < 0 then
        (.failed count, n + 1)
      else if rc ≠ bytes then
        (.moved (count + rc.toNat), n + 1)
      else
        transferLoop calls fd call size (n + 1) (count + bytes) (offset + BitVec.ofNat 64 bytes)
  else
    (.moved count, n)
termination_by size - count
decreasing_by simp only [rwMaxSize]; omega

def readToBuffer (calls : Calls) (fd : Fd) (n : Nat) (buffer size base : BitVec 64)
    : Outcome × Nat :=
  transferLoop calls fd (.read fd buffer) size.toNat n 0 base

def writeFromBuffer (calls : Calls) (fd : Fd) (n : Nat) (buffer size base : BitVec 64)
    : Outcome × Nat :=
  transferLoop calls fd (.write fd buffer) size.toNat n 0 base

/-- Where a transfer takes place. -/
inductive Place where
  | input
  /-- an aperture window of the device -/
  | window
  /-- the device, without an aperture -/
  | whole
  | output
  deriving DecidableEq, Repr

/-- A transfer of a run, kept as a record of it. -/
structure Transfer where
  place : Place
  size : Nat
  outcome : Outcome
  deriving DecidableEq, Repr

/-- The transfers of one `i`: from or to the device, and to the output file. -/
structure Iteration where
  device : List Transfer
  file : Option Transfer
  deriving DecidableEq, Repr

inductive Tool where
  | toDevice
  | fromDevice
  deriving DecidableEq, Repr

/-- The options of both tools; `eopFlush` is one of `dma_from_device`, `infname` of `dma_to_device`. -/
structure Args where
  addr : BitVec 64
  aperture : BitVec 64
  size : BitVec 64
  offset : BitVec 64
  count : BitVec 64
  infname : Bool
  ofname : Bool
  eopFlush : Bool
  deriving DecidableEq, Repr

/--
Which files could be opened, whether the buffer could be allocated, and what the variable `rc` of
`dma_to_device` happens to hold at the start.
-/
structure Env where
  calls : Calls
  openDevice : Bool
  openIn : Bool
  openOut : Bool
  alloc : Bool
  rc : Int

/-- The variables of the loop over `i`. -/
structure Vars where
  calls : Nat
  rc : Int
  bytesDone : BitVec 64
  underflow : Bool
  outOffset : BitVec 64

variable (env : Env) (a : Args) (tool : Tool)

def Args.aptLoop : Nat :=
  if a.aperture = 0 then 0 else ((a.size + a.aperture - 1) / a.aperture).toNat

/-- The transfer between buffer and device. -/
def Tool.transfer (n : Nat) (buffer size : BitVec 64) : Outcome × Nat :=
  match tool with
  | .toDevice => writeFromBuffer env.calls .device n buffer size a.addr
  | .fromDevice => readToBuffer env.calls .device n buffer size a.addr

/--
The loop over the aperture windows. It declares an `rc` of its own, which is unsigned: no window ends
the loop, and what it failed with is added to `bytes_done`.
-/
def windows : Nat → BitVec 64 → BitVec 64 → Vars → Vars × List Transfer
  | 0, _, _, v => (v, [])
  | k + 1, len, buf, v =>
    let bytes := if a.aperture < len then a.aperture else len
    let (o, n) := tool.transfer env a v.calls buf bytes
    let rc := BitVec.ofInt 64 o.rc
    let v := { v with
      calls := n, bytesDone := v.bytesDone + rc, underflow := v.underflow || decide (rc < bytes) }
    let (v, ts) := windows k (len - a.aperture) (buf + a.aperture) v
    (v, ⟨.window, bytes.toNat, o⟩ :: ts)

/-- The transfers between buffer and device, and whether they end the run. -/
def deviceTransfers (v : Vars) : Vars × List Transfer × Bool :=
  if 0 < a.aptLoop then
    let (v, ts) := windows env a tool a.aptLoop a.size a.offset { v with bytesDone := 0 }
    (v, ts, false)
  else
    let (o, n) := tool.transfer env a v.calls a.offset a.size
    let ts := [⟨.whole, a.size.toNat, o⟩]
    let v := { v with calls := n, rc := o.rc }
    if o.rc < 0 then
      (v, ts, true)
    else
      let bytesDone := BitVec.ofInt 64 o.rc
      ({ v with bytesDone, underflow := v.underflow || decide (bytesDone < a.size) }, ts, false)

/-- The clock is read after the transfers; only `dma_to_device` keeps what that returns. -/
def Tool.clockEnd (v : Vars) : Vars :=
  match tool with
  | .toDevice => { v with rc := 0 }
  | .fromDevice => v

/-- One `i`, and whether it ends the run. Reading the clock does not fail. -/
def iteration (v : Vars) : Vars × Iteration × Bool :=
  let (v, device, exited) := deviceTransfers env a tool { v with rc := 0 }
  if exited then
    (v, ⟨device, none⟩, true)
  else
    let v := tool.clockEnd v
    if a.ofname then
      let (o, n) := writeFromBuffer env.calls .outfile v.calls a.offset v.bytesDone v.outOffset
      let file := some ⟨.output, v.bytesDone.toNat, o⟩
      let v := { v with calls := n, rc := o.rc }
      if o.rc < 0 ∨ BitVec.ofInt 64 o.rc < v.bytesDone then
        (v, ⟨device, file⟩, true)
      else
        ({ v with outOffset := v.outOffset + v.bytesDone }, ⟨device, file⟩, false)
    else
      (v, ⟨device, none⟩, false)

/-- `for (i = 0; i < count; i++)` -/
def iterations : Nat → Vars → Vars × List Iteration × Bool
  | 0, v => (v, [], false)
  | k + 1, v =>
    let (v, it, exited) := iteration env a tool v
    if exited then
      (v, [it], true)
    else
      let (v, its, exited) := iterations k v
      (v, it :: its, exited)

/-- What `test_dma()` returns, with its transfers. -/
structure Result where
  ret : Int
  input : Option Transfer
  iterations : List Iteration
  deriving DecidableEq, Repr

/-- Conversion to the `int` that `test_dma()` returns. -/
def toInt32 (rc : Int) : Int := (BitVec.ofInt 32 rc).toInt

namespace DmaToDevice

/-- From `out:` on. -/
def exitCode (v : Vars) : Int :=
  if v.rc < 0 then toInt32 v.rc else if v.underflow then -eio else 0

def testDma : Result :=
  if !env.openDevice then
    ⟨-einval, none, []⟩
  else if a.infname && !env.openIn then
    ⟨-einval, none, []⟩
  else if a.ofname && !env.openOut then
    ⟨-einval, none, []⟩
  else if !env.alloc then
    ⟨-enomem, none, []⟩
  else if a.infname then
    let (o, n) := readToBuffer env.calls .infile 0 a.offset a.size 0
    let input := some ⟨.input, a.size.toNat, o⟩
    let v : Vars := ⟨n, o.rc, 0, false, 0⟩
    if o.rc < 0 ∨ BitVec.ofInt 64 o.rc < a.size then
      ⟨exitCode v, input, []⟩
    else
      let (v, its, _) := iterations env a .toDevice a.count.toNat v
      ⟨exitCode v, input, its⟩
  else
    let (v, its, _) := iterations env a .toDevice a.count.toNat ⟨0, env.rc, 0, false, 0⟩
    ⟨exitCode v, none, its⟩

end DmaToDevice

namespace DmaFromDevice

def testDma : Result :=
  if !env.openDevice then
    ⟨-einval, none, []⟩
  else if a.ofname && !env.openOut then
    ⟨-einval, none, []⟩
  else if !env.alloc then
    ⟨-enomem, none, []⟩
  else
    let (v, its, exited) := iterations env a .fromDevice a.count.toNat ⟨0, 0, 0, false, 0⟩
    if exited then
      ⟨toInt32 v.rc, none, its⟩
    else
      -- an underflow is allowed with -e
      ⟨if !v.underflow || a.eopFlush then 0 else -eio, none, its⟩

end DmaFromDevice

end Tools
