import ReferenceProjects.Lib.Copy
import ReferenceProjects.Tools.Impl

/-!
This module contains the system calls of `read_to_buffer()` and `write_from_buffer()` in their order, and
the file that they are made on.
-/

namespace Tools

/-- A system call and what it returned. -/
abbrev Returned := Call × Int

/-- What is asked of `lseek()` in a round: nothing at offset 0. -/
def Sought (calls : Calls) (fd : Fd) (n : Nat) (offset : BitVec 64) : Prop :=
  offset ≠ 0 → calls.result n (.lseek fd offset) = offset.toInt

instance (calls : Calls) (fd : Fd) (n : Nat) (offset : BitVec 64)
    : Decidable (Sought calls fd n offset) :=
  inferInstanceAs (Decidable (_ → _))

/-- The number of the system call that moves data, in a round that begins with the call `n`. -/
def dataCall (n : Nat) (offset : BitVec 64) : Nat := if offset ≠ 0 then n + 1 else n

def seekTrace (calls : Calls) (fd : Fd) (n : Nat) (offset : BitVec 64) : List Returned :=
  if offset ≠ 0 then [(.lseek fd offset, calls.result n (.lseek fd offset))] else []

/-- The system calls of `transferLoop`, which a short or failed one ends. -/
def transferTrace (calls : Calls) (fd : Fd) (call : Nat → Nat → Call) (size n count : Nat)
    (offset : BitVec 64) : List Returned :=
  if count < size then
    let bytes := min (size - count) rwMaxSize
    let rc := calls.result (dataCall n offset) (call count bytes)
    if ¬ Sought calls fd n offset then
      seekTrace calls fd n offset
    else if rc ≠ bytes then
      seekTrace calls fd n offset ++ [(call count bytes, rc)]
    else
      seekTrace calls fd n offset ++ (call count bytes, rc) ::
        transferTrace calls fd call size (dataCall n offset + 1) (count + bytes)
          (offset + BitVec.ofNat 64 bytes)
  else
    []
termination_by size - count
decreasing_by simp only [rwMaxSize]; omega

/-- The calls of `read_to_buffer()`. -/
def readTrace (calls : Calls) (fd : Fd) (n : Nat) (buffer size base : BitVec 64) : List Returned :=
  transferTrace calls fd (.read fd buffer) size.toNat n 0 base

/-- The calls of `write_from_buffer()`. -/
def writeTrace (calls : Calls) (fd : Fd) (n : Nat) (buffer size base : BitVec 64) : List Returned :=
  transferTrace calls fd (.write fd buffer) size.toNat n 0 base

/-- `lseek()` with `SEEK_SET` returns the offset, which is not negative, or -1. -/
structure FileCalls extends Calls where
  lseek_eq : ∀ n fd offset, result n (.lseek fd offset) = -1
    ∨ (0 ≤ offset.toInt ∧ result n (.lseek fd offset) = offset.toInt)

inductive FileKind where
  /-- `read()` and `write()` advance the position -/
  | ordinary
  /-- a DMA device node, of which only `lseek()` moves the position -/
  | device
  deriving DecidableEq, Repr

/-- An open file. -/
structure File where
  kind : FileKind
  pos : BitVec 64
  deriving DecidableEq, Repr

/-- Bytes that are moved between the buffer and the file. -/
abbrev BufMove := Copy.Move Nat (BitVec 64)

/-- `len` bytes are moved from the position on; `k` bytes of the buffer come before them. -/
def File.transfer (f : File) (k len : Nat) : File × List BufMove :=
  let pos :=
    match f.kind with
    | .ordinary => f.pos + BitVec.ofNat 64 len
    | .device => f.pos
  ({ f with pos }, [⟨k, f.pos, len⟩])

/-- What a system call does that has returned. -/
def File.call (f : File) : Returned → File × List BufMove
  | (.lseek _ _, rc) => (if 0 ≤ rc then { f with pos := BitVec.ofInt 64 rc } else f, [])
  | (.read _ _ k _, rc) | (.write _ _ k _, rc) => f.transfer k rc.toNat

def File.calls (f : File) : List Returned → File × List BufMove
  | [] => (f, [])
  | c :: cs =>
    let (f, moves) := f.call c
    let (f, later) := f.calls cs
    (f, moves ++ later)

/-- The bytes of the buffer and of the file that the calls connect. -/
def File.pairs (f : File) (trace : List Returned) : List (Nat × BitVec 64) :=
  (f.calls trace).2.flatMap Copy.Move.pairs

end Tools
