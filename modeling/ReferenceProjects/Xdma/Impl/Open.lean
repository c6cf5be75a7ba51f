import ReferenceProjects.Xdma.Defs
import Mathlib.Logic.Function.Basic

/-!
This module contains how the device node of an engine is opened and closed: `char_sgdma_open()` and
`char_sgdma_close()` of any files, between which nothing is locked.
-/

namespace Xdma

/-- Where a file is that opens the node; `trunc` is `O_TRUNC` of its flags. -/
inductive OpenPc where
  | closed
  /-- `device_open` was not 1 -/
  | tested (trunc : Bool)
  | claimed (trunc : Bool)
  | opened (trunc : Bool)
  deriving DecidableEq, Repr

/-- `struct xdma_engine`, what opening reads and writes, and the files. -/
structure SgdmaNode where
  streaming : Bool
  dir : DmaDataDirection
  deviceOpen : Bool
  eopFlush : Bool
  files : Nat → OpenPc

/-- The engine is set up and no file is open. -/
def SgdmaNode.init (streaming : Bool) (dir : DmaDataDirection) : SgdmaNode where
  streaming := streaming
  dir := dir
  deviceOpen := false
  eopFlush := false
  files := fun _ => .closed

def SgdmaNode.setFile (s : SgdmaNode) (f : Nat) (pc : OpenPc) : SgdmaNode :=
  { s with files := Function.update s.files f pc }

inductive OpenEvent where
  /-- `char_sgdma_open()` up to the test of `device_open` -/
  | open (f : Nat) (trunc : Bool)
  /-- it sets `device_open` -/
  | claim (f : Nat)
  /-- it sets `eop_flush` and returns -/
  | flush (f : Nat)
  /-- `char_sgdma_close()`, with what `xcdev_check()` returns -/
  | close (f : Nat) (xcdevCheck : Int)

/-- A node that only one file is to have open. -/
def SgdmaNode.exclusive (s : SgdmaNode) : Bool := s.streaming && s.dir == .fromDevice

/-- A step; an open that is refused leaves the file closed. -/
def SgdmaNode.step (s : SgdmaNode) : OpenEvent → Option SgdmaNode
  | .open f trunc =>
    match s.files f with
    | .closed =>
      if s.exclusive then
        if s.deviceOpen then some s else some (s.setFile f (.tested trunc))
      else
        some (s.setFile f (.opened trunc))
    | _ => none
  | .claim f =>
    match s.files f with
    | .tested trunc => some { s.setFile f (.claimed trunc) with deviceOpen := true }
    | _ => none
  | .flush f =>
    match s.files f with
    | .claimed trunc => some { s.setFile f (.opened trunc) with eopFlush := trunc }
    | _ => none
  | .close f xcdevCheck =>
    match s.files f with
    | .opened _ =>
      if xcdevCheck < 0 then
        some (s.setFile f .closed)
      else if s.exclusive then
        some { s.setFile f .closed with deviceOpen := false }
      else
        some (s.setFile f .closed)
    | _ => none

end Xdma
