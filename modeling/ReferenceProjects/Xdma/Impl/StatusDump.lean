import ReferenceProjects.Lib.Sprint
import ReferenceProjects.Xdma.Defs

/-!
This module contains `engine_status_dump()`, which prints the status of an engine into a buffer on the
stack.
-/

namespace Xdma

def xdmaStatIdleStopped : BitVec 32 := 1 <<< 6

/- desc_error, C2H & H2C -/
def xdmaStatDescUnsuppReq : BitVec 32 := 1 <<< 19
def xdmaStatDescComplAbort : BitVec 32 := 1 <<< 20
def xdmaStatDescParityErr : BitVec 32 := 1 <<< 21
def xdmaStatDescHeaderEp : BitVec 32 := 1 <<< 22
def xdmaStatDescUnexpCompl : BitVec 32 := 1 <<< 23

/- read error: H2C -/
def xdmaStatH2cRUnsuppReq : BitVec 32 := 1 <<< 9
def xdmaStatH2cRComplAbort : BitVec 32 := 1 <<< 10
def xdmaStatH2cRParityErr : BitVec 32 := 1 <<< 11
def xdmaStatH2cRHeaderEp : BitVec 32 := 1 <<< 12
def xdmaStatH2cRUnexpCompl : BitVec 32 := 1 <<< 13

/- write error, H2C only -/
def xdmaStatH2cWDecodeErr : BitVec 32 := 1 <<< 14
def xdmaStatH2cWSlaveErr : BitVec 32 := 1 <<< 15

/- read error: C2H -/
def xdmaStatC2hRDecodeErr : BitVec 32 := 1 <<< 9
def xdmaStatC2hRSlaveErr : BitVec 32 := 1 <<< 10

/-- The bytes of an ASCII text. -/
def asciiBytes (s : String) : List (BitVec 8) := s.toList.map (fun c => BitVec.ofNat 8 c.toNat)

def hexDigit (n : Nat) : BitVec 8 := BitVec.ofNat 8 (if n < 10 then 48 + n else 87 + n)

/-- `%08x` -/
def hex08 (v : BitVec 32) : List (BitVec 8) :=
  (List.range 8).map (fun i => hexDigit ((v >>> (28 - 4 * i)) &&& 0xf).toNat)

/-- `char name[16]` up to its terminating NUL -/
structure EngineName where
  chars : List (BitVec 8)
  length_le : chars.length ≤ 15
  nul : 0 ∉ chars

/-- `char buffer[256]` with `len`, and what is written to it. -/
abbrev StatusBuf := Sprint.Buf (BitVec 8)

def StatusBuf.sprintf (s : StatusBuf) (text : List (BitVec 8)) : StatusBuf := s.print 0 text

/-- A bit of the status, and what is printed if it is set. -/
abbrev StatusWord := BitVec 32 × String

def statusWord (v : BitVec 32) (s : StatusBuf) (w : StatusWord) : StatusBuf :=
  if v &&& w.1 ≠ 0 then s.sprintf (asciiBytes w.2) else s

def statusWords (v : BitVec 32) (ws : List StatusWord) (s : StatusBuf) : StatusBuf :=
  ws.foldl (statusWord v) s

/-- `buf[len - 1] = ','` -/
def StatusBuf.comma (s : StatusBuf) : StatusBuf := s.patch 44

/-- The errors of a mask behind their heading, the last blank replaced by a comma. -/
def errWords (v mask : BitVec 32) (heading : String) (ws : List StatusWord) (s : StatusBuf)
    : StatusBuf :=
  if v &&& mask ≠ 0 then
    StatusBuf.comma (statusWords v ws (s.sprintf (asciiBytes heading)))
  else
    s

def stateWords : List StatusWord := [
  (xdmaStatBusy, "BUSY,"),
  (xdmaStatDescStopped, "DESC_STOPPED,"),
  (xdmaStatDescCompleted, "DESC_COMPL,")
]

def commonErrWords : List StatusWord := [
  (xdmaStatAlignMismatch, "ALIGN_MISMATCH "),
  (xdmaStatMagicStopped, "MAGIC_STOPPED "),
  (xdmaStatInvalidLen, "INVLIAD_LEN "),
  (xdmaStatIdleStopped, "IDLE_STOPPED ")
]

def h2cRWords : List StatusWord := [
  (xdmaStatH2cRUnsuppReq, "UNSUPP_REQ "),
  (xdmaStatH2cRComplAbort, "COMPL_ABORT "),
  (xdmaStatH2cRParityErr, "PARITY "),
  (xdmaStatH2cRHeaderEp, "HEADER_EP "),
  (xdmaStatH2cRUnexpCompl, "UNEXP_COMPL ")
]

def h2cWWords : List StatusWord := [
  (xdmaStatH2cWDecodeErr, "DECODE_ERR "),
  (xdmaStatH2cWSlaveErr, "SLAVE_ERR ")
]

def c2hRWords : List StatusWord := [
  (xdmaStatC2hRDecodeErr, "DECODE_ERR "),
  (xdmaStatC2hRSlaveErr, "SLAVE_ERR ")
]

def descErrWords : List StatusWord := [
  (xdmaStatDescUnsuppReq, "UNSUPP_REQ "),
  (xdmaStatDescComplAbort, "COMPL_ABORT "),
  (xdmaStatDescParityErr, "PARITY "),
  (xdmaStatDescHeaderEp, "HEADER_EP "),
  (xdmaStatDescUnexpCompl, "UNEXP_COMPL ")
]

def statusHeader (name : EngineName) (v : BitVec 32) : List (BitVec 8) :=
  asciiBytes "SG engine " ++ name.chars ++ asciiBytes " status: 0x" ++ hex08 v ++ asciiBytes ": "

/-- `engine_status_dump()` -/
def engineStatusDump (name : EngineName) (dir : DmaDataDirection) (v : BitVec 32) : StatusBuf :=
  let s : StatusBuf := StatusBuf.sprintf .empty (statusHeader name v)
  let s := statusWords v stateWords s
  -- common H2C & C2H
  let s :=
    if v &&& xdmaStatCommonErrMask ≠ 0 then StatusBuf.comma (statusWords v commonErrWords s) else s
  let s :=
    match dir with
    | .toDevice =>
      errWords v xdmaStatH2cWErrMask "W:" h2cWWords (errWords v xdmaStatH2cRErrMask "R:" h2cRWords s)
    | .fromDevice => errWords v xdmaStatC2hRErrMask "R:" c2hRWords s
  let s := errWords v xdmaStatDescErrMask "DESC_ERR:" descErrWords s
  s.patch 0

end Xdma
