import ReferenceProjects.Xdma.Defs

/-!
This module contains the file operations of the SG DMA character device: `read()` and `write()` of one
buffer, and their asynchronous, vectored counterparts.
-/

namespace Xdma

/-- `PAGE_SIZE` -/
def pageSize : Nat := 4096

/-- `struct iovec` -/
structure Iovec where
  iovBase : Nat
  iovLen : Nat
  deriving DecidableEq, Repr

/-- `struct iov_iter`, the fields that the driver uses. -/
structure IovIter where
  iov : List Iovec
  iovOffset : Nat
  deriving DecidableEq, Repr

/-- `struct kiocb`: where in the file the operation starts. -/
structure Kiocb where
  kiPos : Nat
  deriving DecidableEq, Repr

/-- What the character device knows of its engine. -/
structure CharEngine where
  dir : DmaDataDirection
  nonIncrAddr : Bool
  addrAlign : BitVec 8
  lenGranularity : BitVec 8
  deriving DecidableEq, Repr

/-- The arguments of `xdma_xfer_submit()` and `xdma_xfer_submit_nowait()` that say what is moved. -/
structure Submission where
  write : Bool
  epAddr : BitVec 64
  sgl : List Scatterlist
  deriving DecidableEq, Repr

/-- `check_transfer_align()` -/
def checkTransferAlign (e : CharEngine) (buf count pos : Nat) (sync : Bool) : Except Errno Unit :=
  let bufLsb := BitVec.ofNat 32 buf &&& (e.addrAlign.setWidth 32 - 1)
  let posLsb := BitVec.ofNat 32 pos &&& (e.addrAlign.setWidth 32 - 1)
  -- AXI ST or AXI MM non-incremental addressing mode?
  if e.nonIncrAddr then
    let lenLsb := BitVec.ofNat 64 count &&& (e.lenGranularity.setWidth 64 - 1)
    if bufLsb ≠ 0 then
      .error .einval
    else if posLsb ≠ 0 ∧ sync then
      .error .einval
    else if lenLsb ≠ 0 then
      .error .einval
    else
      .ok ()
  else if bufLsb ≠ posLsb then
    .error .einval
  else
    .ok ()

/-- `pages_nr`, an `unsigned int`. -/
def pagesNr (buf len : Nat) : Nat :=
  (buf + len + pageSize - 1 - buf / pageSize * pageSize) / pageSize % 2 ^ 32

/--
The loop that fills the scatter list: `nr` pages from the one of user page number `page` on, and what
is left of the buffer after them.
-/
def mapPages : (nr page buf len : Nat) → List Scatterlist × Nat
  | 0, _, _, len => ([], len)
  | nr + 1, page, buf, len =>
    let offset := buf % pageSize
    let nbytes := min (pageSize - offset) (len % 2 ^ 32)
    let (sgl, rest) := mapPages nr (page + 1) (buf + nbytes) (len - nbytes)
    (⟨BitVec.ofNat 64 (page * pageSize + offset), nbytes⟩ :: sgl, rest)

/--
What the allocations and `get_user_pages_fast()` come to for a number of pages from a user address on.
-/
abbrev PinPages := (buf pagesNr : Nat) → Except Errno Unit

variable (pin : PinPages)

/-- `char_sgdma_map_user_buf_to_sgl()`, the scatter list that it makes of a buffer. -/
def charSgdmaMapUserBufToSgl (buf len : Nat) : Except Errno (List Scatterlist) :=
  let nr := pagesNr buf len
  if nr = 0 then
    .error .einval
  else
    match pin buf nr with
    | .error err => .error err
    | .ok () =>
      let (sgl, rest) := mapPages nr (buf / pageSize) buf len
      if rest ≠ 0 then .error .einval else .ok sgl

/-- The engine moves data in the direction that is asked for. -/
def CharEngine.dirOk (e : CharEngine) (write : Bool) : Bool :=
  e.dir == if write then .toDevice else .fromDevice

/-- `char_sgdma_read_write()` up to `xdma_xfer_submit()`. -/
def charSgdmaReadWrite (e : CharEngine) (buf count pos : Nat) (write : Bool)
    : Except Errno Submission :=
  if !e.dirOk write then
    .error .einval
  else
    match checkTransferAlign e buf count pos true with
    | .error err => .error err
    | .ok () =>
      match charSgdmaMapUserBufToSgl pin buf count with
      | .error err => .error err
      | .ok sgl => .ok ⟨write, BitVec.ofNat 64 pos, sgl⟩

/-- `char_sgdma_write()` -/
def charSgdmaWrite (e : CharEngine) (buf count pos : Nat) : Except Errno Submission :=
  charSgdmaReadWrite pin e buf count pos true

/-- `char_sgdma_read()` -/
def charSgdmaRead (e : CharEngine) (buf count pos : Nat) : Except Errno Submission :=
  charSgdmaReadWrite pin e buf count pos false

/-- The body of the loop of `cdev_aio_write()` and `cdev_aio_read()` up to the submission. -/
def cdevAioSegment (e : CharEngine) (io : Iovec) (pos : Nat) (write : Bool)
    : Except Errno Submission :=
  match checkTransferAlign e io.iovBase io.iovLen pos true with
  | .error err => .error err
  | .ok () =>
    match charSgdmaMapUserBufToSgl pin io.iovBase io.iovLen with
    | .error err => .error err
    | .ok sgl => .ok ⟨write, BitVec.ofNat 64 pos, sgl⟩

/-- The loop over the segments: what is submitted, and the error that ends it early. -/
def cdevAioLoop (e : CharEngine) (pos : Nat) (write : Bool)
    : List Iovec → List Submission × Except Errno Unit
  | [] => ([], .ok ())
  | io :: rest =>
    match cdevAioSegment pin e io pos write with
    | .error err => ([], .error err)
    | .ok submission =>
      let (submissions, rv) := cdevAioLoop e pos write rest
      (submission :: submissions, rv)

/-- `cdev_aio_write()`; `ok` is `-EIOCBQUEUED`. -/
def cdevAioWrite (e : CharEngine) (io : List Iovec) (pos : Nat)
    : List Submission × Except Errno Unit :=
  if e.dir ≠ .toDevice then ([], .error .einval) else cdevAioLoop pin e pos true io

/-- `cdev_aio_read()` -/
def cdevAioRead (e : CharEngine) (io : List Iovec) (pos : Nat)
    : List Submission × Except Errno Unit :=
  if e.dir ≠ .fromDevice then ([], .error .einval) else cdevAioLoop pin e pos false io

/-- `cdev_write_iter()`: the position of the operation is not looked at. -/
def cdevWriteIter (e : CharEngine) (_iocb : Kiocb) (io : IovIter)
    : List Submission × Except Errno Unit :=
  cdevAioWrite pin e io.iov io.iovOffset

/-- `cdev_read_iter()` -/
def cdevReadIter (e : CharEngine) (_iocb : Kiocb) (io : IovIter)
    : List Submission × Except Errno Unit :=
  cdevAioRead pin e io.iov io.iovOffset

end Xdma
