import ReferenceProjects.Lib.Run
import ReferenceProjects.Xdma.Impl.Hardware
import ReferenceProjects.Xdma.Impl.Vectored

/-!
This module contains a device with one engine of each direction and the memories that they connect:
`char_sgdma_read_write()` from the buffer of a process to the bytes that the engine copies.
-/

namespace Xdma

open Copy

/-- `PAGE_SIZE` bytes of a process, from the bus address that a page of it has. -/
def SgPage.cells (bus : Nat → BitVec 64) (e : SgPage) : List (BitVec 64) :=
  Copy.cells (bus e.page + e.offset.setWidth 64) e.length.toNat

/-- The bytes of a scatter list. -/
def sgCells (sgl : List Scatterlist) : List (BitVec 64) :=
  sgl.flatMap (fun sg => Copy.cells sg.dmaAddress sg.dmaLen)

/--
`get_user_pages_fast()` pins pages that the process has there, as many as it returns and not more than it
is asked for, or none.
-/
structure PinKernel.Walks (k : PinKernel) (table : Nat → Nat) : Prop where
  pages : ∀ buf nr (n : Nat) pages, k.getUserPagesFast buf nr = ((n : Int), pages) →
    n ≤ nr.toNat ∧ pages = (List.range' (buf.toNat / pageSize) n).map table
  none : ∀ buf nr rv pages, k.getUserPagesFast buf nr = (rv, pages) → rv < 0 → pages = []

/--
One `read()` or `write()` of a process on the file of an engine, and what becomes of it: the pages of the
process, by page number, with their bus addresses, what the kernel answers, and the turns of the engine.
The kernel limits `count`, and `pci_map_sg()` maps the bytes of all entries or none.
-/
structure SgdmaCall where
  file : DmaDataDirection
  write : Bool
  buf : BitVec 64
  count : BitVec 64
  pos : BitVec 64
  table : Nat → Nat
  bus : Nat → BitVec 64
  kernel : PinKernel
  pciMapSg : List SgPage → List Scatterlist
  alloc : Nat → Bool
  req : Nat
  turn : Nat → EngineTurn
  limit : count.toNat ≤ 0x7ffff000
  walks : kernel.Walks table
  maps : ∀ entries, pciMapSg entries = []
    ∨ sgCells (pciMapSg entries) = entries.flatMap (SgPage.cells bus)

/-- The file of an engine. -/
structure SgdmaFile where
  drv : Driver
  addrAlign : BitVec 8
  lenGranularity : BitVec 8

def SgdmaFile.engine (f : SgdmaFile) : CharEngine :=
  ⟨f.drv.engine.dir, f.drv.engine.nonIncrAddr, f.addrAlign, f.lenGranularity⟩

/-- The files of the device and the memories. -/
structure Machine where
  file : DmaDataDirection → SgdmaFile
  mem : Memories

def Machine.setDriver (m : Machine) (dir : DmaDataDirection) (drv : Driver) : Machine :=
  { m with file := Function.update m.file dir { m.file dir with drv := drv } }

/-- What `char_sgdma_read_write()` returns and leaves behind, with the calls for its pages, the latest first. -/
structure SgdmaReturn where
  rv : Int
  calls : List MapCall
  machine : Machine

variable (p : ModuleParam)

/-- `char_sgdma_read_write()` with the memories beside it; `none` when it does not return. -/
def charSgdmaReadWriteDma (c : SgdmaCall) (m : Machine) : Option SgdmaReturn :=
  let f := m.file c.file
  if !f.engine.dirOk c.write then
    some ⟨Errno.einval.rv, [], m⟩
  else
    match checkTransferAlign f.engine c.buf.toNat c.count.toNat c.pos.toNat true with
    | .error err => some ⟨err.rv, [], m⟩
    | .ok () =>
      let r := (XdmaIoCb.ofBuf c.buf c.count).charSgdmaMapUserBufToSgl c.kernel
      if r.rv < 0 then
        some ⟨r.rv, r.calls, m⟩
      else
        match xdmaXferSubmitDma p c.alloc f.drv m.mem c.req c.write c.pos (c.pciMapSg r.cb.sgl) false
            c.turn with
        | none => none
        | some (ret, drv, mem) =>
          let rv := match ret with
            | .ok done => (done : Int)
            | .error err => err.rv
          some ⟨rv, (charSgdmaUnmapUserBuf r.cb r.calls).2, { m.setDriver c.file drv with mem := mem }⟩

/-- One call on the files of the device. -/
def Machine.step (m : Machine) (c : SgdmaCall) : Option Machine :=
  (charSgdmaReadWriteDma p c m).map SgdmaReturn.machine

end Xdma
