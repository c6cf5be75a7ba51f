import ReferenceProjects.Lib.Store
import ReferenceProjects.Xdma.Impl.Service
import ReferenceProjects.Xdma.Fetch

/-!
This module contains the other side of an engine: the two memories that it connects, what it copies once
it is started, and the blocking submission with the engine at work beside it.
-/

namespace Xdma

open Copy

/-- The memory of the host, by bus addresses, and that of the card. -/
structure Memories where
  host : BitVec 64 → BitVec 8
  card : BitVec 64 → BitVec 8

/-- The bytes that a descriptor copies, each with the byte that it is copied to. -/
def XdmaDesc.copies (d : XdmaDesc) : List (BitVec 64 × BitVec 64) :=
  (cells d.srcAddr d.bytes.toNat).zip (cells d.dstAddr d.bytes.toNat)

/-- An H2C engine reads the host and writes the card, a C2H engine does the reverse. -/
def Memories.dma (m : Memories) (dir : DmaDataDirection) (copies : List (BitVec 64 × BitVec 64))
    : Memories :=
  match dir with
  | .toDevice => { m with card := store m.host copies m.card }
  | .fromDevice => { m with host := store m.card copies m.host }

/--
The slots of the ring that an engine fetches once its run bit is set; `none` when it does not stop or is
led out of the ring.
-/
def XdmaEngine.fetched (e : XdmaEngine) : Option (List Nat) :=
  if e.regs.control &&& xdmaCtrlRunStop = 0 then
    some []
  else
    (fetchWalk e xdmaTransferMaxDesc (e.regs.firstDescHi ++ e.regs.firstDescLo)
      e.regs.firstDescAdjacent).map List.flatten

/-- What an engine copies with the descriptors in some slots. -/
def XdmaEngine.copies (e : XdmaEngine) (slots : List Nat) : List (BitVec 64 × BitVec 64) :=
  slots.flatMap (fun k => (e.desc k).copies)

/--
What becomes of one transfer: the registers that queueing it and waking up read, the services between
them, and how many bytes are copied. An engine that counts all its descriptors as completed has copied
all bytes, and it never counts more than there are.
-/
structure EngineTurn where
  hwQueue : HwRegs
  hwWake : HwRegs
  services : XdmaEngine → List (BitVec 32 × HwRegs)
  bytes : XdmaEngine → Nat
  present : engineRegDump hwWake = .ok ()
  honest : ∀ e slots, e.fetched = some slots → ∀ x ∈ services e,
    (serviceCount x.1 x.2).toNat ≤ slots.length
      ∧ ((serviceCount x.1 x.2).toNat = slots.length → (e.copies slots).length ≤ bytes e)

variable (p : ModuleParam)

/-- The engine is serviced, by the interrupt work or by polling. -/
def EngineTurn.others (h : EngineTurn) (s : Driver) : Driver :=
  (h.services s.engine).foldl (fun s x => engineService p s x.1 x.2) s

/-- The engine as the environment of one transfer. -/
def EngineTurn.wait (h : EngineTurn) : Wait := ⟨h.hwQueue, h.hwWake, h.others p⟩

/-- What the engine does to the memories before it is done or stopped. -/
def EngineTurn.dma (h : EngineTurn) (e : XdmaEngine) (m : Memories) : Option Memories :=
  e.fetched.map (fun slots => m.dma e.dir ((e.copies slots).take (h.bytes e)))

/-- The `while (nents)` loop of `xdma_xfer_submit()` with the memories beside it. -/
def submitLoopDma (r : Nat) (dmaMapped : Bool) (hw : Nat → EngineTurn) : (fuel k : Nat) → Driver
    → Memories → SubmitLoop → Option (SubmitLoop × Driver × Memories)
  | fuel, k, s, m, l =>
    if l.nents = 0 then
      some (l, s, m)
    else
      match fuel with
      | 0 => none
      | fuel + 1 =>
        let t := XferPtr.tfer r 0
        let (s, nents) := submitInit s r t none dmaMapped l.nents
        match transferQueue p s t (hw k).hwQueue with
        | .error err => some ({ l with rv := some err, nents := nents }, s, m)
        | .ok s =>
          match (hw k).dma s.engine m with
          | none => none
          | some m =>
            let s := (hw k).others p s
            let l := submitSwitch s.engine (s.xfer t) { l with nents := nents }
            let s := submitDestroy (submitWake p s t (hw k).hwWake) t
            if l.rv.isSome then
              some (l, s, m)
            else
              submitLoopDma r dmaMapped hw fuel (k + 1) s m l

/-- `xdma_xfer_submit()` with the memories beside it. -/
def xdmaXferSubmitDma (alloc : Nat → Bool) (s : Driver) (m : Memories) (r : Nat) (write : Bool)
    (epAddr : BitVec 64) (sgl : List Scatterlist) (dmaMapped : Bool) (hw : Nat → EngineTurn)
    : Option (Except Errno Nat × Driver × Memories) :=
  match submitRequest p alloc s r write epAddr sgl dmaMapped with
  | none => none
  | some (s, .error err) => some (.error err, s, m)
  | some (s, .ok req) =>
    match submitLoopDma p r dmaMapped hw req.swDescCnt 0 s m ⟨none, 0, req.swDescCnt⟩ with
    | none => none
    | some (l, s, m) => some (submitReturn l, submitExit s r dmaMapped, m)

end Xdma
