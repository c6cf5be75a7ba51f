import Mathlib.Data.BitVec

/-!
This module contains the data model of the XDMA driver core (`libxdma.h`): the constants of the
register and descriptor formats, and the structures that the driver functions read and write.
-/

namespace Xdma

/-- maximum size of a block of adjacent descriptors -/
@[simp] def xdmaMaxAdjBlockSize : Nat := 0x40

@[simp] def xdmaPageSize : Nat := 0x1000

/-- maximum number of desc per transfer request -/
@[simp] def xdmaTransferMaxDesc : Nat := 2048

/-- maximum size of a single DMA transfer descriptor -/
@[simp] def xdmaDescBlenMax : Nat := 2 ^ 28 - 1

def rxStatusEop : BitVec 32 := 1

/- bits of the SG DMA control register -/
def xdmaCtrlRunStop : BitVec 32 := 1 <<< 0
def xdmaCtrlIeDescStopped : BitVec 32 := 1 <<< 1
def xdmaCtrlIeDescCompleted : BitVec 32 := 1 <<< 2
def xdmaCtrlIeDescAlignMismatch : BitVec 32 := 1 <<< 3
def xdmaCtrlIeMagicStopped : BitVec 32 := 1 <<< 4
def xdmaCtrlIeIdleStopped : BitVec 32 := 1 <<< 6
def xdmaCtrlIeReadError : BitVec 32 := 0x1F <<< 9
def xdmaCtrlIeDescError : BitVec 32 := 0x1F <<< 19
def xdmaCtrlNonIncrAddr : BitVec 32 := 1 <<< 25
def xdmaCtrlPollModeWb : BitVec 32 := 1 <<< 26

/- bits of the SG DMA status register -/
def xdmaStatBusy : BitVec 32 := 1 <<< 0
def xdmaStatDescStopped : BitVec 32 := 1 <<< 1
def xdmaStatDescCompleted : BitVec 32 := 1 <<< 2
def xdmaStatAlignMismatch : BitVec 32 := 1 <<< 3
def xdmaStatMagicStopped : BitVec 32 := 1 <<< 4
def xdmaStatInvalidLen : BitVec 32 := 1 <<< 5

def xdmaStatCommonErrMask : BitVec 32 :=
  xdmaStatAlignMismatch ||| xdmaStatMagicStopped ||| xdmaStatInvalidLen

/-- desc_error, C2H & H2C: bits 19 to 23 -/
def xdmaStatDescErrMask : BitVec 32 := 0x1F <<< 19

/-- read error, H2C: bits 9 to 13 -/
def xdmaStatH2cRErrMask : BitVec 32 := 0x1F <<< 9

/-- write error, H2C only: bits 14 and 15 -/
def xdmaStatH2cWErrMask : BitVec 32 := 0x3 <<< 14

/-- read error, C2H: bits 9 and 10 -/
def xdmaStatC2hRErrMask : BitVec 32 := 0x3 <<< 9

def xdmaStatH2cErrMask : BitVec 32 :=
  xdmaStatCommonErrMask ||| xdmaStatDescErrMask ||| xdmaStatH2cRErrMask ||| xdmaStatH2cWErrMask

def xdmaStatC2hErrMask : BitVec 32 :=
  xdmaStatCommonErrMask ||| xdmaStatDescErrMask ||| xdmaStatC2hRErrMask

/- bits of the SGDMA descriptor control field -/
def xdmaDescStopped : BitVec 32 := 1 <<< 0
def xdmaDescCompleted : BitVec 32 := 1 <<< 1
def xdmaDescEop : BitVec 32 := 1 <<< 4

def lsByteMask : BitVec 32 := 0x000000FF

def blockIdMask : BitVec 32 := 0xFFF00000
def blockIdHead : BitVec 32 := 0x1FC00000

def wbCountMask : BitVec 32 := 0x00ffffff
def wbErrMask : BitVec 32 := 1 <<< 31

def descMagic : BitVec 32 := 0xAD4B0000

def xferFlagNeedUnmap : BitVec 32 := 0x1
def xferFlagStC2hEopRcved : BitVec 32 := 0x2

/-- obtain the 32 most significant (high) bits of a 32-bit or 64-bit address -/
def pciDmaH (addr : BitVec 64) : BitVec 32 := ((addr >>> 16) >>> 16).setWidth 32

/-- obtain the 32 least significant (low) bits of a 32-bit or 64-bit address -/
def pciDmaL (addr : BitVec 64) : BitVec 32 := (addr &&& 0xffffffff).setWidth 32

theorem pciDmaH_toNat (addr : BitVec 64)
    : (pciDmaH addr).toNat = addr.toNat / 2 ^ 32 := by
  simp only [pciDmaH, BitVec.toNat_setWidth, BitVec.toNat_ushiftRight, Nat.shiftRight_eq_div_pow]
  have := addr.isLt
  omega

theorem pciDmaL_toNat (addr : BitVec 64)
    : (pciDmaL addr).toNat = addr.toNat % 2 ^ 32 := by
  have hmask : (0xffffffff : BitVec 64).toNat = 2 ^ 32 - 1 := rfl
  simp only [pciDmaL, BitVec.toNat_setWidth, BitVec.toNat_and, hmask]
  rw [Nat.and_two_pow_sub_one_eq_mod, Nat.mod_mod]

@[simp]
theorem pciDmaH_append_pciDmaL (addr : BitVec 64)
    : pciDmaH addr ++ pciDmaL addr = addr := by
  apply BitVec.eq_of_toNat_eq
  rw [BitVec.toNat_append, ← Nat.shiftLeft_add_eq_or_of_lt (pciDmaL addr).isLt,
    Nat.shiftLeft_eq, pciDmaH_toNat, pciDmaL_toNat]
  omega

/-- The error numbers that the modelled functions return, always negated. -/
inductive Errno where
  | eio
  | enomem
  | ebusy
  | einval
  | erestartsys
  deriving DecidableEq, Repr

/-- `enum dma_data_direction`, the two members that an engine can have. -/
inductive DmaDataDirection where
  | toDevice
  | fromDevice
  deriving DecidableEq, Repr

/-- `enum transfer_state` -/
inductive TransferState where
  | new
  | submitted
  | completed
  | failed
  | aborted
  deriving DecidableEq, Repr

/-- `enum shutdown_state`, a set of flags: both clear is `ENGINE_SHUTDOWN_NONE`. -/
structure ShutdownState where
  request : Bool
  idle : Bool
  deriving DecidableEq, Repr

/--
`struct xdma_desc`, the descriptor of one contiguous memory block. The words are little-endian in
memory; the model holds their values.
-/
structure XdmaDesc where
  control : BitVec 32
  bytes : BitVec 32
  srcAddrLo : BitVec 32
  srcAddrHi : BitVec 32
  dstAddrLo : BitVec 32
  dstAddrHi : BitVec 32
  nextLo : BitVec 32
  nextHi : BitVec 32
  deriving DecidableEq, Repr

/-- A descriptor after `memset(.., 0, ..)`. -/
def XdmaDesc.zero : XdmaDesc := ⟨0, 0, 0, 0, 0, 0, 0, 0⟩

/-- `struct xdma_result`, the C2H streaming writeback of one descriptor. -/
structure XdmaResult where
  status : BitVec 32
  length : BitVec 32
  deriving DecidableEq, Repr

/-- One DMA segment of a mapped scatter list, `sg_dma_address` and `sg_dma_len`. -/
structure Scatterlist where
  dmaAddress : BitVec 64
  dmaLen : Nat
  deriving DecidableEq, Repr

/-- `struct sw_desc` -/
structure SwDesc where
  addr : BitVec 64
  len : Nat
  deriving DecidableEq, Repr

/--
The address of a `struct xdma_transfer`: `&req->tfer[idx]` of a request, or the one that a
performance run allocates for itself.
-/
inductive XferPtr where
  | tfer (req idx : Nat)
  | perf (run : Nat)
  deriving DecidableEq, Repr

/--
`struct xdma_transfer`. The pointers into the descriptor and result rings are the index
`descIndex`; `cb` and `sgt` name the request whose I/O callback and scatter table they point to.
-/
structure XdmaTransfer where
  resBus : BitVec 64
  descBus : BitVec 64
  descAdjacent : Nat
  descNum : Nat
  descIndex : Nat
  descCmpl : BitVec 32
  descCmplTh : Nat
  dir : DmaDataDirection
  state : TransferState
  flags : BitVec 32
  cyclic : Bool
  lastInRequest : Bool
  len : Nat
  sgt : Option Nat
  cb : Option Nat
  deriving DecidableEq, Repr

/-- A transfer after `memset(xfer, 0, sizeof(*xfer))`, with the direction that is set next. -/
def XdmaTransfer.zero (dir : DmaDataDirection) : XdmaTransfer where
  resBus := 0
  descBus := 0
  descAdjacent := 0
  descNum := 0
  descIndex := 0
  descCmpl := 0
  descCmplTh := 0
  dir := dir
  state := .new
  flags := 0
  cyclic := false
  lastInRequest := false
  len := 0
  sgt := none
  cb := none

/--
`struct xdma_request_cb` without its embedded transfers. `sw_desc_cnt` is the length of `sdesc`.
-/
structure XdmaRequestCb where
  epAddr : BitVec 64
  swDescIdx : Nat
  sdesc : List SwDesc
  deriving DecidableEq, Repr

def XdmaRequestCb.swDescCnt (req : XdmaRequestCb) : Nat := req.sdesc.length

/--
The number of mapped entries of a request's `struct sg_table`, and how often `pci_unmap_sg` was
called on it.
-/
structure SgTable where
  nents : Nat
  unmaps : Nat
  deriving DecidableEq, Repr

/-- `struct xdma_performance_ioctl`, the fields that the engine functions use. -/
structure XdmaPerformanceIoctl where
  transferSize : Nat
  stopped : Bool
  iterations : BitVec 32
  deriving DecidableEq, Repr

/-- The values that the driver last wrote to the registers of one engine. -/
structure EngineRegs where
  control : BitVec 32
  interruptEnableMask : BitVec 32
  firstDescLo : BitVec 32
  firstDescHi : BitVec 32
  firstDescAdjacent : Nat
  credits : Int
  deriving DecidableEq, Repr

/--
The register values that one call of the driver reads from an engine. `status_rc` clears the status
as it is read, so later reads of `status` have a value of their own.
-/
structure HwRegs where
  identifier : BitVec 32
  statusRc : BitVec 32
  status : BitVec 32
  completedDescCount : BitVec 32
  deriving DecidableEq, Repr

/-- The module parameters that the core reads. -/
structure ModuleParam where
  pollMode : Bool
  enableCreditMp : Bool
  descBlenMax : Nat
  deriving DecidableEq, Repr

/-- `struct xdma_engine` -/
structure XdmaEngine where
  dir : DmaDataDirection
  streaming : Bool
  nonIncrAddr : Bool
  eopFlush : Bool
  shutdown : ShutdownState
  running : Bool
  descDequeued : BitVec 32
  status : BitVec 32
  transferList : List XferPtr
  cyclicResult : Nat → XdmaResult
  cyclicResultBus : BitVec 64
  descBus : BitVec 64
  desc : Nat → XdmaDesc
  descIdx : Nat
  descUsed : Int
  xdmaPerf : Option XdmaPerformanceIoctl
  regs : EngineRegs

/-- C2H over AXI-ST, the only kind of engine with result writebacks and credits. -/
def XdmaEngine.streamC2h (e : XdmaEngine) : Bool := e.streaming && e.dir == .fromDevice

/-- The status bits that `engine_service_final_transfer` takes for an error. -/
def errMask : DmaDataDirection → BitVec 32
  | .fromDevice => xdmaStatC2hErrMask
  | .toDevice => xdmaStatH2cErrMask

end Xdma
