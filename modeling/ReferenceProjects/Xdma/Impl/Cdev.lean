import Mathlib.Data.BitVec
import ReferenceProjects.Xdma.Impl.Irq

/-!
This module contains the character devices of a device: `create_xcdev()` and `destroy_xcdev()`, the
interfaces that are made of them, and `probe_one()`, which creates these and frees them if it fails.
-/

namespace Xdma

/-- `enum cdev_type` -/
inductive CdevType where
  | user
  | ctrl
  | xvc
  | events
  | xdmaH2c
  | xdmaC2h
  | bypassH2c
  | bypassC2h
  | bypass
  deriving DecidableEq, Repr

/-- `enum xpdev_flags_bits` -/
inductive XpdevFlag where
  | cdevUser
  | cdevCtrl
  | cdevXvc
  | cdevEvent
  | cdevSg
  | cdevBypass
  deriving DecidableEq, Repr

def XpdevFlag.bit : XpdevFlag → Nat
  | .cdevUser => 0
  | .cdevCtrl => 1
  | .cdevXvc => 2
  | .cdevEvent => 3
  | .cdevSg => 4
  | .cdevBypass => 5

/-- `xpdev_flag_set()` -/
def xpdevFlagSet (flags : BitVec 32) (fbit : XpdevFlag) : BitVec 32 := flags ||| 1#32 <<< fbit.bit

/-- `xpdev_flag_test()` -/
def xpdevFlagTest (flags : BitVec 32) (fbit : XpdevFlag) : Bool := flags &&& 1#32 <<< fbit.bit ≠ 0

/-- The `struct xdma_cdev` that are in `struct xdma_pci_dev`. -/
inductive CdevId where
  | ctrl
  | sgdmaC2h (i : Nat)
  | sgdmaH2c (i : Nat)
  | events (i : Nat)
  | user
  | bypassC2h (i : Nat)
  | bypassH2c (i : Nat)
  | bypassBase
  | xvc
  deriving DecidableEq, Repr

/-- `dev_t`: a major and a minor number. -/
structure DevT where
  major : Nat
  minor : Int
  deriving DecidableEq, Repr

/-- What is registered with the kernel; a region is known by where it starts. -/
inductive CdevResource where
  | chrdevRegion (dev : DevT)
  | cdev (id : CdevId)
  | sysDevice (dev : DevT)
  deriving DecidableEq, Repr

abbrev CdevCall := Ledger.Call CdevResource

/-- What the kernel returns, and `g_xdma_class`. Dynamic majors are not 0, and errors are negative. -/
structure CdevKernel where
  allocChrdevRegion : Int
  alloc_nonpos : allocChrdevRegion ≤ 0
  major : Nat
  major_pos : 0 < major
  kobjectSetName : CdevId → Int
  cdevAdd : CdevId → Int
  /-- what `device_create()` returns is not NULL -/
  deviceCreate : CdevId → Bool
  xdmaClass : Bool

/-- `struct xdma_engine`, what matters here of it. -/
structure CharEngineId where
  magic : Bool
  channel : Nat
  deriving DecidableEq, Repr

/-- The numbers of interrupts and channels, and the BARs and engines of `struct xdma_dev`. -/
structure CdevConfig where
  userMax : Nat
  h2cChannelMax : Nat
  c2hChannelMax : Nat
  configBarIdx : Int
  bypassBarIdx : Int
  userBarIdx : Int
  engineH2c : Nat → CharEngineId
  engineC2h : Nat → CharEngineId

/-- `struct xdma_cdev`; the pointers `xdev` and `sys_device` are set or NULL. -/
structure XdmaCdev where
  magic : Bool
  xdev : Bool
  bar : Int
  engine : Option CharEngineId
  cdevno : DevT
  sysDevice : Bool
  deriving DecidableEq, Repr

/-- `struct xdma_pci_dev`, with the calls of the kernel so far, the latest first. -/
structure Xpdev where
  major : Nat
  flags : BitVec 32
  cdev : CdevId → XdmaCdev
  calls : List CdevCall

def einval : Int := 22
def enomem : Int := 12
def eagain : Int := 11
def efault : Int := 14
def enodev : Int := 19
def eproto : Int := 71
def etimedout : Int := 110
def enoioctlcmd : Int := 515

def xdmaMinorBase : Int := 0

section Create

variable (k : CdevKernel) (c : CdevConfig)

/-- What is called next. -/
def Xpdev.call (s : Xpdev) (call : CdevCall) : Xpdev := { s with calls := call :: s.calls }

/-- `config_kobject()` -/
def configKobject (id : CdevId) (xcdev : XdmaCdev) (type : CdevType) : Int :=
  match type with
  | .xdmaH2c | .xdmaC2h | .bypassH2c | .bypassC2h =>
    if xcdev.engine.isNone then -einval else k.kobjectSetName id
  | .bypass | .user | .ctrl | .xvc | .events => k.kobjectSetName id

/-- `minor` of `create_xcdev()` -/
def cdevMinor (bar : Int) (engine : Option CharEngineId) (type : CdevType) : Int :=
  let channel := (engine.map CharEngineId.channel).getD 0
  match type with
  | .user => 0
  | .ctrl => 1
  | .xvc => 2
  | .xdmaH2c => 32 + channel
  | .xdmaC2h => 36 + channel
  | .events => 10 + bar
  | .bypassH2c => 64 + channel
  | .bypassC2h => 68 + channel
  | .bypass => 100

/-- The start of `create_xcdev()`: a new instance allocates its region. -/
def newInstance (s : Xpdev) : Xpdev × Int :=
  if s.major = 0 then
    let rv := k.allocChrdevRegion
    let s := s.call (.acquire (.chrdevRegion ⟨k.major, xdmaMinorBase⟩) (rv = 0))
    if rv ≠ 0 then (s, rv) else ({ s with major := k.major }, 0)
  else
    (s, 0)

/-- `create_sys_device()` -/
def createSysDevice (id : CdevId) (s : Xpdev) : Xpdev × Int :=
  let ok := k.deviceCreate id
  let s := s.call (.acquire (.sysDevice (s.cdev id).cdevno) ok)
  let s := { s with cdev := Function.update s.cdev id { s.cdev id with sysDevice := ok } }
  if !ok then (s, -1) else (s, 0)

/-- `create_xcdev()`, from `cdev_add()` on. -/
def addXcdev (id : CdevId) (s : Xpdev) : Xpdev × Int :=
  let region : CdevResource := .chrdevRegion (s.cdev id).cdevno
  let rv := k.cdevAdd id
  let s := s.call (.acquire (.cdev id) (0 ≤ rv))
  if rv < 0 then
    (s.call (.release region), rv)
  else if k.xdmaClass then
    let (s, rv) := createSysDevice k id s
    if rv < 0 then
      ((s.call (.release (.cdev id))).call (.release region), rv)
    else
      (s, 0)
  else
    (s, 0)

/-- `create_xcdev()` -/
def createXcdev (id : CdevId) (bar : Int) (engine : Option CharEngineId) (type : CdevType)
    (s : Xpdev) : Xpdev × Int :=
  let (s, rv) := newInstance k s
  if rv ≠ 0 then
    (s, rv)
  else
    let xcdev := { s.cdev id with magic := true, xdev := true, engine, bar }
    let rv := configKobject k id xcdev type
    if rv < 0 then
      ({ s with cdev := Function.update s.cdev id xcdev }, rv)
    else
      let xcdev := { xcdev with cdevno := ⟨s.major, cdevMinor bar engine type⟩ }
      addXcdev k id { s with cdev := Function.update s.cdev id xcdev }

/-- `if (rv < 0) goto fail;` -/
def orFail (r : Xpdev × Int) (next : Xpdev → Xpdev × Int) : Xpdev × Int :=
  if r.2 < 0 then r else next r.1

/-- A loop of `xpdev_create_interfaces()` over `n` devices, from number `i` on. -/
def createLoop (create : Nat → Xpdev → Xpdev × Int) : (n i : Nat) → Xpdev → Xpdev × Int
  | 0, _, s => (s, 0)
  | n + 1, i, s => orFail (create i s) (createLoop create n (i + 1))

/-- The body of the loops over channels. -/
def createChannel (engine : Nat → CharEngineId) (id : Nat → CdevId) (type : CdevType) (i : Nat)
    (s : Xpdev) : Xpdev × Int :=
  if !(engine i).magic then (s, 0) else createXcdev k (id i) i (some (engine i)) type s

def setFlag (fbit : XpdevFlag) (s : Xpdev) : Xpdev × Int :=
  ({ s with flags := xpdevFlagSet s.flags fbit }, 0)

/-- The bypass character devices of `xpdev_create_interfaces()`. -/
def createBypass (s : Xpdev) : Xpdev × Int :=
  if 0 < c.bypassBarIdx then
    orFail (createLoop (createChannel k c.engineH2c .bypassH2c .bypassH2c) c.h2cChannelMax 0 s) fun s =>
    orFail (createLoop (createChannel k c.engineC2h .bypassC2h .bypassC2h) c.c2hChannelMax 0 s) fun s =>
    orFail (createXcdev k .bypassBase c.bypassBarIdx none .bypass s) fun s =>
    setFlag .cdevBypass s
  else
    (s, 0)

/-- The user and the xvc character device of `xpdev_create_interfaces()`. -/
def createUser (s : Xpdev) : Xpdev × Int :=
  if 0 ≤ c.userBarIdx then
    orFail (createXcdev k .user c.userBarIdx none .user s) fun s =>
    orFail (setFlag .cdevUser s) fun s =>
    orFail (createXcdev k .xvc c.userBarIdx none .xvc s) fun s =>
    setFlag .cdevXvc s
  else
    (s, 0)

/-- `xpdev_create_interfaces()` up to `fail:` -/
def createInterfaces (s : Xpdev) : Xpdev × Int :=
  orFail (createXcdev k .ctrl c.configBarIdx none .ctrl s) fun s =>
  orFail (setFlag .cdevCtrl s) fun s =>
  orFail (createLoop (fun i => createXcdev k (.events i) i none .events) c.userMax 0 s) fun s =>
  orFail (setFlag .cdevEvent s) fun s =>
  orFail (createLoop (createChannel k c.engineH2c .sgdmaH2c .xdmaH2c) c.h2cChannelMax 0 s) fun s =>
  orFail (createLoop (createChannel k c.engineC2h .sgdmaC2h .xdmaC2h) c.c2hChannelMax 0 s) fun s =>
  orFail (setFlag .cdevSg s) fun s =>
  orFail (createBypass k c s) fun s =>
  createUser k c s

end Create

section Destroy

variable (k : CdevKernel) (c : CdevConfig)

/-- `destroy_xcdev()` -/
def destroyXcdev (id : CdevId) (s : Xpdev) : Xpdev × Int :=
  let xcdev := s.cdev id
  if !xcdev.magic then
    (s, -einval)
  else if !xcdev.xdev then
    (s, -einval)
  else if !k.xdmaClass then
    (s, -einval)
  else if !xcdev.sysDevice then
    (s, -einval)
  else
    ((s.call (.release (.sysDevice xcdev.cdevno))).call (.release (.cdev id)), 0)

/-- A loop of `xpdev_destroy_interfaces()`; errors are only printed. -/
def destroyLoop (id : Nat → CdevId) : (n i : Nat) → Xpdev → Xpdev
  | 0, _, s => s
  | n + 1, i, s => destroyLoop id n (i + 1) (destroyXcdev k (id i) s).1

/-- A group of devices is destroyed if its flag is set. -/
def destroyIf (fbit : XpdevFlag) (destroy : Xpdev → Xpdev) (s : Xpdev) : Xpdev :=
  if xpdevFlagTest s.flags fbit then destroy s else s

/-- `xpdev_destroy_interfaces()` -/
def xpdevDestroyInterfaces (s : Xpdev) : Xpdev :=
  let s := destroyIf .cdevSg (fun s =>
    destroyLoop k .sgdmaC2h c.c2hChannelMax 0 (destroyLoop k .sgdmaH2c c.h2cChannelMax 0 s)) s
  let s := destroyIf .cdevEvent (destroyLoop k .events c.userMax 0) s
  let s := destroyIf .cdevCtrl (fun s => (destroyXcdev k .ctrl s).1) s
  let s := destroyIf .cdevUser (fun s => (destroyXcdev k .user s).1) s
  let s := destroyIf .cdevXvc (fun s => (destroyXcdev k .xvc s).1) s
  let s := destroyIf .cdevBypass (fun s =>
    let s := destroyLoop k .bypassH2c c.h2cChannelMax 0 s
    let s := destroyLoop k .bypassC2h c.c2hChannelMax 0 s
    (destroyXcdev k .bypassBase s).1) s
  if s.major ≠ 0 then
    s.call (.release (.chrdevRegion ⟨s.major, xdmaMinorBase⟩))
  else
    s

end Destroy

/-- `xpdev_create_interfaces()` -/
def xpdevCreateInterfaces (k : CdevKernel) (c : CdevConfig) (s : Xpdev) : Xpdev × Int :=
  let (s, rv) := createInterfaces k c s
  if rv < 0 then (xpdevDestroyInterfaces k c s, -1) else (s, 0)

section Probe

/-- `xpdev_alloc()`: all is zero. -/
def xpdevAlloc : Xpdev := ⟨0, 0, fun _ => ⟨false, false, 0, none, ⟨0, 0⟩, false⟩, []⟩

/-- The numbers that it starts from; a device that is not open has neither BARs nor engines. -/
def CdevConfig.alloc : CdevConfig where
  userMax := maxUserIrq
  h2cChannelMax := xdmaChannelNumMax
  c2hChannelMax := xdmaChannelNumMax
  configBarIdx := 0
  bypassBarIdx := 0
  userBarIdx := 0
  engineH2c := fun _ => ⟨false, 0⟩
  engineC2h := fun _ => ⟨false, 0⟩

/-- `xpdev_free()`, what it does to the character devices. -/
def xpdevFree (k : CdevKernel) (c : CdevConfig) (s : Xpdev) : Xpdev := xpdevDestroyInterfaces k c s

/--
What happens in `probe_one()` before the interfaces are created: the memory, what
`xdma_device_open()` arrives at, the interrupts of the user, and the device that is found again.
-/
structure ProbeArgs where
  alloc : Bool
  deviceOpen : Option CdevConfig
  userIsrEnable : Int
  xdevFind : Bool
  sameHandle : Bool

/-- The checks of `probe_one()` after the device was opened. -/
def ProbeArgs.check (p : ProbeArgs) (c : CdevConfig) : Int :=
  if maxUserIrq < c.userMax then
    -einval
  else if xdmaChannelNumMax < c.h2cChannelMax then
    -einval
  else if xdmaChannelNumMax < c.c2hChannelMax then
    -einval
  else if c.userMax ≠ 0 ∧ p.userIsrEnable ≠ 0 then
    p.userIsrEnable
  else if !p.xdevFind then
    -einval
  else if !p.sameHandle then
    -einval
  else
    0

/-- `probe_one()`: what it returns, and the calls of the kernel. -/
def probeOne (k : CdevKernel) (p : ProbeArgs) : Int × List CdevCall :=
  if !p.alloc then
    (-enomem, [])
  else
    match p.deviceOpen with
    | none => (-einval, (xpdevFree k .alloc xpdevAlloc).calls)
    | some c =>
      let rv := p.check c
      if rv ≠ 0 then
        (rv, (xpdevFree k c xpdevAlloc).calls)
      else
        let (s, rv) := xpdevCreateInterfaces k c xpdevAlloc
        if rv ≠ 0 then (rv, (xpdevFree k c s).calls) else (0, s.calls)

end Probe

end Xdma
