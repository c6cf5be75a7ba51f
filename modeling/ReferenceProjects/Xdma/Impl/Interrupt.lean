import ReferenceProjects.Lib.Run
import ReferenceProjects.Xdma.Impl.Events
import ReferenceProjects.Xdma.Impl.Probe

/-!
This module contains the interrupts of a device once it is open: the handlers `xdma_isr()`, `xdma_channel_irq()`
and `xdma_user_irq()`, the work `engine_service_work()` that they schedule, and the calls that enable and
disable interrupts while these run.
-/

namespace Xdma

/-- What a run of `xdma_isr()` does after it read the requests. -/
inductive IsrAct where
  | userIrqService (user : Nat)
  | scheduleWork (id : EngineId)
  deriving DecidableEq, Repr

/-- Where a run of `xdma_isr()` is. -/
inductive IsrPc where
  | disable (chIrq : BitVec 32)
  | readUser (chIrq : BitVec 32)
  | acts (acts : List IsrAct)

/--
`struct xdma_dev`, what the interrupts are about, with `struct interrupt_regs`, the work that is queued and
the work that is before the point where it enables the interrupt again, and the runs of the handlers.
-/
structure Interrupts where
  dev : ProbedDev
  userMax : Nat
  msixEnabled : Bool
  /-- `XDEV_FLAG_OFFLINE` -/
  offline : Bool
  /-- the handlers are requested -/
  handlers : Bool
  channelIntEnable : BitVec 32
  userIntEnable : BitVec 32
  maskIrqUser : BitVec 32
  userIrq : Nat → UserIrq
  pending : EngineId → Bool
  running : EngineId → Bool
  isr : Option IsrPc
  /-- `xdma_channel_irq()` has yet to schedule the work of these -/
  channelIrq : List EngineId
  irqCount : Nat

def Interrupts.channelInterruptsEnable (s : Interrupts) (mask : BitVec 32) : Interrupts :=
  { s with channelIntEnable := s.channelIntEnable ||| mask }

def Interrupts.channelInterruptsDisable (s : Interrupts) (mask : BitVec 32) : Interrupts :=
  { s with channelIntEnable := s.channelIntEnable &&& ~~~mask }

def Interrupts.userInterruptsEnable (s : Interrupts) (mask : BitVec 32) : Interrupts :=
  { s with userIntEnable := s.userIntEnable ||| mask }

def Interrupts.userInterruptsDisable (s : Interrupts) (mask : BitVec 32) : Interrupts :=
  { s with userIntEnable := s.userIntEnable &&& ~~~mask }

/-- A write to the interrupt enable mask of an engine. -/
def Interrupts.setMask (s : Interrupts) (id : EngineId) (mask : BitVec 32) : Interrupts :=
  { s with dev := { s.dev with
      interruptEnableMask := Function.update s.dev.interruptEnableMask (s.dev.engine id).regs mask } }

/-- `schedule_work()`; work that is pending is not queued again. -/
def Interrupts.scheduleWork (s : Interrupts) (id : EngineId) : Interrupts :=
  { s with pending := Function.update s.pending id true }

/-- The loop of `xdma_isr()` over `n` user interrupts from `user` on: those that it services. -/
def isrUsers : (n user : Nat) → (mask userIrq : BitVec 32) → List Nat
  | 0, _, _, _ => []
  | n + 1, user, mask, userIrq =>
    if userIrq = 0 then
      []
    else if userIrq &&& mask ≠ 0 then
      user :: isrUsers n (user + 1) (mask <<< 1) (userIrq &&& ~~~mask)
    else
      isrUsers n (user + 1) (mask <<< 1) userIrq

/-- A loop of `xdma_isr()` over `n` channels from `channel` on: the engines whose work it schedules. -/
def isrChannels (d : ProbedDev) (dir : DmaDataDirection) : (n channel : Nat) → BitVec 32 → List EngineId
  | 0, _, _ => []
  | n + 1, channel, mask =>
    let e := d.engine ⟨dir, channel⟩
    if mask = 0 then
      []
    -- engine present and its interrupt fired?
    else if e.irqBitmask &&& mask ≠ 0 ∧ e.magic then
      ⟨dir, channel⟩ :: isrChannels d dir n (channel + 1) (mask &&& ~~~e.irqBitmask)
    else
      isrChannels d dir n (channel + 1) mask

/-- The engines that fired, by the request register of the channels. -/
def isrFired (d : ProbedDev) (chIrq : BitVec 32) : List EngineId :=
  isrChannels d .toDevice d.h2cChannelMax 0 (chIrq &&& d.maskIrqH2c)
    ++ isrChannels d .fromDevice d.c2hChannelMax 0 (chIrq &&& d.maskIrqC2h)

/-- What `xdma_isr()` does, by both request registers. -/
def Interrupts.isrActs (s : Interrupts) (chIrq userIrq : BitVec 32) : List IsrAct :=
  (isrUsers s.userMax 0 1 userIrq).map .userIrqService ++ (isrFired s.dev chIrq).map .scheduleWork

def Interrupts.isrAct (s : Interrupts) : IsrAct → Interrupts
  | .userIrqService user =>
    { s with userIrq := Function.update s.userIrq user (userIrqService (s.userIrq user)).1 }
  | .scheduleWork id => s.scheduleWork id

/-- The end of `engine_service_work()`; `engine_service()` does not fail there. -/
def Interrupts.engineServiceWork (s : Interrupts) (id : EngineId) : Interrupts :=
  let e := s.dev.engine id
  if e.magic then
    -- re-enable interrupts for this engine
    if s.msixEnabled then
      s.setMask id (s.dev.interruptEnableMask e.regs ||| e.interruptEnableMaskValue)
    else
      s.channelInterruptsEnable e.irqBitmask
  else
    s

/-- `xdma_user_isr_register()`, over `n` user interrupts from `i` on. -/
def userIsrRegisterLoop (handler : Option IrqReturn)
    : (n i : Nat) → BitVec 32 → (Nat → UserIrq) → Nat → UserIrq
  | 0, _, _, userIrq => userIrq
  | n + 1, i, mask, userIrq =>
    let bit := (1 : BitVec 32) <<< i
    if mask = 0 then
      userIrq
    else if bit &&& mask = 0 then
      userIsrRegisterLoop handler n (i + 1) mask userIrq
    else
      userIsrRegisterLoop handler n (i + 1) (mask &&& ~~~bit)
        (Function.update userIrq i { userIrq i with handler := handler })

/-- A loop of `xdma_device_online()` over `n` channels from `i` on. -/
def onlineLoop (env : ProbeEnv) (dir : DmaDataDirection) : (n i : Nat) → ProbedDev → ProbedDev
  | 0, _, d => d
  | n + 1, i, d =>
    onlineLoop env dir n (i + 1)
      (if (d.engine ⟨dir, i⟩).magic then d.engineInitRegs env ⟨dir, i⟩ else d)

/-- `xdma_device_offline()` up to `irq_teardown()`. -/
def Interrupts.deviceOffline (s : Interrupts) : Interrupts :=
  ({ s with offline := true }.channelInterruptsDisable (BitVec.allOnes 32)).userInterruptsDisable
    (BitVec.allOnes 32)

/-- `xdma_device_online()`, with what becomes of `irq_setup()`. -/
def Interrupts.deviceOnline (env : ProbeEnv) (s : Interrupts) (irqSetup : Bool) : Interrupts :=
  let d := onlineLoop env .toDevice s.dev.h2cChannelMax 0 s.dev
  let s := { s with dev := onlineLoop env .fromDevice d.c2hChannelMax 0 d }
  let s :=
    if !env.pollMode then
      ({ s with handlers := s.handlers || irqSetup }.channelInterruptsEnable
        (BitVec.allOnes 32)).userInterruptsEnable s.maskIrqUser
    else
      s
  { s with offline := false }

inductive InterruptEvent where
  /-- `xdma_isr()` is entered and reads the requests of the channels -/
  | isr (chIrq : BitVec 32)
  /-- it reads the requests of the user interrupts -/
  | isrUser (userIrq : BitVec 32)
  /-- it goes on -/
  | isrNext
  /-- `xdma_channel_irq()`, up to where it schedules the work -/
  | channelIrq (id : EngineId)
  | channelIrqDone (id : EngineId)
  | userIrq (user : Nat)
  /-- `engine_service_work()`, up to where it enables the interrupt again -/
  | work (id : EngineId)
  | workDone (id : EngineId)
  | userIsrRegister (mask : BitVec 32) (handler : Option IrqReturn)
  | userIsrEnable (mask : BitVec 32)
  | userIsrDisable (mask : BitVec 32)
  | offline
  /-- `irq_teardown()`, which waits for the handlers -/
  | irqTeardown
  /-- `poll_mode` can be written at any time -/
  | online (pollMode : Bool) (irqSetup : Bool)

/-- A step; an interrupt line is not entered again while its handler runs, and neither is the work of an engine. -/
def Interrupts.step (env : ProbeEnv) (s : Interrupts) : InterruptEvent → Option Interrupts
  | .isr chIrq =>
    if s.handlers ∧ !s.msixEnabled ∧ s.isr.isNone then some { s with isr := some (.disable chIrq) } else none
  | .isrUser userIrq =>
    match s.isr with
    | some (.readUser chIrq) => some { s with isr := some (.acts (s.isrActs chIrq userIrq)) }
    | _ => none
  | .isrNext =>
    match s.isr with
    | some (.disable chIrq) =>
      some { (if chIrq ≠ 0 then s.channelInterruptsDisable chIrq else s) with isr := some (.readUser chIrq) }
    | some (.acts (a :: as)) => some { s.isrAct a with isr := some (.acts as) }
    | some (.acts []) => some { s with isr := none, irqCount := s.irqCount + 1 }
    | _ => none
  | .channelIrq id =>
    let e := s.dev.engine id
    let max := match id.dir with
      | .toDevice => s.dev.h2cChannelMax
      | .fromDevice => s.dev.c2hChannelMax
    if s.handlers ∧ s.msixEnabled ∧ id.channel < max ∧ id ∉ s.channelIrq then
      some { s.setMask id (s.dev.interruptEnableMask e.regs &&& ~~~e.interruptEnableMaskValue) with
        channelIrq := id :: s.channelIrq }
    else
      none
  | .channelIrqDone id =>
    if id ∈ s.channelIrq then
      some { s.scheduleWork id with channelIrq := s.channelIrq.erase id, irqCount := s.irqCount + 1 }
    else
      none
  | .userIrq user =>
    if s.handlers ∧ s.msixEnabled ∧ user < s.userMax then some (s.isrAct (.userIrqService user)) else none
  | .work id =>
    if s.pending id ∧ !s.running id then
      some { s with
        pending := Function.update s.pending id false
        running := Function.update s.running id true }
    else
      none
  | .workDone id =>
    if s.running id then
      some { s.engineServiceWork id with running := Function.update s.running id false }
    else
      none
  | .userIsrRegister mask handler =>
    some { s with userIrq := userIsrRegisterLoop handler s.userMax 0 mask s.userIrq }
  | .userIsrEnable mask =>
    some ({ s with maskIrqUser := s.maskIrqUser ||| mask }.userInterruptsEnable mask)
  | .userIsrDisable mask =>
    some ({ s with maskIrqUser := s.maskIrqUser &&& ~~~mask }.userInterruptsDisable mask)
  | .offline => some s.deviceOffline
  | .irqTeardown => if s.isr.isNone ∧ s.channelIrq = [] then some { s with handlers := false } else none
  | .online pollMode irqSetup => some (s.deviceOnline { env with pollMode := pollMode } irqSetup)

/-- The end of `xdma_device_open()`, after `irq_setup()`. -/
def Interrupts.opened (env : ProbeEnv) (d : ProbedDev) (userMax : Nat) (msixEnabled : Bool) : Interrupts where
  dev := d
  userMax := userMax
  msixEnabled := msixEnabled
  offline := false
  handlers := true
  channelIntEnable := if env.pollMode then 0 else BitVec.allOnes 32
  userIntEnable := 0
  maskIrqUser := 0
  userIrq := fun _ => ⟨0, none⟩
  pending := fun _ => false
  running := fun _ => false
  isr := none
  channelIrq := []
  irqCount := 0

end Xdma
