import Mathlib.Data.List.Nodup
import ReferenceProjects.Xdma.Lemmas.Cdev

/-!
This module contains what is left of the character devices when `probe_one()` fails because they could
not all be created.
-/

namespace Xdma

/-- A step of `xpdev_create_interfaces()`. -/
inductive CreateStep where
  | create (id : CdevId) (bar : Int) (engine : Option CharEngineId) (type : CdevType)
  | flag (fbit : XpdevFlag)
  deriving DecidableEq, Repr

def CreateStep.device : CreateStep → Option CdevId
  | .create id _ _ _ => some id
  | .flag _ => none

/-- The devices that the steps create. -/
def devices (steps : List CreateStep) : List CdevId := steps.filterMap CreateStep.device

def CreateStep.Ok : CreateStep → Prop
  | .create _ _ engine type => type.OfEngine → engine.isSome
  | .flag _ => True

section Steps

variable (k : CdevKernel) (c : CdevConfig)

def CreateStep.run : CreateStep → Xpdev → Xpdev × Int
  | .create id bar engine type, s => createXcdev k id bar engine type s
  | .flag fbit, s => setFlag fbit s

/-- Do one step after another, up to the first that fails. -/
def runSteps : List CreateStep → Xpdev → Xpdev × Int
  | [], s => (s, 0)
  | step :: steps, s => orFail (step.run k s) (runSteps steps)

theorem orFail_orFail (r : Xpdev × Int) (f g : Xpdev → Xpdev × Int)
    : orFail (orFail r f) g = orFail r (fun s => orFail (f s) g) := by
  unfold orFail
  split <;> rfl

theorem runSteps_append (steps steps' : List CreateStep)
    : runSteps k (steps ++ steps') = fun s => orFail (runSteps k steps s) (runSteps k steps') := by
  induction steps with
  | nil => rfl
  | cons step steps ih =>
    funext s
    rw [List.cons_append, runSteps, ih, runSteps, orFail_orFail]

/-- The steps for the channels that have an engine. -/
def channelSteps (engine : Nat → CharEngineId) (id : Nat → CdevId) (type : CdevType) (is : List Nat)
    : List CreateStep :=
  (is.filter (fun i => (engine i).magic)).map (fun i => .create (id i) i (some (engine i)) type)

def eventSteps (is : List Nat) : List CreateStep := is.map (fun i => .create (.events i) i none .events)

def bypassSteps : List CreateStep :=
  if 0 < c.bypassBarIdx then
    channelSteps c.engineH2c .bypassH2c .bypassH2c (List.range' 0 c.h2cChannelMax)
      ++ (channelSteps c.engineC2h .bypassC2h .bypassC2h (List.range' 0 c.c2hChannelMax)
      ++ [.create .bypassBase c.bypassBarIdx none .bypass, .flag .cdevBypass])
  else
    []

def userSteps : List CreateStep :=
  if 0 ≤ c.userBarIdx then
    [.create .user c.userBarIdx none .user, .flag .cdevUser, .create .xvc c.userBarIdx none .xvc,
      .flag .cdevXvc]
  else
    []

/-- The steps after the control device was created. -/
def restSteps : List CreateStep :=
  .flag .cdevCtrl :: (eventSteps (List.range' 0 c.userMax)
    ++ .flag .cdevEvent :: (channelSteps c.engineH2c .sgdmaH2c .xdmaH2c (List.range' 0 c.h2cChannelMax)
    ++ (channelSteps c.engineC2h .sgdmaC2h .xdmaC2h (List.range' 0 c.c2hChannelMax)
    ++ .flag .cdevSg :: (bypassSteps c ++ userSteps c))))

/-- All steps of `xpdev_create_interfaces()`. -/
def createSteps : List CreateStep := .create .ctrl c.configBarIdx none .ctrl :: restSteps c

theorem createLoop_channel_eq (engine : Nat → CharEngineId) (id : Nat → CdevId) (type : CdevType)
    (n i : Nat) (s : Xpdev)
    : createLoop (createChannel k engine id type) n i s
        = runSteps k (channelSteps engine id type (List.range' i n)) s := by
  induction n generalizing i s with
  | zero => rfl
  | succ n ih =>
    have hloop : createLoop (createChannel k engine id type) n (i + 1)
        = runSteps k (channelSteps engine id type (List.range' (i + 1) n)) := by
      funext s
      apply ih
    rw [createLoop, hloop, createChannel]
    cases hmagic : (engine i).magic with
    | true => simp [channelSteps, List.range'_succ, hmagic, runSteps, CreateStep.run]
    | false => simp [channelSteps, List.range'_succ, hmagic, orFail]

theorem createLoop_event_eq (n i : Nat) (s : Xpdev)
    : createLoop (fun i => createXcdev k (.events i) i none .events) n i s
        = runSteps k (eventSteps (List.range' i n)) s := by
  induction n generalizing i s with
  | zero => rfl
  | succ n ih =>
    have hloop : createLoop (fun i => createXcdev k (.events i) i none .events) n (i + 1)
        = runSteps k (eventSteps (List.range' (i + 1) n)) := by
      funext s
      apply ih
    rw [createLoop, hloop]
    rfl

theorem createBypass_eq (s : Xpdev)
    : createBypass k c s = runSteps k (bypassSteps c) s := by
  unfold createBypass bypassSteps
  split
  . simp only [runSteps_append, createLoop_channel_eq]
    rfl
  . rfl

theorem createUser_eq (s : Xpdev)
    : createUser k c s = runSteps k (userSteps c) s := by
  unfold createUser userSteps
  split <;> rfl

theorem createInterfaces_eq (s : Xpdev)
    : createInterfaces k c s = runSteps k (createSteps c) s := by
  simp only [createInterfaces, createSteps, restSteps, runSteps, runSteps_append,
    createLoop_channel_eq, createLoop_event_eq, createBypass_eq, createUser_eq]
  rfl

end Steps

section Run

variable (k : CdevKernel)

/-- What there is after all of the steps were done. -/
structure Built (steps : List CreateStep) (s : Xpdev) : Prop where
  major : s.major = 0 ∨ s.major = k.major
  flags : ∀ fbit, xpdevFlagTest s.flags fbit = true ↔ .flag fbit ∈ steps
  ready : ∀ id ∈ devices steps, (s.cdev id).Ready k
  held : ∀ id, .cdev id ∈ Ledger.held s.calls ↔ id ∈ devices steps
  released : ∀ id, s.calls.count (.release (.cdev id)) = 0

/-- What there is after the steps were done and the one that follows them failed. -/
structure Broken (steps : List CreateStep) (s : Xpdev) : Prop where
  major : k.allocChrdevRegion = 0 → s.major = k.major
  flags : ∀ fbit, xpdevFlagTest s.flags fbit = true ↔ .flag fbit ∈ steps
  ready : ∀ id ∈ devices steps, (s.cdev id).Ready k
  held : ∀ id, .cdev id ∈ Ledger.held s.calls ↔ id ∈ devices steps
  released : ∀ id ∈ devices steps, s.calls.count (.release (.cdev id)) = 0

theorem built_alloc
    : Built k [] xpdevAlloc := by
  constructor
  . exact .inl rfl
  . intro fbit
    cases fbit <;> decide
  . simp [devices]
  . simp [devices, xpdevAlloc, Ledger.held]
  . simp [xpdevAlloc]

theorem Built.flag {k : CdevKernel} {steps : List CreateStep} {s : Xpdev} (h : Built k steps s)
    (fbit : XpdevFlag)
    : Built k (steps ++ [.flag fbit]) (setFlag fbit s).1 := by
  have hdevices : devices (steps ++ [.flag fbit]) = devices steps := by
    simp [devices, CreateStep.device]
  constructor
  . apply h.major
  . intro other
    simp only [setFlag, xpdevFlagTest_set, Bool.or_eq_true, decide_eq_true_eq, h.flags]
    simp [eq_comm, or_comm]
  . rw [hdevices]
    apply h.ready
  . rw [hdevices]
    apply h.held
  . apply h.released

theorem Built.create {k : CdevKernel} {steps : List CreateStep} {s : Xpdev} (h : Built k steps s)
    {id : CdevId} (bar : Int) (engine : Option CharEngineId) {type : CdevType}
    (hengine : type.OfEngine → engine.isSome) (hnew : id ∉ devices steps)
    : (createXcdev k id bar engine type s).2 = 0
          ∧ Built k (steps ++ [.create id bar engine type]) (createXcdev k id bar engine type s).1
        ∨ (createXcdev k id bar engine type s).2 < 0
          ∧ Broken k steps (createXcdev k id bar engine type s).1 := by
  have hne : ∀ other ∈ devices steps, other ≠ id := by
    rintro other hother rfl
    exact hnew hother
  rcases createXcdev_spec k id bar engine s hengine h.major with
    ⟨hrefused, hret⟩ | ⟨-, hok, hmajor, ⟨-, hret, hcreated⟩ | ⟨-, hret, hnot⟩⟩
  . right
    rw [hret]
    refine ⟨hrefused.2, ?_, h.flags, h.ready, ?_, ?_⟩
    . intro halloc
      have hneg := hrefused.2
      omega
    . intro other
      simpa [Xpdev.call, Ledger.held] using h.held other
    . intro other _
      simpa [Xpdev.call] using h.released other
  . left
    have hdevices (other : CdevId)
        : other ∈ devices (steps ++ [.create id bar engine type]) ↔ other = id ∨ other ∈ devices steps := by
      simp [devices, CreateStep.device, or_comm]
    refine ⟨hret, .inr hmajor, ?_, ?_, ?_, ?_⟩
    . intro fbit
      rw [hok.flags, h.flags]
      simp
    . intro other hother
      rcases (hdevices other).mp hother with rfl | hmem
      . apply hcreated.ready
      . rw [hok.cdev other (hne other hmem)]
        apply h.ready other hmem
    . intro other
      rw [hcreated.held, hdevices, h.held]
    . intro other
      by_cases heq : other = id
      . rw [heq, hcreated.released, h.released]
      . rw [hok.released other heq, h.released]
  . right
    refine ⟨hret, fun _ => hmajor, ?_, ?_, ?_, ?_⟩
    . intro fbit
      rw [hok.flags, h.flags]
    . intro other hmem
      rw [hok.cdev other (hne other hmem)]
      apply h.ready other hmem
    . intro other
      rw [hnot, h.held]
    . intro other hmem
      rw [hok.released other (hne other hmem), h.released]

theorem runSteps_spec {done : List CreateStep} {s : Xpdev} (h : Built k done s)
    {steps : List CreateStep} (hok : ∀ step ∈ steps, step.Ok) (hnodup : (devices (done ++ steps)).Nodup)
    : (runSteps k steps s).2 = 0 ∧ Built k (done ++ steps) (runSteps k steps s).1
        ∨ (runSteps k steps s).2 < 0
          ∧ ∃ before step after, steps = before ++ step :: after
            ∧ Broken k (done ++ before) (runSteps k steps s).1 := by
  -- each step that succeeds moves from `steps` to `done`, and the invariant with it
  induction steps generalizing done s with
  | nil =>
    left
    rw [List.append_nil]
    exact ⟨rfl, h⟩
  | cons step steps ih =>
    have happend : done ++ step :: steps = (done ++ [step]) ++ steps := by simp
    have hrest (s' : Xpdev) (h' : Built k (done ++ [step]) s') (hs' : step.run k s = (s', 0))
        : (runSteps k (step :: steps) s).2 = 0
              ∧ Built k (done ++ step :: steps) (runSteps k (step :: steps) s).1
            ∨ (runSteps k (step :: steps) s).2 < 0
              ∧ ∃ before step' after, step :: steps = before ++ step' :: after
                ∧ Broken k (done ++ before) (runSteps k (step :: steps) s).1 := by
      rw [happend] at hnodup ⊢
      rw [runSteps, hs', orFail, if_neg (by simp)]
      rcases ih h' (fun step hstep => hok step (List.mem_cons_of_mem _ hstep)) hnodup with
        hbuilt | ⟨hneg, before, step', after, hsteps, hbroken⟩
      . exact .inl hbuilt
      . refine .inr ⟨hneg, step :: before, step', after, by simp [hsteps], ?_⟩
        simpa using hbroken
    cases step with
    | flag fbit => exact hrest _ (h.flag fbit) rfl
    | create id bar engine type =>
      have hnew : id ∉ devices done := by
        intro hmem
        rw [devices, List.filterMap_append] at hnodup
        apply List.disjoint_of_nodup_append hnodup hmem
        simp [CreateStep.device]
      rcases h.create bar engine (hok _ List.mem_cons_self) hnew with ⟨hret, hbuilt⟩ | ⟨hret, hbroken⟩
      . exact hrest _ hbuilt (Prod.ext rfl hret)
      . right
        rw [runSteps, CreateStep.run, orFail, if_pos hret]
        refine ⟨hret, [], _, steps, rfl, ?_⟩
        rw [List.append_nil]
        apply hbroken

end Run

section Groups

variable (c : CdevConfig)

/-- The flag of the group that a device belongs to. -/
def CdevId.group : CdevId → XpdevFlag
  | .ctrl => .cdevCtrl
  | .sgdmaC2h _ | .sgdmaH2c _ => .cdevSg
  | .events _ => .cdevEvent
  | .user => .cdevUser
  | .bypassC2h _ | .bypassH2c _ | .bypassBase => .cdevBypass
  | .xvc => .cdevXvc

theorem count_map_range' {f : Nat → CdevId} (hf : Function.Injective f) (j n : Nat)
    : ((List.range' 0 n).map f).count (f j) = if j < n then 1 else 0 := by
  rw [List.count_map_of_injective _ f hf]
  split
  . next h =>
    apply List.count_eq_one_of_mem List.nodup_range'
    simp [List.mem_range', h]
  . next h =>
    apply List.count_eq_zero_of_not_mem
    simp [List.mem_range', h]

theorem count_map_ne {f : Nat → CdevId} {id : CdevId} (h : ∀ j, f j ≠ id) (is : List Nat)
    : (is.map f).count id = 0 := by
  apply List.count_eq_zero_of_not_mem
  simp [h]

theorem devices_channelSteps (engine : Nat → CharEngineId) (id : Nat → CdevId) (type : CdevType)
    (is : List Nat)
    : devices (channelSteps engine id type is) = (is.filter (fun i => (engine i).magic)).map id := by
  simp [devices, channelSteps, List.filterMap_map, Function.comp_def, CreateStep.device,
    List.filterMap_eq_map']

theorem devices_append (steps steps' : List CreateStep)
    : devices (steps ++ steps') = devices steps ++ devices steps' := by
  apply List.filterMap_append

theorem devices_createSteps
    : devices (createSteps c)
        =
      .ctrl :: ((List.range' 0 c.userMax).map .events
        ++ ((List.range' 0 c.h2cChannelMax).filter (fun i => (c.engineH2c i).magic)).map .sgdmaH2c
        ++ ((List.range' 0 c.c2hChannelMax).filter (fun i => (c.engineC2h i).magic)).map .sgdmaC2h
        ++ (if 0 < c.bypassBarIdx then
            ((List.range' 0 c.h2cChannelMax).filter (fun i => (c.engineH2c i).magic)).map .bypassH2c
              ++ ((List.range' 0 c.c2hChannelMax).filter (fun i => (c.engineC2h i).magic)).map .bypassC2h
              ++ [.bypassBase]
          else
            [])
        ++ if 0 ≤ c.userBarIdx then [.user, .xvc] else []) := by
  have hcons (id : CdevId) (bar : Int) (engine : Option CharEngineId) (type : CdevType)
      (steps : List CreateStep)
      : devices (.create id bar engine type :: steps) = id :: devices steps := rfl
  have hflag (fbit : XpdevFlag) (steps : List CreateStep)
      : devices (.flag fbit :: steps) = devices steps := rfl
  have hevents (is : List Nat) : devices (eventSteps is) = is.map .events := by
    simp [devices, eventSteps, List.filterMap_map, Function.comp_def, CreateStep.device,
      List.filterMap_eq_map']
  have hbypass : devices (bypassSteps c)
      = if 0 < c.bypassBarIdx then
          ((List.range' 0 c.h2cChannelMax).filter (fun i => (c.engineH2c i).magic)).map .bypassH2c
            ++ ((List.range' 0 c.c2hChannelMax).filter (fun i => (c.engineC2h i).magic)).map .bypassC2h
            ++ [.bypassBase]
        else
          [] := by
    unfold bypassSteps
    split
    . simp only [devices_append, devices_channelSteps, hcons, hflag, List.append_assoc]
      rfl
    . rfl
  have huser : devices (userSteps c) = if 0 ≤ c.userBarIdx then [.user, .xvc] else [] := by
    unfold userSteps
    split <;> rfl
  simp only [createSteps, restSteps, hcons, hflag, devices_append, hevents, devices_channelSteps,
    hbypass, huser, List.append_assoc]

theorem nodup_devices
    : (devices (createSteps c)).Nodup := by
  have hle {f : Nat → CdevId} (hf : Function.Injective f) (p : Nat → Bool) (n j : Nat)
      : (((List.range' 0 n).filter p).map f).count (f j) ≤ 1 := by
    apply List.nodup_iff_count_le_one.mp
    exact (List.Nodup.filter p List.nodup_range').map hf
  have hevents (j : Nat) : ((List.range' 0 c.userMax).map CdevId.events).count (.events j) ≤ 1 := by
    apply List.nodup_iff_count_le_one.mp
    exact List.Nodup.map (fun _ _ => CdevId.events.inj) List.nodup_range'
  rw [List.nodup_iff_count_le_one, devices_createSteps]
  intro id
  split <;> split <;> cases id
    <;> simp [count_map_ne, hevents, hle (fun _ _ => CdevId.sgdmaH2c.inj),
      hle (fun _ _ => CdevId.sgdmaC2h.inj), hle (fun _ _ => CdevId.bypassH2c.inj),
      hle (fun _ _ => CdevId.bypassC2h.inj)]

/-- The structures that the loops reach. -/
def CdevConfig.Has : CdevId → Prop
  | .events i => i < c.userMax
  | .sgdmaH2c i | .bypassH2c i => i < c.h2cChannelMax
  | .sgdmaC2h i | .bypassC2h i => i < c.c2hChannelMax
  | .ctrl | .user | .xvc | .bypassBase => True

theorem has_of_mem_devices {id : CdevId} (h : id ∈ devices (createSteps c))
    : c.Has id := by
  rw [devices_createSteps] at h
  cases id with
  | ctrl | user | xvc | bypassBase => trivial
  | events i | sgdmaH2c i | sgdmaC2h i | bypassH2c i | bypassC2h i =>
    split at h <;> split at h <;> simp [List.mem_range'] at h <;> simp [CdevConfig.Has, h]

theorem count_destroyIds (flags : BitVec 32) {id : CdevId} (h : c.Has id)
    : (destroyIds c flags).count id = if xpdevFlagTest flags id.group then 1 else 0 := by
  have hif (b : Bool) (ids : List CdevId)
      : (if b then ids else []).count id = if b then ids.count id else 0 := by
    split <;> rfl
  simp only [destroyIds, List.count_append, hif]
  cases id with
  | ctrl | user | bypassBase | xvc =>
    simp [count_map_ne, CdevId.group]
    rfl
  | sgdmaH2c i =>
    have hlt : i < c.h2cChannelMax := h
    simp [count_map_ne, CdevId.group, count_map_range' (fun _ _ => CdevId.sgdmaH2c.inj), hlt]
    rfl
  | sgdmaC2h i =>
    have hlt : i < c.c2hChannelMax := h
    simp [count_map_ne, CdevId.group, count_map_range' (fun _ _ => CdevId.sgdmaC2h.inj), hlt]
    rfl
  | events i =>
    have hlt : i < c.userMax := h
    simp [count_map_ne, CdevId.group, count_map_range' (fun _ _ => CdevId.events.inj), hlt]
    rfl
  | bypassC2h i =>
    have hlt : i < c.c2hChannelMax := h
    simp [count_map_ne, CdevId.group, count_map_range' (fun _ _ => CdevId.bypassC2h.inj), hlt]
    rfl
  | bypassH2c i =>
    have hlt : i < c.h2cChannelMax := h
    simp [count_map_ne, CdevId.group, count_map_range' (fun _ _ => CdevId.bypassH2c.inj), hlt]
    rfl

theorem createSteps_ok
    : ∀ step ∈ restSteps c, step.Ok := by
  have hchannel (engine : Nat → CharEngineId) (id : Nat → CdevId) (type : CdevType) (is : List Nat)
      : ∀ step ∈ channelSteps engine id type is, step.Ok := by
    intro step hstep
    obtain ⟨i, -, rfl⟩ := List.mem_map.mp hstep
    exact fun _ => rfl
  have hevents (is : List Nat) : ∀ step ∈ eventSteps is, step.Ok := by
    intro step hstep
    obtain ⟨i, -, rfl⟩ := List.mem_map.mp hstep
    simp [CreateStep.Ok, CdevType.OfEngine]
  have hbypass : ∀ step ∈ bypassSteps c, step.Ok := by
    unfold bypassSteps
    split
    . simp only [List.forall_mem_append]
      exact ⟨hchannel _ _ _ _, hchannel _ _ _ _, by simp [CreateStep.Ok, CdevType.OfEngine]⟩
    . simp
  have huser : ∀ step ∈ userSteps c, step.Ok := by
    unfold userSteps
    split <;> simp [CreateStep.Ok, CdevType.OfEngine]
  simp only [restSteps, List.forall_mem_cons, List.forall_mem_append]
  exact ⟨trivial, hevents _, trivial, hchannel _ _ _ _, hchannel _ _ _ _, trivial, hbypass, huser⟩

end Groups

section Probe

variable (k : CdevKernel) (c : CdevConfig) (p : ProbeArgs)

/-- The character device is registered when `xpdev_create_interfaces()` fails. -/
def Registered (id : CdevId) : Prop :=
  .cdev id ∈ Ledger.held (createInterfaces k c xpdevAlloc).1.calls

/-- `probe_one()` comes to create the interfaces, and one `create_xcdev()` fails. -/
structure CreationFails : Prop where
  alloc : p.alloc = true
  deviceOpen : p.deviceOpen = some c
  check : p.check c = 0
  failed : (createInterfaces k c xpdevAlloc).2 < 0

/-- All devices that were created are destroyed once when `probe_one()` returns. -/
def DestroyedOnce : Prop :=
  ∀ id, Registered k c id → (probeOne k p).2.count (.release (.cdev id)) = 1

/-- What is claimed of `probe_one()` when it returns. -/
structure CleanedUp : Prop where
  destroyed : DestroyedOnce k c p
  unregistered : ∀ id, .cdev id ∉ Ledger.held (probeOne k p).2
  region : k.allocChrdevRegion = 0 →
    (probeOne k p).2.count (.release (.chrdevRegion ⟨k.major, xdmaMinorBase⟩)) = 1

/-- What `xpdev_destroy_interfaces()` does. -/
structure InterfacesDestroyed (s s' : Xpdev) : Prop where
  major : s'.major = s.major
  flags : s'.flags = s.flags
  cdev : s'.cdev = s.cdev
  region : s.major ≠ 0 → s'.calls.count (.release (.chrdevRegion ⟨s.major, xdmaMinorBase⟩))
    = s.calls.count (.release (.chrdevRegion ⟨s.major, xdmaMinorBase⟩)) + 1
  released : ∀ id, c.Has id → (s.cdev id).Ready k → s'.calls.count (.release (.cdev id))
    = s.calls.count (.release (.cdev id))
      + if k.xdmaClass ∧ xpdevFlagTest s.flags id.group then 1 else 0

theorem xpdevDestroyInterfaces_spec (s : Xpdev)
    : InterfacesDestroyed k c s (xpdevDestroyInterfaces k c s) := by
  have hall := destroyAll_spec k (destroyIds c s.flags) s
  rw [xpdevDestroyInterfaces_eq]
  generalize destroyAll k (destroyIds c s.flags) s = s' at hall
  have hreleased : ∀ id, c.Has id → (s.cdev id).Ready k → s'.calls.count (.release (.cdev id))
      = s.calls.count (.release (.cdev id))
        + if k.xdmaClass ∧ xpdevFlagTest s.flags id.group then 1 else 0 := by
    intro id hhas hready
    rw [hall.released id hready, count_destroyIds c s.flags hhas]
    cases k.xdmaClass <;> simp
  simp only
  split
  . constructor
    . apply hall.major
    . apply hall.flags
    . apply hall.cdev
    . intro _
      simp [Xpdev.call, hall.major, hall.region]
    . intro id hhas hready
      rw [← hreleased id hhas hready]
      simp [Xpdev.call]
  . next hzero =>
    constructor
    . apply hall.major
    . apply hall.flags
    . apply hall.cdev
    . intro hne
      rw [← hall.major] at hne
      contradiction
    . apply hreleased

theorem probeOne_eq {k : CdevKernel} {c : CdevConfig} {p : ProbeArgs} (h : CreationFails k c p)
    : probeOne k p
        = (-1, (xpdevDestroyInterfaces k c
          (xpdevDestroyInterfaces k c (createInterfaces k c xpdevAlloc).1)).calls) := by
  simp [probeOne, h.alloc, h.deviceOpen, h.check, xpdevCreateInterfaces, h.failed, xpdevFree]

theorem createInterfaces_spec (hfailed : (createInterfaces k c xpdevAlloc).2 < 0)
    : ∃ steps, devices steps ⊆ devices (createSteps c)
        ∧ Broken k steps (createInterfaces k c xpdevAlloc).1
        ∧ ((k.allocChrdevRegion < 0 ∨ k.Refuses .ctrl) ∧ devices steps = []
          ∨ ¬ (k.allocChrdevRegion < 0 ∨ k.Refuses .ctrl) ∧ .ctrl ∈ devices steps) := by
  have hengine : CdevType.ctrl.OfEngine → (none : Option CharEngineId).isSome := by
    simp [CdevType.OfEngine]
  have hnew : CdevId.ctrl ∉ devices [] := List.not_mem_nil
  have hcreate := (built_alloc k).create c.configBarIdx none hengine hnew
  have hctrl := createXcdev_spec k .ctrl c.configBarIdx none xpdevAlloc hengine (.inl rfl)
  have hregion : RegionRefused k xpdevAlloc ↔ k.allocChrdevRegion < 0 := and_iff_right rfl
  rw [createInterfaces_eq, createSteps, runSteps, CreateStep.run, orFail] at hfailed ⊢
  rcases hcreate with ⟨hret, hbuilt⟩ | ⟨hret, hbroken⟩
  . rw [if_neg (by omega)] at hfailed ⊢
    have hnodup : (devices ([.create .ctrl c.configBarIdx none .ctrl] ++ restSteps c)).Nodup :=
      nodup_devices c
    rcases runSteps_spec k hbuilt (createSteps_ok c) hnodup with
      ⟨hzero, -⟩ | ⟨-, before, step, after, hsteps, hbroken⟩
    . omega
    . refine ⟨_, ?_, hbroken, ?_⟩
      . rw [hsteps]
        apply List.Sublist.subset
        apply List.Sublist.filterMap
        simp
      . right
        refine ⟨?_, by simp [devices, CreateStep.device]⟩
        rcases hctrl with ⟨hrefused, heq⟩ | ⟨hallowed, -, -, ⟨hno, -⟩ | ⟨-, hneg, -⟩⟩
        . rw [heq] at hret
          have hlt := hrefused.2
          simp only at hret
          omega
        . rw [hregion] at hallowed
          exact not_or.mpr ⟨hallowed, hno⟩
        . omega
  . rw [if_pos hret]
    refine ⟨[], List.nil_subset _, hbroken, .inl ⟨?_, rfl⟩⟩
    rcases hctrl with ⟨hrefused, -⟩ | ⟨-, -, -, ⟨-, hzero, -⟩ | ⟨hyes, -⟩⟩
    . exact .inl hrefused.2
    . omega
    . exact .inr hyes

theorem count_destroyed {k : CdevKernel} {c : CdevConfig} {p : ProbeArgs} (h : CreationFails k c p)
    {id : CdevId} (hid : Registered k c id)
    : (probeOne k p).2.count (.release (.cdev id))
        =
      if k.xdmaClass ∧ xpdevFlagTest (createInterfaces k c xpdevAlloc).1.flags id.group then 2 else 0 := by
  obtain ⟨steps, hsubset, hbroken, -⟩ := createInterfaces_spec k c h.failed
  have hmem := (hbroken.held id).mp hid
  have hhas := has_of_mem_devices c (hsubset hmem)
  have hready := hbroken.ready id hmem
  have hfirst := xpdevDestroyInterfaces_spec k c (createInterfaces k c xpdevAlloc).1
  have hsecond := xpdevDestroyInterfaces_spec k c
    (xpdevDestroyInterfaces k c (createInterfaces k c xpdevAlloc).1)
  -- the second pass finds the flags and the devices as they were before the first
  have hready' := hready
  rw [← hfirst.cdev] at hready'
  rw [probeOne_eq h, hsecond.released id hhas hready', hfirst.released id hhas hready, hfirst.flags,
    hbroken.released id hmem]
  split <;> rfl

theorem count_region {k : CdevKernel} {c : CdevConfig} {p : ProbeArgs} (h : CreationFails k c p)
    (halloc : k.allocChrdevRegion = 0)
    : 2 ≤ (probeOne k p).2.count (.release (.chrdevRegion ⟨k.major, xdmaMinorBase⟩)) := by
  obtain ⟨steps, -, hbroken, -⟩ := createInterfaces_spec k c h.failed
  have hmajor := hbroken.major halloc
  have hfirst := xpdevDestroyInterfaces_spec k c (createInterfaces k c xpdevAlloc).1
  have hsecond := xpdevDestroyInterfaces_spec k c
    (xpdevDestroyInterfaces k c (createInterfaces k c xpdevAlloc).1)
  have hpos := k.major_pos
  have hregion := hfirst.region (by omega)
  have hregion' := hsecond.region (by rw [hfirst.major]; omega)
  rw [hfirst.major, hregion] at hregion'
  rw [hmajor] at hregion'
  rw [probeOne_eq h, hregion']
  omega

theorem probeOne_of_refused {k : CdevKernel} {c : CdevConfig} {p : ProbeArgs}
    (h : CreationFails k c p) (halloc : k.allocChrdevRegion < 0)
    : (probeOne k p).2 = [.acquire (.chrdevRegion ⟨k.major, xdmaMinorBase⟩) false] := by
  have hne : k.allocChrdevRegion ≠ 0 := by omega
  have hcreate : createInterfaces k c xpdevAlloc
      = (xpdevAlloc.call (.acquire (.chrdevRegion ⟨k.major, xdmaMinorBase⟩) false),
        k.allocChrdevRegion) := by
    rw [createInterfaces, createXcdev, newInstance]
    simp [orFail, xpdevAlloc, hne, halloc]
  have hids : destroyIds c 0#32 = [] := by
    have hflag (fbit : XpdevFlag) : xpdevFlagTest 0#32 fbit = false := by cases fbit <;> decide
    simp [destroyIds, hflag]
  have hdestroy (s : Xpdev) (hflags : s.flags = 0#32) (hmajor : s.major = 0)
      : xpdevDestroyInterfaces k c s = s := by
    simp [xpdevDestroyInterfaces_eq, hflags, hids, hmajor]
  have hsame := hdestroy
    (xpdevAlloc.call (.acquire (.chrdevRegion ⟨k.major, xdmaMinorBase⟩) false)) rfl rfl
  simp only [probeOne_eq h, hcreate]
  rw [hsame, hsame]
  rfl

theorem destroyedOnce_iff {k : CdevKernel} {c : CdevConfig} {p : ProbeArgs} (h : CreationFails k c p)
    : DestroyedOnce k c p ↔ k.allocChrdevRegion < 0 ∨ k.Refuses .ctrl := by
  obtain ⟨steps, -, hbroken, hctrl⟩ := createInterfaces_spec k c h.failed
  constructor
  . intro honce
    rcases hctrl with ⟨hno, -⟩ | ⟨-, hmem⟩
    . exact hno
    . have hid : Registered k c .ctrl := (hbroken.held .ctrl).mpr hmem
      have hone := honce .ctrl hid
      rw [count_destroyed h hid] at hone
      split at hone <;> contradiction
  . intro hno id hid
    rcases hctrl with ⟨-, hnil⟩ | ⟨hcreated, -⟩
    . have hmem := (hbroken.held id).mp hid
      rw [hnil] at hmem
      contradiction
    . contradiction

/--
If the interfaces cannot all be created, the devices are destroyed once only if there are none, and all
is cleaned up only if not even the region could be allocated.
-/
theorem probeOne_cleanedUp_iff (h : CreationFails k c p)
    : (DestroyedOnce k c p ↔ k.allocChrdevRegion < 0 ∨ k.Refuses .ctrl)
        ∧ (CleanedUp k c p ↔ k.allocChrdevRegion < 0) := by
  refine ⟨destroyedOnce_iff h, ?_⟩
  constructor
  . intro hclean
    by_contra hnot
    have halloc : k.allocChrdevRegion = 0 := by
      have hneg := k.alloc_nonpos
      omega
    have hone := hclean.region halloc
    have htwo := count_region h halloc
    omega
  . intro halloc
    have hcalls := probeOne_of_refused h halloc
    constructor
    . exact (destroyedOnce_iff h).mpr (.inl halloc)
    . simp [hcalls, Ledger.held]
    . intro hzero
      omega

/-- A device with one user interrupt and one channel of either kind. -/
def smallConfig : CdevConfig where
  userMax := 1
  h2cChannelMax := 1
  c2hChannelMax := 1
  configBarIdx := 1
  bypassBarIdx := -1
  userBarIdx := 0
  engineH2c := fun _ => ⟨true, 0⟩
  engineC2h := fun _ => ⟨true, 0⟩

/-- The second channel device cannot be added. -/
def busyKernel : CdevKernel where
  allocChrdevRegion := 0
  alloc_nonpos := by decide
  major := 240
  major_pos := by decide
  kobjectSetName := fun _ => 0
  cdevAdd := fun id => if id = .sgdmaC2h 0 then -16 else 0
  deviceCreate := fun _ => true
  xdmaClass := true

def smallArgs : ProbeArgs := ⟨true, some smallConfig, 0, true, true⟩

theorem creationFails_small
    : CreationFails busyKernel smallConfig smallArgs := by
  constructor
  . rfl
  . rfl
  . decide
  . decide

theorem probeOne_cleanedUp_small
    : (DestroyedOnce busyKernel smallConfig smallArgs
          ↔ busyKernel.allocChrdevRegion < 0 ∨ busyKernel.Refuses .ctrl)
        ∧ (CleanedUp busyKernel smallConfig smallArgs
          ↔ busyKernel.allocChrdevRegion < 0) :=
  probeOne_cleanedUp_iff busyKernel smallConfig smallArgs creationFails_small

/-- The control device is destroyed twice, and the first channel device is not destroyed at all. -/
theorem not_cleanedUp_small
    : CreationFails busyKernel smallConfig smallArgs
        ∧ ¬ CleanedUp busyKernel smallConfig smallArgs
        ∧ (probeOne busyKernel smallArgs).2.count (.release (.cdev .ctrl)) = 2
        ∧ .cdev (.sgdmaH2c 0) ∈ Ledger.held (probeOne busyKernel smallArgs).2 := by
  refine ⟨creationFails_small, ?_, by decide, by decide⟩
  intro hclean
  apply hclean.unregistered (.sgdmaH2c 0)
  decide

end Probe

end Xdma
