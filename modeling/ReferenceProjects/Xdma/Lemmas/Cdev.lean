import Mathlib.Tactic.Cases
import ReferenceProjects.Xdma.Impl.Cdev

/-!
This module contains what creating and destroying one character device does, and the interfaces as
lists: of what is created one after another, and of what is destroyed.
-/

namespace Xdma

theorem xpdevFlagTest_eq (flags : BitVec 32) (fbit : XpdevFlag)
    : xpdevFlagTest flags fbit = flags.getLsbD fbit.bit := by
  have hbit : (1#32 <<< fbit.bit) = BitVec.twoPow 32 fbit.bit := rfl
  rw [xpdevFlagTest, hbit, BitVec.and_twoPow]
  cases flags.getLsbD fbit.bit with
  | true => cases fbit <;> decide
  | false => simp

theorem xpdevFlagTest_set (flags : BitVec 32) (f g : XpdevFlag)
    : xpdevFlagTest (xpdevFlagSet flags f) g = (decide (f = g) || xpdevFlagTest flags g) := by
  rw [xpdevFlagTest_eq, xpdevFlagTest_eq, xpdevFlagSet]
  cases f <;> cases g <;> simp [XpdevFlag.bit]

section Create

variable (k : CdevKernel) {id : CdevId} {s : Xpdev}

/-- The creation of the device fails once the region is there. -/
def CdevKernel.Refuses (id : CdevId) : Prop :=
  k.kobjectSetName id < 0 ∨ k.cdevAdd id < 0 ∨ k.xdmaClass = true ∧ k.deviceCreate id = false

instance (id : CdevId) : Decidable (k.Refuses id) :=
  inferInstanceAs (Decidable (_ ∨ _ ∨ _ ∧ _))

/-- A device that `destroy_xcdev()` destroys, if there is a class. -/
structure XdmaCdev.Ready (xcdev : XdmaCdev) : Prop where
  magic : xcdev.magic = true
  xdev : xcdev.xdev = true
  sysDevice : k.xdmaClass = true → xcdev.sysDevice = true

/-- What `create_xcdev()` does in any case. -/
structure CreateOk (id : CdevId) (s s' : Xpdev) : Prop where
  flags : s'.flags = s.flags
  cdev : ∀ other, other ≠ id → s'.cdev other = s.cdev other
  released : ∀ other, other ≠ id →
    s'.calls.count (.release (.cdev other)) = s.calls.count (.release (.cdev other))

/-- The device is there, and it was not released. -/
structure Created (id : CdevId) (s s' : Xpdev) : Prop where
  ready : (s'.cdev id).Ready k
  released : s'.calls.count (.release (.cdev id)) = s.calls.count (.release (.cdev id))
  held : ∀ other, .cdev other ∈ Ledger.held s'.calls
    ↔ other = id ∨ .cdev other ∈ Ledger.held s.calls

/-- The devices are the same as before. -/
def NotCreated (s s' : Xpdev) : Prop :=
  ∀ other, .cdev other ∈ Ledger.held s'.calls ↔ .cdev other ∈ Ledger.held s.calls

theorem addXcdev_spec (id : CdevId) (s : Xpdev) (hmagic : (s.cdev id).magic = true)
    (hxdev : (s.cdev id).xdev = true)
    : CreateOk id s (addXcdev k id s).1
        ∧ (addXcdev k id s).1.major = s.major
        ∧ (¬ (k.cdevAdd id < 0 ∨ k.xdmaClass = true ∧ k.deviceCreate id = false)
            ∧ (addXcdev k id s).2 = 0 ∧ Created k id s (addXcdev k id s).1
          ∨ (k.cdevAdd id < 0 ∨ k.xdmaClass = true ∧ k.deviceCreate id = false)
            ∧ (addXcdev k id s).2 < 0 ∧ NotCreated s (addXcdev k id s).1) := by
  by_cases hadd : k.cdevAdd id < 0
  . have hle : ¬ 0 ≤ k.cdevAdd id := by omega
    simp only [addXcdev, Xpdev.call, hadd, ↓reduceIte]
    refine ⟨?_, trivial, ?_⟩
    . constructor <;> simp
    . refine .inr ⟨by simp, trivial, ?_⟩
      intro other
      simp [Ledger.held, hle]
  . have hle : 0 ≤ k.cdevAdd id := by omega
    cases hclass : k.xdmaClass with
    | false =>
      simp only [addXcdev, Xpdev.call, hadd, hclass, ↓reduceIte, Bool.false_eq_true]
      refine ⟨?_, trivial, ?_⟩
      . constructor <;> simp
      . refine .inl ⟨by simp, trivial, ?_⟩
        constructor
        . exact ⟨hmagic, hxdev, fun h => by rw [hclass] at h; contradiction⟩
        . simp
        . intro other
          simp [Ledger.held, hle]
    | true =>
      cases hdev : k.deviceCreate id with
      | true =>
        simp only [addXcdev, createSysDevice, Xpdev.call, hadd, hclass, hdev, ↓reduceIte, Bool.not_true,
          Bool.false_eq_true, Int.lt_irrefl]
        refine ⟨?_, trivial, ?_⟩
        . constructor
          . rfl
          . intro other hother
            exact Function.update_of_ne hother _ _
          . simp
        . refine .inl ⟨by simp, trivial, ?_⟩
          constructor
          . simp only [Function.update_self]
            exact ⟨hmagic, hxdev, fun _ => rfl⟩
          . simp
          . intro other
            simp [Ledger.held, hle]
      | false =>
        simp only [addXcdev, createSysDevice, Xpdev.call, hadd, hclass, hdev, ↓reduceIte, Bool.not_false,
          Int.reduceNeg, Int.reduceLT]
        refine ⟨?_, trivial, ?_⟩
        . constructor
          . rfl
          . intro other hother
            exact Function.update_of_ne hother _ _
          . intro other hother
            simp [Ne.symm hother]
        . refine .inr ⟨by simp, trivial, ?_⟩
          intro other
          simp [Ledger.held, hle]

/-- The types of devices that are made for an engine. -/
def CdevType.OfEngine (type : CdevType) : Prop :=
  type = .xdmaH2c ∨ type = .xdmaC2h ∨ type = .bypassH2c ∨ type = .bypassC2h

theorem configKobject_eq (id : CdevId) (xcdev : XdmaCdev) {type : CdevType}
    (h : type.OfEngine → xcdev.engine.isSome)
    : configKobject k id xcdev type = k.kobjectSetName id := by
  cases type with
  | user | ctrl | xvc | events | bypass => rfl
  | xdmaH2c | xdmaC2h | bypassH2c | bypassC2h =>
    have hsome := h (by simp [CdevType.OfEngine])
    simp [configKobject, Option.isNone_iff_eq_none, Option.isSome_iff_ne_none.mp hsome]

/-- The region is asked for, and refused. -/
def RegionRefused (s : Xpdev) : Prop := s.major = 0 ∧ k.allocChrdevRegion < 0

/-- `s'` differs from `s` in the region at most, which was acquired. -/
structure SameDevices (s s' : Xpdev) : Prop where
  flags : s'.flags = s.flags
  cdev : s'.cdev = s.cdev
  released : ∀ r, s'.calls.count (.release r) = s.calls.count (.release r)
  held : NotCreated s s'

theorem newInstance_spec (s : Xpdev) (hmajor : s.major = 0 ∨ s.major = k.major)
    : RegionRefused k s ∧ newInstance k s
          = (s.call (.acquire (.chrdevRegion ⟨k.major, xdmaMinorBase⟩) false), k.allocChrdevRegion)
        ∨ ¬ RegionRefused k s ∧ (newInstance k s).2 = 0 ∧ (newInstance k s).1.major = k.major
          ∧ SameDevices s (newInstance k s).1 := by
  unfold newInstance
  split
  . next hzero =>
    by_cases halloc : k.allocChrdevRegion = 0
    . have hnot : ¬ RegionRefused k s := by
        intro h
        have hneg := h.2
        omega
      refine .inr ⟨hnot, ?_⟩
      simp only [halloc, ne_eq, not_true_eq_false, ↓reduceIte, Xpdev.call, decide_true, true_and]
      constructor
      . rfl
      . rfl
      . simp
      . intro other
        simp [Ledger.held]
    . have hneg := k.alloc_nonpos
      refine .inl ⟨⟨hzero, by omega⟩, ?_⟩
      simp [halloc]
  . next hne =>
    refine .inr ⟨fun h => hne h.1, rfl, hmajor.resolve_left hne, ?_⟩
    exact ⟨rfl, rfl, fun _ => rfl, fun _ => Iff.rfl⟩

theorem createXcdev_spec (id : CdevId) (bar : Int) (engine : Option CharEngineId) {type : CdevType}
    (s : Xpdev) (hengine : type.OfEngine → engine.isSome) (hmajor : s.major = 0 ∨ s.major = k.major)
    : RegionRefused k s ∧ createXcdev k id bar engine type s
          = (s.call (.acquire (.chrdevRegion ⟨k.major, xdmaMinorBase⟩) false), k.allocChrdevRegion)
        ∨ ¬ RegionRefused k s ∧ CreateOk id s (createXcdev k id bar engine type s).1
          ∧ (createXcdev k id bar engine type s).1.major = k.major
          ∧ (¬ k.Refuses id ∧ (createXcdev k id bar engine type s).2 = 0
              ∧ Created k id s (createXcdev k id bar engine type s).1
            ∨ k.Refuses id ∧ (createXcdev k id bar engine type s).2 < 0
              ∧ NotCreated s (createXcdev k id bar engine type s).1) := by
  unfold createXcdev
  rcases newInstance_spec k s hmajor with ⟨hrefused, hnew⟩ | ⟨hallowed, hrv, hmaj, hsame⟩
  . have halloc : k.allocChrdevRegion ≠ 0 := by
      have hneg := hrefused.2
      omega
    simp [hnew, hrefused, halloc]
  . right
    generalize newInstance k s = r at hrv hmaj hsame ⊢
    obtain ⟨s₀, rv⟩ := r
    simp only at hrv hmaj hsame ⊢
    simp only [hrv, ne_eq, not_true_eq_false, ↓reduceIte]
    rw [configKobject_eq k id _ hengine]
    by_cases hkobj : k.kobjectSetName id < 0
    . simp only [hkobj, ↓reduceIte]
      refine ⟨hallowed, ?_, hmaj, .inr ⟨.inl hkobj, trivial, hsame.held⟩⟩
      constructor
      . apply hsame.flags
      . intro other hother
        simp only [Function.update_of_ne hother, hsame.cdev]
      . intro other _
        apply hsame.released
    . simp only [hkobj, ↓reduceIte]
      generalize hs₁ : Xpdev.mk s₀.major s₀.flags (Function.update s₀.cdev id _) s₀.calls = s₁
      have hadd := addXcdev_spec k id s₁ (by simp [← hs₁]) (by simp [← hs₁])
      obtain ⟨hok, hmaj', hret⟩ := hadd
      have hcalls : s₁.calls = s₀.calls := by rw [← hs₁]
      refine ⟨hallowed, ?_, ?_, ?_⟩
      . constructor
        . rw [hok.flags, ← hs₁, hsame.flags]
        . intro other hother
          rw [hok.cdev other hother, ← hs₁]
          simp only [Function.update_of_ne hother, hsame.cdev]
        . intro other hother
          rw [hok.released other hother, hcalls, hsame.released]
      . rw [hmaj', ← hs₁]
        apply hmaj
      . have hrefuses : k.Refuses id ↔ k.cdevAdd id < 0 ∨ k.xdmaClass = true ∧ k.deviceCreate id = false := by
          simp [CdevKernel.Refuses, hkobj]
        rw [hrefuses]
        rcases hret with ⟨hno, hzero, hcreated⟩ | ⟨hyes, hneg, hnot⟩
        . refine .inl ⟨hno, hzero, hcreated.ready, ?_, ?_⟩
          . rw [hcreated.released, hcalls, hsame.released]
          . intro other
            rw [hcreated.held, hcalls, hsame.held]
        . refine .inr ⟨hyes, hneg, ?_⟩
          intro other
          rw [hnot, hcalls, hsame.held]

end Create

section Destroy

variable (k : CdevKernel) (c : CdevConfig)

/-- Destroy the devices of a list one after another. -/
def destroyAll (ids : List CdevId) (s : Xpdev) : Xpdev :=
  ids.foldl (fun s id => (destroyXcdev k id s).1) s

@[simp]
theorem destroyAll_nil (s : Xpdev)
    : destroyAll k [] s = s := rfl

@[simp]
theorem destroyAll_cons (id : CdevId) (ids : List CdevId) (s : Xpdev)
    : destroyAll k (id :: ids) s = destroyAll k ids (destroyXcdev k id s).1 := rfl

theorem destroyAll_append (ids ids' : List CdevId) (s : Xpdev)
    : destroyAll k (ids ++ ids') s = destroyAll k ids' (destroyAll k ids s) := by
  apply List.foldl_append

theorem destroyLoop_eq (id : Nat → CdevId) (n i : Nat) (s : Xpdev)
    : destroyLoop k id n i s = destroyAll k ((List.range' i n).map id) s := by
  induction n generalizing i s with
  | zero => rfl
  | succ n ih =>
    rw [destroyLoop, ih]
    rfl

/-- What `destroy_xcdev()` calls. -/
def destroyCalls (id : CdevId) (s : Xpdev) : List CdevCall :=
  if (s.cdev id).magic ∧ (s.cdev id).xdev ∧ k.xdmaClass ∧ (s.cdev id).sysDevice then
    [.release (.cdev id), .release (.sysDevice (s.cdev id).cdevno)]
  else
    []

theorem destroyXcdev_eq (id : CdevId) (s : Xpdev)
    : (destroyXcdev k id s).1 = { s with calls := destroyCalls k id s ++ s.calls } := by
  unfold destroyXcdev destroyCalls
  cases hmagic : (s.cdev id).magic with
  | false => simp [hmagic]
  | true =>
    cases hxdev : (s.cdev id).xdev with
    | false => simp [hmagic, hxdev]
    | true =>
      cases hsys : (s.cdev id).sysDevice with
      | false => simp [hmagic, hxdev, hsys]
      | true => cases hclass : k.xdmaClass <;> simp [hmagic, hxdev, hsys, Xpdev.call]

/-- Only calls are made, and none for a region. -/
structure Destroyed (ids : List CdevId) (s s' : Xpdev) : Prop where
  major : s'.major = s.major
  flags : s'.flags = s.flags
  cdev : s'.cdev = s.cdev
  region : ∀ dev, s'.calls.count (.release (.chrdevRegion dev))
    = s.calls.count (.release (.chrdevRegion dev))
  released : ∀ id, (s.cdev id).Ready k → s'.calls.count (.release (.cdev id))
    = s.calls.count (.release (.cdev id)) + if k.xdmaClass then ids.count id else 0

theorem destroyXcdev_spec (id : CdevId) (s : Xpdev)
    : Destroyed k [id] s (destroyXcdev k id s).1 := by
  rw [destroyXcdev_eq]
  constructor
  . rfl
  . rfl
  . rfl
  . intro dev
    unfold destroyCalls
    split <;> simp
  . intro other hready
    unfold destroyCalls
    by_cases heq : id = other
    . subst heq
      cases hclass : k.xdmaClass with
      | true => simp [hready.magic, hready.xdev, hready.sysDevice hclass, Nat.add_comm]
      | false => simp
    . split <;> simp [heq]

theorem destroyAll_spec (ids : List CdevId) (s : Xpdev)
    : Destroyed k ids s (destroyAll k ids s) := by
  induction ids generalizing s with
  | nil =>
    constructor
    . rfl
    . rfl
    . rfl
    . intro _
      rfl
    . simp
  | cons id ids ih =>
    have hone := destroyXcdev_spec k id s
    have hrest := ih (destroyXcdev k id s).1
    rw [destroyAll_cons]
    constructor
    . rw [hrest.major, hone.major]
    . rw [hrest.flags, hone.flags]
    . rw [hrest.cdev, hone.cdev]
    . intro dev
      rw [hrest.region, hone.region]
    . intro other hready
      have hready' : ((destroyXcdev k id s).1.cdev other).Ready k := by
        rw [hone.cdev]
        apply hready
      rw [hrest.released other hready', hone.released other hready, List.count_cons (l := ids),
        List.count_singleton]
      split <;> omega

/-- The devices that `xpdev_destroy_interfaces()` destroys, in its order. -/
def destroyIds (flags : BitVec 32) : List CdevId :=
  let h2c := List.range' 0 c.h2cChannelMax
  let c2h := List.range' 0 c.c2hChannelMax
  (if xpdevFlagTest flags .cdevSg then h2c.map .sgdmaH2c ++ c2h.map .sgdmaC2h else [])
    ++ (if xpdevFlagTest flags .cdevEvent then (List.range' 0 c.userMax).map .events else [])
    ++ (if xpdevFlagTest flags .cdevCtrl then [.ctrl] else [])
    ++ (if xpdevFlagTest flags .cdevUser then [.user] else [])
    ++ (if xpdevFlagTest flags .cdevXvc then [.xvc] else [])
    ++ if xpdevFlagTest flags .cdevBypass then
        h2c.map .bypassH2c ++ c2h.map .bypassC2h ++ [.bypassBase]
      else
        []

theorem destroyIf_eq (fbit : XpdevFlag) (ids : List CdevId) (s : Xpdev)
    : destroyIf fbit (destroyAll k ids) s
        = destroyAll k (if xpdevFlagTest s.flags fbit then ids else []) s := by
  unfold destroyIf
  split <;> rfl

theorem destroyAll_flags (ids : List CdevId) (s : Xpdev)
    : (destroyAll k ids s).flags = s.flags := (destroyAll_spec k ids s).flags

theorem xpdevDestroyInterfaces_eq (s : Xpdev)
    : xpdevDestroyInterfaces k c s
        =
      let s := destroyAll k (destroyIds c s.flags) s
      if s.major ≠ 0 then s.call (.release (.chrdevRegion ⟨s.major, xdmaMinorBase⟩)) else s := by
  have hctrl : (fun s => (destroyXcdev k .ctrl s).1) = destroyAll k [.ctrl] := rfl
  have huser : (fun s => (destroyXcdev k .user s).1) = destroyAll k [.user] := rfl
  have hxvc : (fun s => (destroyXcdev k .xvc s).1) = destroyAll k [.xvc] := rfl
  have hsg : (fun s => destroyLoop k .sgdmaC2h c.c2hChannelMax 0
        (destroyLoop k .sgdmaH2c c.h2cChannelMax 0 s))
      = destroyAll k ((List.range' 0 c.h2cChannelMax).map .sgdmaH2c
        ++ (List.range' 0 c.c2hChannelMax).map .sgdmaC2h) := by
    funext s
    rw [destroyLoop_eq, destroyLoop_eq, destroyAll_append]
  have hevents : destroyLoop k .events c.userMax 0
      = destroyAll k ((List.range' 0 c.userMax).map .events) := by
    funext s
    apply destroyLoop_eq
  have hbypass : (fun s =>
        let s := destroyLoop k .bypassH2c c.h2cChannelMax 0 s
        let s := destroyLoop k .bypassC2h c.c2hChannelMax 0 s
        (destroyXcdev k .bypassBase s).1)
      = destroyAll k ((List.range' 0 c.h2cChannelMax).map .bypassH2c
        ++ (List.range' 0 c.c2hChannelMax).map .bypassC2h ++ [.bypassBase]) := by
    funext s
    simp only [destroyLoop_eq, destroyAll_append]
    rfl
  rw [xpdevDestroyInterfaces, hctrl, huser, hxvc, hsg, hevents, hbypass]
  simp only [destroyIf_eq, destroyAll_flags, destroyIds, destroyAll_append]

end Destroy

end Xdma
