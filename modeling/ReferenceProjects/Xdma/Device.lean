import ReferenceProjects.Xdma.Bars
import ReferenceProjects.Xdma.Impl.Device
import ReferenceProjects.Xdma.Irq
import ReferenceProjects.Xdma.Probe
import ReferenceProjects.Xdma.Workload

/-!
This module contains what holds of all devices of the driver, however they come and go: what an open device
has, that a device which is freed gives it back, and that no engine is left on a completion thread that is gone.
-/

namespace Xdma

open Ledger

section Device

/-- What stays the same of a device: which one it is, and what it was opened with. -/
structure XdevId where
  slot : Nat
  addr : Nat
  idx : Nat
  pdev : PciDev
  userMax : Nat

def Xdev.id (x : Xdev) : XdevId := ⟨x.slot, x.addr, x.idx, x.pdev, x.userMax⟩

/-- A device that is on the list and has nothing yet. -/
structure Xdev.Fresh (x : Xdev) : Prop where
  userMax : x.userMax ≤ maxUserIrq
  bars : x.bars = .init
  probed : ∃ h2cMax c2hMax, (0 < h2cMax ∧ h2cMax ≤ xdmaChannelNumMax)
    ∧ (0 < c2hMax ∧ c2hMax ≤ xdmaChannelNumMax) ∧ x.probed = .init h2cMax c2hMax
  irq : x.irq = IrqSys.init.irq
  calls : x.calls = []
  flags : x.gotRegions = false ∧ x.regionsInUse = false

/-- A device that has all that it needs: its regions, its BARs, its engines, and perhaps its vectors. -/
structure Xdev.Equipped (x : Xdev) (vectors : Bool) : Prop where
  bars : ∃ p, (mapBars p .init).2 = none ∧ x.bars = (mapBars p .init).1
  probed : ∃ env h2cMax c2hMax, (0 < h2cMax ∧ h2cMax ≤ xdmaChannelNumMax)
    ∧ (0 < c2hMax ∧ c2hMax ≤ xdmaChannelNumMax) ∧ x.probed = probedDev env h2cMax c2hMax
  pci : Tracks (fun r => r = .vectors → vectors = true) x.calls
  flags : x.gotRegions = true ∧ x.regionsInUse = false

/--
A device that gave back what it had. Of its engines at most their work is left, and it is still enabled exactly
if its regions were in use.
-/
structure Xdev.Returned (x : Xdev) : Prop where
  bars : Sound x.bars.calls ∧ held x.bars.calls = []
  engines : Sound x.probed.calls ∧ ∀ r ∈ held x.probed.calls, ∃ id, r = .work id
  pci : Sound x.calls ∧ ∀ r, r ∈ held x.calls ↔ r = .enabled ∧ x.regionsInUse = true

section Unwind

variable {x : Xdev} {vectors : Bool}

/-- To unwind a device changes neither which one it is, nor its interrupts; its engines are then `probed`. -/
structure Xdev.Unwound (x x' : Xdev) (probed : ProbedDev) : Prop where
  id : x'.id = x.id
  irq : x'.irq = x.irq
  phase : x'.phase = x.phase
  probed : x'.probed = probed

theorem errMap_unwound (x : Xdev)
    : x.Unwound x.errMap x.probed ∧ x.errMap.bars = x.bars := by
  unfold Xdev.errMap Xdev.errRegions
  split_ifs <;> exact ⟨⟨rfl, rfl, rfl, rfl⟩, rfl⟩

theorem errMask_unwound (x : Xdev)
    : x.Unwound x.errMask x.probed :=
  let h := (errMap_unwound { x with bars := unmapBars x.bars }).1
  ⟨h.id, h.irq, h.phase, h.probed⟩

theorem errEngines_unwound (env : ProbeEnv) (x : Xdev) (k : Kthreads)
    : x.Unwound (x.errEngines env k).1 (x.probed.removeEngines env) :=
  let h := errMask_unwound (x.removeEngines env k).1
  ⟨h.id, h.irq, h.phase, h.probed⟩

theorem disableMsiMsix_unwound (x : Xdev)
    : x.Unwound x.disableMsiMsix x.probed := by
  unfold Xdev.disableMsiMsix
  split_ifs <;> exact ⟨rfl, rfl, rfl, rfl⟩

theorem errMsix_unwound (env : ProbeEnv) (x : Xdev) (k : Kthreads)
    : x.Unwound (x.errMsix env k).1 (x.probed.removeEngines env) := by
  have h := disableMsiMsix_unwound x
  have h' := errEngines_unwound env x.disableMsiMsix k
  rw [h.probed] at h'
  exact ⟨h'.id.trans h.id, h'.irq.trans h.irq, h'.phase.trans h.phase, h'.probed⟩

/-- What happens on the completion threads when a device gives its engines back. -/
theorem errMsix_kthreads (env : ProbeEnv) (x : Xdev) (k : Kthreads)
    : (x.errMsix env k).2 = k.removeEngines env x.addr x.probed := by
  have h := disableMsiMsix_unwound x
  have haddr : x.disableMsiMsix.addr = x.addr := congrArg XdevId.addr h.id
  rw [← haddr, ← h.probed]
  rfl

/-- The device is disabled, unless its regions were in use. -/
theorem errRegions_pci (hpci : Tracks (fun r => r = .enabled) x.calls)
    : Sound x.errRegions.calls
        ∧
      ∀ r, r ∈ held x.errRegions.calls ↔ r = .enabled ∧ x.errRegions.regionsInUse = true := by
  unfold Xdev.errRegions
  split
  . next huse =>
    refine ⟨hpci.sound, ?_⟩
    intro r
    rw [hpci.mem, huse, and_iff_left rfl]
  . next huse =>
    have hnone : Tracks (fun _ => False) (.release .enabled :: x.calls) :=
      hpci.release (r := .enabled) rfl (by simp)
    refine ⟨hnone.sound, ?_⟩
    intro r
    rw [hnone.mem]
    simp [huse]

theorem errMap_pci (hpci : Tracks (fun r => r = .enabled ∨ r = .regions ∧ x.gotRegions = true) x.calls)
    : Sound x.errMap.calls ∧ ∀ r, r ∈ held x.errMap.calls ↔ r = .enabled ∧ x.errMap.regionsInUse = true := by
  apply errRegions_pci
  split
  . next hgot =>
    refine hpci.release (r := .regions) (.inr ⟨rfl, hgot⟩) ?_
    intro q
    cases q <;> simp
  . next hgot =>
    refine hpci.congr ?_
    intro q
    simp [hgot]

theorem errMap_returned (hbars : Sound x.bars.calls ∧ held x.bars.calls = [])
    (hengines : Sound x.probed.calls ∧ ∀ r ∈ held x.probed.calls, ∃ id, r = .work id)
    (hpci : Tracks (fun r => r = .enabled ∨ r = .regions ∧ x.gotRegions = true) x.calls)
    : x.errMap.Returned := by
  obtain ⟨hunwound, hsame⟩ := errMap_unwound x
  refine ⟨?_, ?_, errMap_pci hpci⟩
  . rw [hsame]
    exact hbars
  . rw [hunwound.probed]
    exact hengines

theorem errMask_returned (hbars : x.bars.Kept)
    (hengines : Sound x.probed.calls ∧ ∀ r ∈ held x.probed.calls, ∃ id, r = .work id)
    (hpci : Tracks (fun r => r = .enabled ∨ r = .regions ∧ x.gotRegions = true) x.calls)
    : x.errMask.Returned :=
  @errMap_returned { x with bars := unmapBars x.bars } (unmapBars_spec hbars) hengines hpci

/-- The engines of a device give back all but, where poll mode was turned off meanwhile, their work. -/
theorem Xdev.Equipped.errEngines (h : x.Equipped false) (env : ProbeEnv) (k : Kthreads)
    : (x.errEngines env k).1.Returned := by
  obtain ⟨p, hp, hbars⟩ := h.bars
  obtain ⟨env', h2cMax, c2hMax, _, _, hprobed⟩ := h.probed
  obtain ⟨hgot, _⟩ := h.flags
  have hkept : x.bars.Kept := by
    rw [hbars]
    exact (mapBars_kept hp).1
  have hengines : Sound (x.probed.removeEngines env).calls
      ∧ ∀ r ∈ held (x.probed.removeEngines env).calls, ∃ id, r = .work id := by
    obtain ⟨hsound, hheld⟩ := removeEngines_held env' env h2cMax c2hMax
    rw [hprobed]
    refine ⟨hsound, ?_⟩
    intro r hr
    obtain ⟨id, hwork, _⟩ := (hheld r).mp hr
    exact ⟨id, hwork⟩
  have hpci : Tracks (fun r => r = .enabled ∨ r = .regions ∧ x.gotRegions = true) x.calls := by
    refine h.pci.congr ?_
    intro r
    cases r <;> simp [hgot]
  exact @errMask_returned { x with probed := x.probed.removeEngines env } hkept hengines hpci

theorem Xdev.Equipped.disableMsiMsix (h : x.Equipped (x.msixEnabled || x.msiEnabled))
    : x.disableMsiMsix.Equipped false := by
  have hrelease (hvectors : (x.msixEnabled || x.msiEnabled) = true)
      : Tracks (fun r => r = .vectors → false = true) (.release .vectors :: x.calls) := by
    refine h.pci.release (r := .vectors) (fun _ => hvectors) ?_
    intro q
    cases q <;> simp [hvectors]
  unfold Xdev.disableMsiMsix
  split
  . next hmsix => exact ⟨h.bars, h.probed, hrelease (by simp [hmsix]), h.flags⟩
  . next hmsix =>
    split
    . next hmsi => exact ⟨h.bars, h.probed, hrelease (by simp [hmsi]), h.flags⟩
    . next hmsi =>
      have hnone : (x.msixEnabled || x.msiEnabled) = false := by simp [hmsix, hmsi]
      rw [hnone] at h
      exact h

theorem Xdev.Equipped.errMsix (h : x.Equipped (x.msixEnabled || x.msiEnabled)) (env : ProbeEnv) (k : Kthreads)
    : (x.errMsix env k).1.Returned :=
  h.disableMsiMsix.errEngines env k

end Unwind

section SetUp

variable {x : Xdev} (e : SetUpEnv)

theorem Xdev.Equipped.enableMsiMsix (h : x.Equipped false) (m : MsiSupport)
    : let y := x.enableMsiMsix m
      y.Equipped ((y.msixEnabled || y.msiEnabled) && (Xdma.enableMsiMsix m).2.2.isNone) := by
  refine ⟨h.bars, h.probed, ?_, h.flags⟩
  unfold Xdev.enableMsiMsix
  dsimp only
  split
  . next hvectors =>
    refine h.pci.acquire (r := .vectors) (by simp) ?_
    intro q
    cases q <;> simp [hvectors]
  . next hvectors =>
    refine h.pci.congr ?_
    intro q
    simp [hvectors]

/-- How `xdma_device_open()` ends from `enable_msi_msix()` on. -/
inductive Xdev.SetUpIrqEnds (x : Xdev) (k : Kthreads) : (Xdev × Kthreads) × Option Errno → Prop
  | noVectors {err : Errno} (hmsi : (Xdma.enableMsiMsix e.msi).2.2 = some err)
    : SetUpIrqEnds x k ((x.enableMsiMsix e.msi).errEngines e.probe k, some err)
  | noIrq {err : Errno} {irq : IrqState} (hmsi : (Xdma.enableMsiMsix e.msi).2.2 = none)
    (hirq : irqSetup (x.enableMsiMsix e.msi).irqConfig e.requestIrq x.irq = (irq, some err))
    : SetUpIrqEnds x k ({ x.enableMsiMsix e.msi with irq := irq }.errMsix e.probe k, some err)
  | opened {irq : IrqState} (hmsi : (Xdma.enableMsiMsix e.msi).2.2 = none)
    (hirq : irqSetup (x.enableMsiMsix e.msi).irqConfig e.requestIrq x.irq = (irq, none))
    : SetUpIrqEnds x k (({ x.enableMsiMsix e.msi with irq := irq, phase := .opened }, k), none)

theorem setUpIrq_ends (x : Xdev) (k : Kthreads)
    : x.SetUpIrqEnds e k (x.setUpIrq e k) := by
  unfold Xdev.setUpIrq
  dsimp only
  split
  . next hmsi => exact .noVectors hmsi
  . next hmsi =>
    have hsame : (x.enableMsiMsix e.msi).irq = x.irq := rfl
    rw [hsame]
    split
    . next hirq => exact .noIrq hmsi hirq
    . next hirq => exact .opened hmsi hirq

/-- How it ends between `xdev_list_add()` and there. -/
inductive Xdev.SetUpEnds (x : Xdev) (k : Kthreads) : (Xdev × Kthreads) × Option Errno → Prop
  | undone {x' : Xdev} {err : Errno} (returned : x'.Returned) (unwound : x.Unwound x' x.probed)
    : SetUpEnds x k ((x', k), some err)
  | probed {y : Xdev} (hequipped : y.Equipped false) (same : x.Unwound y (x.probed.probeEngines e.probe))
    : SetUpEnds x k (y.setUpIrq e (k.addEngines e.probe y.addr y.probed))

theorem Xdev.Fresh.setUp_ends (h : x.Fresh) (k : Kthreads)
    : x.SetUpEnds e k (x.setUp e k) := by
  obtain ⟨h2cMax, c2hMax, hh, hc, hprobed⟩ := h.probed
  have hinit : Tracks (fun _ : PciRes => False) x.calls := by
    rw [h.calls]
    exact ⟨trivial, fun r => by simp [held]⟩
  have hbars : x.bars.Kept := by
    rw [h.bars]
    exact (MapInv.init e.bars).kept
  have hengines : Sound x.probed.calls ∧ ∀ r ∈ held x.probed.calls, ∃ id, r = .work id := by
    rw [hprobed]
    exact ⟨trivial, fun r hr => by simp [ProbedDev.init, held] at hr⟩
  obtain ⟨hgot, huse⟩ := h.flags
  unfold Xdev.setUp
  split
  . next err henable =>
    refine .undone ⟨?_, hengines, ?_⟩ ⟨rfl, rfl, rfl, rfl⟩
    . dsimp only
      rw [h.bars]
      exact ⟨trivial, rfl⟩
    . have hnone : Tracks (fun _ => False) (.acquire .enabled false :: x.calls) :=
        hinit.acquire (r := .enabled) not_false (by simp)
      refine ⟨hnone.sound, ?_⟩
      intro r
      rw [hnone.mem]
      simp [huse]
  . next henable =>
    have henabled : Tracks (fun r => r = .enabled) (.acquire .enabled true :: x.calls) :=
      hinit.acquire (r := .enabled) not_false (by simp)
    dsimp only
    split
    . next err hregions =>
      have hused : Tracks (fun r => r = .enabled)
          (.acquire .regions false :: .acquire .enabled true :: x.calls) :=
        henabled.acquire (r := .regions) (by simp) (by simp)
      rw [hregions]
      simp only [Xdev.requestRegions, Xdev.errRegions, Option.isSome_some, if_true]
      refine .undone ⟨?_, hengines, ?_⟩ ⟨rfl, rfl, rfl, rfl⟩
      . dsimp only
        rw [h.bars]
        exact ⟨trivial, rfl⟩
      . refine ⟨hused.sound, ?_⟩
        intro r
        rw [hused.mem, and_iff_left rfl]
    . next hregions =>
      have htaken : Tracks (fun r => r = .enabled ∨ r = .regions ∧ true = true)
          (.acquire .regions true :: .acquire .enabled true :: x.calls) :=
        henabled.acquire (r := .regions) (by simp) (by simp)
      rw [hregions]
      simp only [Xdev.requestRegions, Option.isSome_none, Bool.false_eq_true, if_false]
      rw [h.bars]
      split
      . next bars err hmap =>
        have hundone := @mapBars_undone e.bars (by rw [hmap]; simp)
        rw [hmap] at hundone
        have hunwound := (errMap_unwound { x with
          gotRegions := true, bars := bars, calls := .acquire .regions true :: .acquire .enabled true :: x.calls }).1
        exact .undone (errMap_returned hundone hengines htaken)
          ⟨hunwound.id, hunwound.irq, hunwound.phase, hunwound.probed⟩
      . next bars hmap =>
        have hmapped : (mapBars e.bars .init).2 = none := by rw [hmap]
        have hbars : bars = (mapBars e.bars .init).1 := by rw [hmap]
        have hkept : bars.Kept := hbars ▸ (mapBars_kept hmapped).1
        split
        . next err hmask =>
          have hunwound := errMask_unwound { x with
            gotRegions := true, bars := bars, calls := .acquire .regions true :: .acquire .enabled true :: x.calls }
          exact .undone (errMask_returned hkept hengines htaken)
            ⟨hunwound.id, hunwound.irq, hunwound.phase, hunwound.probed⟩
        . next hmask =>
          refine .probed ⟨⟨e.bars, hmapped, hbars⟩, ⟨e.probe, h2cMax, c2hMax, hh, hc, ?_⟩, ?_, rfl, huse⟩
            ⟨rfl, rfl, rfl, rfl⟩
          . dsimp only [Xdev.probeEngines]
            rw [hprobed]
            rfl
          . refine htaken.congr ?_
            intro r
            cases r <;> simp

/-- What a device has, by where it is between `xdma_device_open()` and `xdma_device_close()`. -/
def Xdev.Settled (x : Xdev) : Prop :=
  match x.phase with
  | .listed => x.Fresh
  | .opened => x.userMax ≤ maxUserIrq ∧ x.Equipped (x.msixEnabled || x.msiEnabled)
  | .unwound => x.Returned

theorem Xdev.Returned.settled (h : x.Returned)
    : Xdev.Settled { x with phase := .unwound } := ⟨h.bars, h.engines, h.pci⟩

/-- A device after its set-up, on the list or on its way from it. -/
def Xdev.afterSetUp (r : (Xdev × Kthreads) × Option Errno) : Xdev :=
  if r.2.isSome then { r.1.1 with phase := .unwound } else r.1.1

theorem Xdev.Fresh.afterSetUp (h : x.Fresh) (k : Kthreads)
    : (Xdev.afterSetUp (x.setUp e k)).Settled ∧ (Xdev.afterSetUp (x.setUp e k)).id = x.id := by
  have hends := h.setUp_ends e k
  generalize x.setUp e k = r at *
  cases hends with
  | undone returned unwound => exact ⟨returned.settled, unwound.id⟩
  | @probed y hequipped same =>
    have hvectors := hequipped.enableMsiMsix e.msi
    have hmax : y.userMax ≤ maxUserIrq := by
      have hmax : y.userMax = x.userMax := congrArg XdevId.userMax same.id
      rw [hmax]
      exact h.userMax
    have hends := setUpIrq_ends e y (k.addEngines e.probe y.addr y.probed)
    generalize y.setUpIrq e (k.addEngines e.probe y.addr y.probed) = r at *
    cases hends with
    | noVectors hmsi =>
      simp only [hmsi, Option.isNone_some, Bool.and_false] at hvectors
      exact ⟨(hvectors.errEngines e.probe _).settled, (errEngines_unwound e.probe _ _).id.trans same.id⟩
    | @noIrq _ irq hmsi _ =>
      simp only [hmsi, Option.isNone_none, Bool.and_true] at hvectors
      have hequipped' : Xdev.Equipped { y.enableMsiMsix e.msi with irq := irq }
          ((y.enableMsiMsix e.msi).msixEnabled || (y.enableMsiMsix e.msi).msiEnabled) :=
        ⟨hvectors.bars, hvectors.probed, hvectors.pci, hvectors.flags⟩
      exact ⟨(hequipped'.errMsix e.probe _).settled, (errMsix_unwound e.probe _ _).id.trans same.id⟩
    | opened hmsi _ =>
      simp only [hmsi, Option.isNone_none, Bool.and_true] at hvectors
      exact ⟨⟨hmax, hvectors.bars, hvectors.probed, hvectors.pci, hvectors.flags⟩, same.id⟩

end SetUp

end Device

section Step

/-- What an event does to its device, and on the completion threads. -/
inductive Xdev.Change (x : Xdev) (k : Kthreads) : XdevEvent → Xdev → Kthreads → Prop
  | setUp {e : SetUpEnv} (hphase : x.phase = .listed)
    : Change x k (.setUp e) (Xdev.afterSetUp (x.setUp e k)) (x.setUp e k).1.2
  | offline (hphase : x.phase = .opened)
    : Change x k .offline { x with irq := xdmaDeviceOffline x.irqConfig x.irq } k
  | online {pollMode : Bool} {req : RequestIrq} (hphase : x.phase = .opened)
    : Change x k (.online pollMode req) { x with irq := xdmaDeviceOnline x.irqConfig pollMode req x.irq } k
  | close {env : ProbeEnv} (hphase : x.phase = .opened)
    : Change x k (.close env) { (x.close env k).1 with phase := .unwound } (x.close env k).2

/-- The completion threads that the first device asks for. -/
def threadsFor (c : CreateEnv) (a : ChannelArgs) (k : Kthreads) : Kthreads × Int :=
  xdmaThreadsCreate c
    (channelMax xdmaChannelNumMax a.h2cChannelMax + channelMax xdmaChannelNumMax a.c2hChannelMax) k

/-- What an event does to the driver. -/
inductive Xdevs.Steps (s : Xdevs) (slot : Nat) : XdevEvent → Xdevs → Prop
  | noMemory {pdev : PciDev} {a : ChannelArgs} {pollMode : Bool} {c : CreateEnv}
    : Steps s slot (.add pdev a false pollMode c) s
  | noThreads {pdev : PciDev} {a : ChannelArgs} {c : CreateEnv} (hempty : s.xdevList = [])
    (hrv : (threadsFor c a s.kthreads).2 < 0)
    : Steps s slot (.add pdev a true true c)
      { s with
          allocated := s.allocated + 1
          kthreads := (threadsFor c a s.kthreads).1
          freed := { Xdev.alloc slot s.allocated pdev a with phase := .unwound } :: s.freed
      }
  | added {pdev : PciDev} {a : ChannelArgs} {pollMode : Bool} {c : CreateEnv} {idx : Nat}
    (hslot : ∀ x ∈ s.xdevList, x.slot ≠ slot) (hidx : ∀ x ∈ s.xdevList, x.idx < idx)
    (hrv : pollMode = true → s.xdevList = [] → ¬ (threadsFor c a s.kthreads).2 < 0)
    : Steps s slot (.add pdev a true pollMode c)
      { s with
          allocated := s.allocated + 1
          kthreads := if pollMode && s.xdevList.isEmpty then (threadsFor c a s.kthreads).1 else s.kthreads
          xdevList := s.xdevList ++ [{ Xdev.alloc slot s.allocated pdev a with idx := idx }]
      }
  | changed {e : XdevEvent} {x x' : Xdev} {k : Kthreads} (hx : x ∈ s.xdevList) (hslot : x.slot = slot)
    (hchange : x.Change s.kthreads e x' k)
    : Steps s slot e ({ s with kthreads := k }.setXdev x')
  | removed {pollMode : Bool} {rv : Nat → Int} {x : Xdev} (hx : x ∈ s.xdevList) (hslot : x.slot = slot)
    (hphase : x.phase = .unwound)
    : Steps s slot (.remove pollMode rv) (s.listRemove pollMode rv x)

theorem Xdevs.find_eq {s : Xdevs} {slot : Nat} {phase : XdevPhase} {x : Xdev} (h : s.find slot phase = some x)
    : x ∈ s.xdevList ∧ x.slot = slot ∧ x.phase = phase := by
  have hmem := List.mem_of_find?_eq_some h
  have hkey := List.find?_some h
  rw [Bool.and_eq_true, beq_iff_eq, beq_iff_eq] at hkey
  exact ⟨hmem, hkey⟩

/-- The devices are listed in the order of their indices. -/
def Xdevs.Sorted (s : Xdevs) : Prop := (s.xdevList.map Xdev.idx).Pairwise (· < ·)

/-- The last device has the largest index. -/
theorem Xdevs.Sorted.idx_lt {s : Xdevs} (h : s.Sorted) {last : Xdev} (hlast : s.xdevList.getLast? = some last)
    : ∀ x ∈ s.xdevList, x.idx < last.idx + 1 := by
  obtain ⟨front, heq⟩ := List.getLast?_eq_some_iff.mp hlast
  unfold Sorted at h
  rw [heq, List.map_append, List.pairwise_append] at h
  intro x hx
  rw [heq, List.mem_append, List.mem_singleton] at hx
  cases hx with
  | inl hx =>
    have := h.2.2 x.idx (List.mem_map_of_mem hx) last.idx (by simp)
    omega
  | inr hx =>
    rw [hx]
    omega

theorem Xdevs.listAdd_steps {s : Xdevs} {slot : Nat} (hsorted : s.Sorted)
    (hslot : ∀ x ∈ s.xdevList, x.slot ≠ slot) (pdev : PciDev) (a : ChannelArgs) (pollMode : Bool) (c : CreateEnv)
    : s.Steps slot (.add pdev a true pollMode c)
        ({ s with allocated := s.allocated + 1 }.listAdd pollMode c (.alloc slot s.allocated pdev a)) := by
  have hadded (idx : Nat) (hidx : ∀ x ∈ s.xdevList, x.idx < idx) :=
    @Steps.added s slot pdev a pollMode c idx hslot hidx
  unfold Xdevs.listAdd
  split
  . next hlast =>
    have hempty : s.xdevList = [] := List.getLast?_eq_none_iff.mp hlast
    have hfirst := hadded 0 (by simp [hempty])
    dsimp only
    cases pollMode with
    | true =>
      rw [if_pos rfl]
      split
      . next hrv => exact .noThreads hempty hrv
      . next hrv =>
        have hstep := hfirst (fun _ _ => hrv)
        rw [hempty] at hstep ⊢
        exact hstep
    | false =>
      rw [if_neg Bool.false_ne_true]
      exact hfirst (fun hpoll => absurd hpoll Bool.false_ne_true)
  . next last hlast =>
    have hmem : last ∈ s.xdevList := List.mem_of_getLast? hlast
    have hne : s.xdevList ≠ [] := List.ne_nil_of_mem hmem
    have hstep := hadded (last.idx + 1) (hsorted.idx_lt hlast) (fun _ hempty => absurd hempty hne)
    rw [List.isEmpty_eq_false_iff.mpr hne, Bool.and_false] at hstep
    exact hstep

theorem Xdevs.steps {s s' : Xdevs} {slot : Nat} {e : XdevEvent} (hsorted : s.Sorted)
    (h : s.step (slot, e) = some s')
    : s.Steps slot e s' := by
  cases e with
  | add pdev a kzalloc pollMode c =>
    simp only [Xdevs.step] at h
    split at h
    . contradiction
    . next hslot =>
      have hnew : ∀ x ∈ s.xdevList, x.slot ≠ slot := by simpa using hslot
      split at h
      . next hmemory =>
        rw [Bool.not_eq_true'] at hmemory
        rw [Option.some.injEq] at h
        rw [← h, hmemory]
        exact .noMemory
      . next hmemory =>
        rw [Bool.not_eq_true', Bool.not_eq_false] at hmemory
        rw [Option.some.injEq] at h
        rw [← h, hmemory]
        exact listAdd_steps hsorted hnew pdev a pollMode c
  | setUp e =>
    simp only [Xdevs.step, Option.map_eq_some_iff] at h
    obtain ⟨x, hfind, rfl⟩ := h
    obtain ⟨hx, hslot, hphase⟩ := find_eq hfind
    exact .changed hx hslot (.setUp hphase)
  | offline =>
    simp only [Xdevs.step, Option.map_eq_some_iff] at h
    obtain ⟨x, hfind, rfl⟩ := h
    obtain ⟨hx, hslot, hphase⟩ := find_eq hfind
    exact .changed hx hslot (.offline hphase)
  | online pollMode req =>
    simp only [Xdevs.step, Option.map_eq_some_iff] at h
    obtain ⟨x, hfind, rfl⟩ := h
    obtain ⟨hx, hslot, hphase⟩ := find_eq hfind
    exact .changed hx hslot (.online hphase)
  | close env =>
    simp only [Xdevs.step, Option.map_eq_some_iff] at h
    obtain ⟨x, hfind, rfl⟩ := h
    obtain ⟨hx, hslot, hphase⟩ := find_eq hfind
    exact .changed hx hslot (.close hphase)
  | remove pollMode rv =>
    simp only [Xdevs.step, Option.map_eq_some_iff] at h
    obtain ⟨x, hfind, rfl⟩ := h
    obtain ⟨hx, hslot, hphase⟩ := find_eq hfind
    exact .removed hx hslot hphase

theorem Xdev.Change.id {x x' : Xdev} {k k' : Kthreads} {e : XdevEvent} (h : x.Change k e x' k')
    (hsettled : x.Settled)
    : x'.id = x.id := by
  cases h with
  | setUp hphase =>
    unfold Settled at hsettled
    rw [hphase] at hsettled
    exact (Fresh.afterSetUp _ hsettled k).2
  | offline hphase => rfl
  | online hphase => rfl
  | close hphase => exact (errMsix_unwound _ _ k).id

theorem Xdev.Change.settled {x x' : Xdev} {k k' : Kthreads} {e : XdevEvent} (h : x.Change k e x' k')
    (hsettled : x.Settled)
    : x'.Settled := by
  unfold Settled at hsettled
  cases h with
  | setUp hphase =>
    rw [hphase] at hsettled
    exact (Fresh.afterSetUp _ hsettled k).1
  | offline hphase =>
    rw [hphase] at hsettled
    unfold Settled
    dsimp only
    rw [hphase]
    obtain ⟨hmax, hbars, hprobed, hpci, hflags⟩ := hsettled
    exact ⟨hmax, hbars, hprobed, hpci, hflags⟩
  | online hphase =>
    rw [hphase] at hsettled
    unfold Settled
    dsimp only
    rw [hphase]
    obtain ⟨hmax, hbars, hprobed, hpci, hflags⟩ := hsettled
    exact ⟨hmax, hbars, hprobed, hpci, hflags⟩
  | @close env hphase =>
    rw [hphase] at hsettled
    obtain ⟨_, hbars, hprobed, hpci, hflags⟩ := hsettled
    have hequipped : Equipped { x with irq := irqTeardown x.irqConfig x.irq } (x.msixEnabled || x.msiEnabled) :=
      ⟨hbars, hprobed, hpci, hflags⟩
    exact (hequipped.errMsix env k).settled

/-- The list of the devices, with what each of them has; those that were freed gave it back. -/
structure Xdevs.Listed (s : Xdevs) : Prop where
  sorted : s.Sorted
  addrs : (s.xdevList.map Xdev.addr).Nodup
  bound : ∀ x ∈ s.xdevList, x.addr < s.allocated
  slots : (s.xdevList.map Xdev.slot).Nodup
  settled : ∀ x ∈ s.xdevList, x.Settled
  freed : ∀ x ∈ s.freed, x.Returned

theorem Xdevs.Listed.init
    : Xdevs.init.Listed where
  sorted := List.Pairwise.nil
  addrs := List.nodup_nil
  bound := by simp [Xdevs.init]
  slots := List.nodup_nil
  settled := by simp [Xdevs.init]
  freed := by simp [Xdevs.init]

section Change

variable {s : Xdevs} {x x' : Xdev}

theorem Xdevs.Listed.eq_of_addr (h : s.Listed) (hx : x ∈ s.xdevList) (hx' : x' ∈ s.xdevList)
    (haddr : x'.addr = x.addr)
    : x' = x :=
  List.inj_on_of_nodup_map h.addrs hx' hx haddr

/-- A device that changes is in the place of the one that it was, and the other ones stay. -/
theorem Xdevs.Listed.mem_setXdev (h : s.Listed) (hx : x ∈ s.xdevList) (hid : x'.id = x.id) {y : Xdev}
    : y ∈ (s.setXdev x').xdevList ↔ (y ∈ s.xdevList ∧ y ≠ x) ∨ y = x' := by
  have haddr : x'.addr = x.addr := congrArg XdevId.addr hid
  have hexists : ∃ z ∈ s.xdevList, z.addr = x'.addr := ⟨x, hx, haddr.symm⟩
  unfold Xdevs.setXdev
  rw [Table.mem_replace, and_iff_left hexists, haddr]
  refine or_congr_left (and_congr_right ?_)
  intro hy
  exact not_congr ⟨fun heq => h.eq_of_addr hx hy heq, fun heq => heq ▸ rfl⟩

theorem Xdevs.Listed.setXdev_map (h : s.Listed) (hx : x ∈ s.xdevList) (hid : x'.id = x.id)
    {β : Type} (f : XdevId → β)
    : (s.setXdev x').xdevList.map (fun y => f y.id) = s.xdevList.map (fun y => f y.id) := by
  refine Table.map_replace ?_
  intro y hy haddr
  have heq : y.addr = x.addr := haddr.trans (congrArg XdevId.addr hid)
  rw [h.eq_of_addr hx hy heq, hid]

theorem Xdevs.Listed.setXdev (h : s.Listed) (hx : x ∈ s.xdevList) (hid : x'.id = x.id) (hsettled : x'.Settled)
    : (s.setXdev x').Listed := by
  have hmem {y : Xdev} := @Listed.mem_setXdev s x x' h hx hid y
  have hidx : (s.setXdev x').xdevList.map Xdev.idx = s.xdevList.map Xdev.idx := h.setXdev_map hx hid XdevId.idx
  have haddr : (s.setXdev x').xdevList.map Xdev.addr = s.xdevList.map Xdev.addr :=
    h.setXdev_map hx hid XdevId.addr
  have hslot : (s.setXdev x').xdevList.map Xdev.slot = s.xdevList.map Xdev.slot :=
    h.setXdev_map hx hid XdevId.slot
  refine ⟨?_, ?_, ?_, ?_, ?_, h.freed⟩
  . unfold Xdevs.Sorted
    rw [hidx]
    exact h.sorted
  . rw [haddr]
    exact h.addrs
  . intro y hy
    cases hmem.mp hy with
    | inl hy => exact h.bound y hy.1
    | inr heq =>
      have hold : x'.addr = x.addr := congrArg XdevId.addr hid
      rw [heq, hold]
      exact h.bound x hx
  . rw [hslot]
    exact h.slots
  . intro y hy
    cases hmem.mp hy with
    | inl hy => exact h.settled y hy.1
    | inr heq => exact heq ▸ hsettled

theorem Xdevs.Listed.add (h : s.Listed) (hsettled : x.Settled) (haddr : x.addr = s.allocated)
    (hslot : ∀ y ∈ s.xdevList, y.slot ≠ x.slot) (hidx : ∀ y ∈ s.xdevList, y.idx < x.idx) (k : Kthreads)
    : Xdevs.Listed
        { s with allocated := s.allocated + 1, kthreads := k, xdevList := s.xdevList ++ [x] } where
  sorted := by
    unfold Sorted
    dsimp only
    rw [List.map_append, List.pairwise_append]
    refine ⟨h.sorted, by simp, ?_⟩
    simpa using hidx
  addrs := by
    refine Table.nodup_add h.addrs ?_
    intro y hy
    have := h.bound y hy
    omega
  bound := by
    intro y hy
    dsimp only
    rw [List.mem_append, List.mem_singleton] at hy
    cases hy with
    | inl hy =>
      have := h.bound y hy
      omega
    | inr heq =>
      rw [heq]
      omega
  slots := Table.nodup_add h.slots hslot
  settled := by
    intro y hy
    rw [List.mem_append, List.mem_singleton] at hy
    cases hy with
    | inl hy => exact h.settled y hy
    | inr heq => exact heq ▸ hsettled
  freed := h.freed

/-- A device that is not added has nothing to give back. -/
theorem alloc_returned (slot addr : Nat) (pdev : PciDev) (a : ChannelArgs)
    : Xdev.Returned { Xdev.alloc slot addr pdev a with phase := .unwound } where
  bars := ⟨trivial, rfl⟩
  engines := ⟨trivial, fun r hr => by simp [Xdev.alloc, ProbedDev.init, held] at hr⟩
  pci := ⟨trivial, fun r => by simp [Xdev.alloc, held]⟩

theorem alloc_settled (slot addr : Nat) (pdev : PciDev) (a : ChannelArgs) (idx : Nat)
    : Xdev.Settled { Xdev.alloc slot addr pdev a with idx := idx } where
  userMax := channelMax_le _ _
  bars := rfl
  probed := ⟨_, _, ⟨channelMax_pos (by decide) _, channelMax_le _ _⟩,
    ⟨channelMax_pos (by decide) _, channelMax_le _ _⟩, rfl⟩
  irq := rfl
  calls := rfl
  flags := ⟨rfl, rfl⟩

theorem Xdevs.Listed.steps {slot : Nat} {e : XdevEvent} {s' : Xdevs} (h : s.Listed) (hstep : s.Steps slot e s')
    : s'.Listed := by
  cases hstep with
  | noMemory => exact h
  | noThreads hempty hrv =>
    refine ⟨h.sorted, h.addrs, ?_, h.slots, h.settled, ?_⟩
    . intro y hy
      have := h.bound y hy
      dsimp only
      omega
    . intro y hy
      rw [List.mem_cons] at hy
      cases hy with
      | inl heq =>
        rw [heq]
        exact alloc_returned slot s.allocated _ _
      | inr hy => exact h.freed y hy
  | added hslot hidx hrv => exact h.add (alloc_settled slot s.allocated _ _ _) rfl hslot hidx _
  | @changed e x x' k hx hslot hchange =>
    have hsettled := h.settled _ hx
    have h' : Listed { s with kthreads := k } := ⟨h.sorted, h.addrs, h.bound, h.slots, h.settled, h.freed⟩
    exact h'.setXdev hx (hchange.id hsettled) (hchange.settled hsettled)
  | @removed pollMode rv x hx hslot hphase =>
    have hsub := @Table.remove_sublist _ _ _ Xdev.addr x.addr s.xdevList
    have hmem (y : Xdev) (hy : y ∈ Table.remove Xdev.addr x.addr s.xdevList) : y ∈ s.xdevList :=
      hsub.subset hy
    refine ⟨?_, ?_, fun y hy => h.bound y (hmem y hy), ?_, fun y hy => h.settled y (hmem y hy), ?_⟩
    . exact h.sorted.sublist (hsub.map Xdev.idx)
    . exact h.addrs.sublist (hsub.map Xdev.addr)
    . exact h.slots.sublist (hsub.map Xdev.slot)
    . intro y hy
      have hsettled := h.settled x hx
      unfold Xdev.Settled at hsettled
      rw [hphase] at hsettled
      cases List.mem_cons.mp hy with
      | inl heq => exact heq ▸ hsettled
      | inr hy => exact h.freed y hy

/-- What holds of a new device and is kept by every change holds of all devices, the freed ones included. -/
theorem Xdevs.Listed.each {P : Xdev → Prop} {slot : Nat} {e : XdevEvent} {s' : Xdevs} (h : s.Listed)
    (hstep : s.Steps slot e s')
    (halloc : ∀ slot addr pdev a idx phase, phase ≠ .opened →
      P { Xdev.alloc slot addr pdev a with idx := idx, phase := phase })
    (hchange : ∀ x k x' k', x.Settled → P x → x.Change k e x' k' → P x')
    (hall : ∀ x, x ∈ s.xdevList ∨ x ∈ s.freed → P x)
    : ∀ x, x ∈ s'.xdevList ∨ x ∈ s'.freed → P x := by
  cases hstep with
  | noMemory => exact hall
  | noThreads hempty hrv =>
    intro y hy
    rw [List.mem_cons, or_left_comm] at hy
    cases hy with
    | inl heq =>
      rw [heq]
      exact halloc slot s.allocated _ _ _ .unwound (by simp)
    | inr hy => exact hall y hy
  | added hslot hidx hrv =>
    intro y hy
    rw [List.mem_append, List.mem_singleton, or_right_comm] at hy
    cases hy with
    | inl hy => exact hall y hy
    | inr heq =>
      rw [heq]
      exact halloc slot s.allocated _ _ _ .listed (by simp)
  | @changed e x x' k hx hslot hx' =>
    have hsettled := h.settled x hx
    have hmem {y : Xdev} := @Listed.mem_setXdev s x x' h hx (hx'.id hsettled) y
    intro y hy
    cases hy with
    | inl hy =>
      cases hmem.mp hy with
      | inl hy => exact hall y (.inl hy.1)
      | inr heq => exact heq ▸ hchange x _ x' k hsettled (hall x (.inl hx)) hx'
    | inr hy => exact hall y (.inr hy)
  | removed hx hslot hphase =>
    intro y hy
    cases hy with
    | inl hy => exact hall y (.inl (Table.mem_remove.mp hy).1)
    | inr hy =>
      cases List.mem_cons.mp hy with
      | inl heq => exact heq ▸ hall _ (.inl hx)
      | inr hy => exact hall y (.inr hy)

end Change

end Step

section Kept

/-- A device that is open has what its handlers and its engines work with. -/
structure Xdev.Supplied (x : Xdev) : Prop where
  pci : Sound x.calls
    ∧ ∀ r, r ∈ held x.calls ↔ (r = .vectors → (x.msixEnabled || x.msiEnabled) = true)
  bars : Sound x.bars.calls ∧ (∀ k, k ∈ held x.bars.calls ↔ x.bars.bar k = true)
    ∧ ∃ c : Nat, x.bars.configBarIdx = c ∧ c ∈ held x.bars.calls
  engines : Sound x.probed.calls
    ∧ ∀ id, x.probed.Present id → .buf id .desc ∈ held x.probed.calls

theorem Xdev.Equipped.supplied {x : Xdev} (h : x.Equipped (x.msixEnabled || x.msiEnabled))
    : x.Supplied := by
  obtain ⟨p, hp, hbars⟩ := h.bars
  obtain ⟨env, h2cMax, c2hMax, _, _, hprobed⟩ := h.probed
  obtain ⟨hkept, hheld⟩ := mapBars_kept hp
  obtain ⟨c, hc, hconfig⟩ := mapBars_config hp
  refine ⟨⟨h.pci.sound, h.pci.mem⟩, ?_, ?_⟩
  . rw [hbars]
    exact ⟨hkept.tracks.sound, hkept.tracks.mem, c, hconfig, (hheld c).mpr hc⟩
  . obtain ⟨hsound, hmem⟩ := probedDev_held env h2cMax c2hMax
    rw [hprobed]
    refine ⟨hsound, ?_⟩
    intro id hid
    exact (hmem _).mpr ⟨id, hid, .inl ⟨.desc, List.mem_cons_self, rfl⟩⟩

/-- What the driver keeps, however its devices come and go. -/
structure Xdevs.Kept (s : Xdevs) : Prop where
  sorted : (s.xdevList.map Xdev.idx).Pairwise (· < ·)
  opened : ∀ x ∈ s.xdevList, x.phase = .opened → x.Supplied
  freed : ∀ x ∈ s.freed, x.Returned

end Kept

section Irq

/-- The interrupts of a device, which are its own from when it is open on. -/
def Xdev.irqSys (x : Xdev) : IrqSys := ⟨if x.phase = .opened then some x.irqConfig else none, x.irq⟩

/-- What `xdma_device_open()` comes to for the interrupts, when it gets as far as `irq_setup()`. -/
def irqOpenArgs (env : ProbeEnv) (h2cMax c2hMax : Nat) (x : Xdev) (m : MsiSupport) : OpenArgs where
  pdev := x.pdev
  userMax := x.userMax
  h2cChannelMax := h2cMax
  c2hChannelMax := c2hMax
  h2cEngine := fun i => env.ready ⟨.toDevice, i⟩
  c2hEngine := fun i => env.ready ⟨.fromDevice, i⟩
  msi := m
  error := none

theorem channelMax_of_le {max n : Nat} (hpos : 0 < n) (hle : n ≤ max)
    : channelMax max n = n := by
  unfold channelMax
  rw [if_neg (by omega)]

theorem irqOpenArgs_config {env : ProbeEnv} {h2cMax c2hMax : Nat} {x : Xdev} (m : MsiSupport)
    (hh : 0 < h2cMax ∧ h2cMax ≤ xdmaChannelNumMax) (hc : 0 < c2hMax ∧ c2hMax ≤ xdmaChannelNumMax)
    (hprobed : x.probed = probedDev env h2cMax c2hMax) (hmax : x.userMax ≤ maxUserIrq)
    : (irqOpenArgs env h2cMax c2hMax x m).config = (x.enableMsiMsix m).irqConfig := by
  obtain ⟨hh2c, hc2h⟩ := probedDev_channels env h2cMax c2hMax
  unfold OpenArgs.config irqOpenArgs Xdev.irqConfig Xdev.enableMsiMsix
  dsimp only
  rw [IrqConfig.mk.injEq, hprobed, hh2c, hc2h, channelMax_of_le hh.1 hh.2, channelMax_of_le hc.1 hc.2,
    channelMax_of_le x.userMax_pos hmax]
  exact ⟨rfl, rfl, rfl, rfl, rfl, rfl⟩

theorem xdmaDeviceOpen_eq {o : OpenArgs} {req : RequestIrq} {calls : List IrqCall} {irq : IrqState}
    {rv : Option Errno} (herror : o.error = none) (hmsi : (enableMsiMsix o.msi).2.2 = none)
    (hsetup : irqSetup o.config req ⟨-1, fun _ => 0, fun _ => 0, calls⟩ = (irq, rv))
    : xdmaDeviceOpen o req calls = ⟨if rv.isSome then none else some o.config, irq⟩ := by
  unfold xdmaDeviceOpen
  rw [if_neg (by simp [herror, hmsi]), hsetup]
  cases rv <;> rfl

/-- To its interrupts the set-up of a device is nothing, or `xdma_device_open()`. -/
theorem Xdev.Fresh.irqSys {x : Xdev} (h : x.Fresh) (hphase : x.phase = .listed) (e : SetUpEnv) (k : Kthreads)
    : ∃ es, Transition.run IrqSys.step x.irqSys es = some (Xdev.afterSetUp (x.setUp e k)).irqSys := by
  have hinit : x.irqSys = IrqSys.init := by
    unfold Xdev.irqSys
    rw [hphase, h.irq]
    rfl
  have hstay {r : (Xdev × Kthreads) × Option Errno} {err : Errno} (hr : r.2 = some err) (hirq : r.1.1.irq = x.irq)
      : ∃ es, Transition.run IrqSys.step x.irqSys es = some (Xdev.afterSetUp r).irqSys := by
    refine ⟨[], ?_⟩
    unfold Xdev.afterSetUp Xdev.irqSys
    rw [hr, hphase]
    simp [Transition.run, hirq]
  have hends := h.setUp_ends e k
  generalize x.setUp e k = r at *
  cases hends with
  | undone returned unwound => exact hstay rfl unwound.irq
  | @probed y hequipped same =>
    obtain ⟨env, h2cMax, c2hMax, hh, hc, hprobed⟩ := hequipped.probed
    have hmax : y.userMax ≤ maxUserIrq := by
      have hmax : y.userMax = x.userMax := congrArg XdevId.userMax same.id
      rw [hmax]
      exact h.userMax
    have hconfig := irqOpenArgs_config e.msi hh hc hprobed hmax
    have hrun {irq : IrqState} {rv : Option Errno} (hmsi : (Xdma.enableMsiMsix e.msi).2.2 = none)
        (hsetup : irqSetup (y.enableMsiMsix e.msi).irqConfig e.requestIrq y.irq = (irq, rv))
        : Transition.run IrqSys.step x.irqSys [.open (irqOpenArgs env h2cMax c2hMax y e.msi) e.requestIrq]
            = some ⟨if rv.isSome then none else some (y.enableMsiMsix e.msi).irqConfig, irq⟩ := by
      rw [← hconfig, same.irq, h.irq] at hsetup
      rw [hinit, ← hconfig]
      exact congrArg some (xdmaDeviceOpen_eq rfl hmsi hsetup)
    have hends := setUpIrq_ends e y (k.addEngines e.probe y.addr y.probed)
    generalize y.setUpIrq e (k.addEngines e.probe y.addr y.probed) = r at *
    cases hends with
    | noVectors hmsi => exact hstay rfl ((errEngines_unwound e.probe _ _).irq.trans same.irq)
    | @noIrq err irq hmsi hsetup =>
      refine ⟨_, (hrun hmsi hsetup).trans ?_⟩
      have hsame := (errMsix_unwound e.probe { y.enableMsiMsix e.msi with irq := irq }
        (k.addEngines e.probe y.addr y.probed)).irq
      unfold Xdev.afterSetUp Xdev.irqSys
      simp [hsame]
    | @opened irq hmsi hsetup => exact ⟨_, hrun hmsi hsetup⟩

theorem Xdev.Change.irqSys {x x' : Xdev} {k k' : Kthreads} {e : XdevEvent} (h : x.Change k e x' k')
    (hsettled : x.Settled)
    : ∃ es, Transition.run IrqSys.step x.irqSys es = some x'.irqSys := by
  have hopened (hphase : x.phase = .opened) : x.irqSys = ⟨some x.irqConfig, x.irq⟩ := by
    unfold Xdev.irqSys
    rw [if_pos hphase]
  cases h with
  | setUp hphase =>
    unfold Settled at hsettled
    rw [hphase] at hsettled
    exact Fresh.irqSys hsettled hphase _ k
  | offline hphase =>
    refine ⟨[.offline], ?_⟩
    rw [hopened hphase]
    unfold Xdev.irqSys
    dsimp only
    rw [if_pos hphase]
    rfl
  | @online pollMode req hphase =>
    refine ⟨[.online pollMode req], ?_⟩
    rw [hopened hphase]
    unfold Xdev.irqSys
    dsimp only
    rw [if_pos hphase]
    rfl
  | @close env hphase =>
    refine ⟨[.close], ?_⟩
    have hirq : (x.close env k).1.irq = irqTeardown x.irqConfig x.irq := (errMsix_unwound env _ k).irq
    rw [hopened hphase]
    unfold Xdev.irqSys
    simp [Transition.run, IrqSys.step, xdmaDeviceClose, hirq]

/-- The interrupts of a device got where they are by calls for that device alone. -/
def Xdev.IrqRuns (x : Xdev) : Prop := ∃ es, Transition.run IrqSys.step .init es = some x.irqSys

theorem Xdev.IrqRuns.change {x x' : Xdev} {k k' : Kthreads} {e : XdevEvent} (h : x.IrqRuns)
    (hchange : x.Change k e x' k') (hsettled : x.Settled)
    : x'.IrqRuns := by
  obtain ⟨es, hrun⟩ := h
  obtain ⟨es', hrun'⟩ := hchange.irqSys hsettled
  refine ⟨es ++ es', ?_⟩
  rw [Transition.run_append, hrun]
  exact hrun'

/-- What the driver of all devices does to the interrupts of one of them is a run of that device. -/
theorem xdevs_irqRuns (es : List (Nat × XdevEvent))
    : Transition.StatesHold Xdevs.step (fun s => ∀ x, x ∈ s.xdevList ∨ x ∈ s.freed → x.IrqRuns) .init es := by
  have hsteps (s : Xdevs) (e : Nat × XdevEvent) (s' : Xdevs)
      (h : s.Listed ∧ ∀ x, x ∈ s.xdevList ∨ x ∈ s.freed → x.IrqRuns) (hstep : s.step e = some s')
      : s'.Listed ∧ ∀ x, x ∈ s'.xdevList ∨ x ∈ s'.freed → x.IrqRuns := by
    obtain ⟨hlisted, hruns⟩ := h
    have hsteps := Xdevs.steps hlisted.sorted hstep
    refine ⟨hlisted.steps hsteps, hlisted.each hsteps ?_ ?_ hruns⟩
    . intro slot addr pdev a idx phase hphase
      refine ⟨[], ?_⟩
      unfold Xdev.irqSys
      dsimp only
      rw [if_neg hphase]
      rfl
    . intro x k x' k' hsettled hx hchange
      exact hx.change hchange hsettled
  refine Transition.statesHold_of_inductive (fun s h => h.2) hsteps ?_
  refine ⟨.init, ?_⟩
  intro x hx
  simp [Xdevs.init] at hx

end Irq

end Xdma
