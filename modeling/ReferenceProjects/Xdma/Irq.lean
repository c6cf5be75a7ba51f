import ReferenceProjects.Xdma.Impl.Irq
import Mathlib.Data.List.TakeWhile

/-!
This module contains when the interrupts of a device are requested and freed in pairs, over any
sequence of the calls that set them up and tear them down.
-/

namespace Xdma

/-- Calls are in pairs, and a device that is not open holds no interrupt. -/
structure IrqSound (s : IrqSys) : Prop where
  calls : Ledger.Sound s.irq.calls
  closed : s.dev = none → Ledger.held s.irq.calls = []

/-- The pairs of `n` engines or user interrupts. -/
def irqPairs (vector : Nat → Nat) (devId : Nat → IrqDevId) (n : Nat) : List IrqPair :=
  (List.range n).map (fun i => ⟨vector i, devId i⟩)

/-- The pairs of the engines, in the order in which they are requested. -/
def IrqConfig.channelPairs (c : IrqConfig) : List IrqPair :=
  irqPairs c.pdev.irqVector .engineH2c c.h2cChannelMax
    ++ irqPairs (fun i => c.pdev.irqVector (c.h2cChannelMax + i)) .engineC2h c.c2hChannelMax

def IrqConfig.userPairs (c : IrqConfig) : List IrqPair := (List.range c.userMax).map (userPair c)

/-- All pairs that the device uses. -/
def IrqConfig.pairs (c : IrqConfig) : List IrqPair :=
  if c.msixEnabled then c.channelPairs ++ c.userPairs else [⟨c.pdev.irq, .xdev⟩]

/-- The requests that are granted. -/
def RequestIrq.grants (req : RequestIrq) (p : IrqPair) : Bool := (req p).isNone

/-- What a set-up that starts with no pair held ends with. -/
inductive IrqOutcome where
  | complete
  | nothing
  | incomplete
  deriving DecidableEq, Repr

/-- A device without MSI-X and MSI that has no interrupt pin either. -/
def IrqConfig.noPin (c : IrqConfig) : Bool :=
  !c.msixEnabled && !c.msiEnabled && c.pdev.interruptPin == 0

/--
All pairs are granted; or the very first is refused, or no engine has one to keep; or some engine
keeps what was granted before the refusal.
-/
def IrqConfig.outcome (c : IrqConfig) (req : RequestIrq) : IrqOutcome :=
  if c.noPin then
    .nothing
  else if c.pairs.all req.grants then
    .complete
  else if c.msixEnabled && c.channelPairs.head?.any req.grants then
    .incomplete
  else
    .nothing

/-- How far the calls on a device have come. -/
inductive IrqPhase where
  | closed
  | held (c : IrqConfig)
  | released (c : IrqConfig)
  | incomplete (c : IrqConfig)

/--
The sequences of calls that keep the interrupts in pairs: a device is taken offline or closed only
while its last set-up was complete and not torn down, it is brought online, outside poll mode, only
while it is torn down, and no `xdma_device_open()` gives up with a set-up half done.
-/
def IrqPhase.step : IrqPhase → IrqEvent → Option IrqPhase
  | .closed, .open o req =>
    if o.error.isSome ∨ (enableMsiMsix o.msi).2.2.isSome then
      some .closed
    else
      match o.config.outcome req with
      | .complete => some (.held o.config)
      | .nothing => some .closed
      | .incomplete => none
  | .held c, .offline => some (.released c)
  | .held _, .close => some .closed
  | .released c, .online false req =>
    match c.outcome req with
    | .complete => some (.held c)
    | .nothing => some (.released c)
    | .incomplete => some (.incomplete c)
  | .held c, .online true _ => some (.held c)
  | .released c, .online true _ => some (.released c)
  | .incomplete c, .online true _ => some (.incomplete c)
  | _, _ => none

section Pairs

theorem IrqConfig.nodup_channelPairs (c : IrqConfig)
    : c.channelPairs.Nodup := by
  unfold IrqConfig.channelPairs irqPairs
  rw [List.nodup_append']
  refine ⟨?_, ?_, ?_⟩
  . apply List.Nodup.map_on _ List.nodup_range
    intro i _ j _ h
    simpa using (IrqPair.mk.inj h).2
  . apply List.Nodup.map_on _ List.nodup_range
    intro i _ j _ h
    simpa using (IrqPair.mk.inj h).2
  . intro p hp hq
    simp only [List.mem_map] at hp hq
    rcases hp with ⟨i, _, hi⟩
    rcases hq with ⟨j, _, hj⟩
    rw [← hi] at hj
    simp at hj

theorem IrqConfig.nodup_userPairs (c : IrqConfig)
    : c.userPairs.Nodup := by
  apply List.Nodup.map_on _ List.nodup_range
  intro i _ j _ h
  simpa using (IrqPair.mk.inj h).2

theorem IrqConfig.userPair_not_mem_channelPairs (c : IrqConfig) (i : Nat)
    : userPair c i ∉ c.channelPairs := by
  simp [IrqConfig.channelPairs, irqPairs, userPair]

theorem IrqConfig.nodup_pairs (c : IrqConfig)
    : c.pairs.Nodup := by
  unfold IrqConfig.pairs
  split
  . rw [List.nodup_append']
    refine ⟨c.nodup_channelPairs, c.nodup_userPairs, ?_⟩
    intro p hp hq
    rcases List.mem_map.mp hq with ⟨i, _, hi⟩
    apply c.userPair_not_mem_channelPairs i
    rw [hi]
    apply hp
  . apply List.nodup_singleton

theorem IrqConfig.userPair_mem (c : IrqConfig) (hmsix : c.msixEnabled = true)
    : userPair c 0 ∈ c.pairs := by
  unfold IrqConfig.pairs
  rw [if_pos hmsix]
  apply List.mem_append_right
  apply List.mem_map.mpr ⟨0, List.mem_range.mpr c.userMax_pos, rfl⟩

theorem IrqConfig.pairs_ne_nil (c : IrqConfig)
    : c.pairs ≠ [] := by
  cases hmsix : c.msixEnabled with
  | true => apply List.ne_nil_of_mem (c.userPair_mem hmsix)
  | false => simp [IrqConfig.pairs, hmsix]

end Pairs

section Loops

/-- The pairs of a loop over `n` engines or user interrupts from number `i` on. -/
def irqPairsFrom (vector : Nat → Nat) (devId : Nat → IrqDevId) (n i : Nat) : List IrqPair :=
  (List.range' i n).map (fun k => ⟨vector k, devId k⟩)

theorem irqPairsFrom_zero (vector : Nat → Nat) (devId : Nat → IrqDevId) (n : Nat)
    : irqPairsFrom vector devId n 0 = irqPairs vector devId n := by
  unfold irqPairsFrom irqPairs
  rw [List.range_eq_range']

theorem irqPairsFrom_succ (vector : Nat → Nat) (devId : Nat → IrqDevId) (n i : Nat)
    : irqPairsFrom vector devId (n + 1) i
        = ⟨vector i, devId i⟩ :: irqPairsFrom vector devId n (i + 1) := by
  unfold irqPairsFrom
  rw [List.range'_succ, List.map_cons]

theorem channelTeardownLoop_eq {line vector : Nat → Nat} (devId : Nat → IrqDevId) (n i : Nat)
    (calls : List IrqCall) (hline : ∀ k, i ≤ k → k < i + n → line k = vector k)
    (hpos : ∀ k, 0 < vector k)
    : channelTeardownLoop line devId n i calls
        = Ledger.releaseAll (irqPairsFrom vector devId n i) calls := by
  induction n generalizing i calls with
  | zero => rfl
  | succ n ih =>
    have hi := hline i (Nat.le_refl i) (by omega)
    have hne := hpos i
    unfold channelTeardownLoop
    rw [irqPairsFrom_succ, hi, if_neg (by omega)]
    apply ih
    intro k hk hlt
    apply hline k (by omega) (by omega)

variable (req : RequestIrq)

theorem channelSetupLoop_calls (vector : Nat → Nat) (devId : Nat → IrqDevId) (n i : Nat)
    (line : Nat → Nat) (calls : List IrqCall)
    : (channelSetupLoop req vector devId n i line calls).2.1
        = Ledger.acquireAll req.grants (irqPairsFrom vector devId n i) calls := by
  induction n generalizing i line calls with
  | zero => rfl
  | succ n ih =>
    unfold channelSetupLoop
    rw [irqPairsFrom_succ, Ledger.acquireAll_cons]
    unfold RequestIrq.grants
    dsimp only
    cases req ⟨vector i, devId i⟩ with
    | some err => rfl
    | none => apply ih

theorem channelSetupLoop_rv (vector : Nat → Nat) (devId : Nat → IrqDevId) (n i : Nat)
    (line : Nat → Nat) (calls : List IrqCall)
    : (channelSetupLoop req vector devId n i line calls).2.2.isNone
        = (irqPairsFrom vector devId n i).all req.grants := by
  induction n generalizing i line calls with
  | zero => rfl
  | succ n ih =>
    unfold channelSetupLoop
    rw [irqPairsFrom_succ, List.all_cons]
    dsimp only
    cases h : req ⟨vector i, devId i⟩ with
    | some err => simp [RequestIrq.grants, h]
    | none =>
      simp only [RequestIrq.grants, h, Option.isNone_none, Bool.true_and]
      apply ih

theorem channelSetupLoop_line (vector : Nat → Nat) (devId : Nat → IrqDevId) (n i : Nat)
    (line : Nat → Nat) (calls : List IrqCall) (k : Nat)
    : (line k = vector k → (channelSetupLoop req vector devId n i line calls).1 k = vector k)
        ∧ ((channelSetupLoop req vector devId n i line calls).2.2 = none → i ≤ k → k < i + n
            → (channelSetupLoop req vector devId n i line calls).1 k = vector k) := by
  induction n generalizing i line calls with
  | zero =>
    refine ⟨fun h => h, ?_⟩
    omega
  | succ n ih =>
    unfold channelSetupLoop
    dsimp only
    split
    . refine ⟨fun h => h, ?_⟩
      intro h
      contradiction
    . have hrest := ih (i + 1) (Function.update line i (vector i))
        (.acquire ⟨vector i, devId i⟩ true :: calls)
      have hself : Function.update line i (vector i) i = vector i := Function.update_self i _ line
      refine ⟨?_, ?_⟩
      . intro hk
        apply hrest.1
        by_cases hki : k = i
        . rw [hki, hself]
        . rw [Function.update_of_ne hki, hk]
      . intro hrv hik hlt
        by_cases hki : k = i
        . apply hrest.1
          rw [hki, hself]
        . apply hrest.2 hrv (by omega) (by omega)

theorem userSetupLoop_calls (c : IrqConfig) (n i : Nat) (calls : List IrqCall)
    : (userSetupLoop c req n i calls).2.1
        = Ledger.acquireAll req.grants ((List.range' i n).map (userPair c)) calls := by
  induction n generalizing i calls with
  | zero => rfl
  | succ n ih =>
    unfold userSetupLoop
    rw [List.range'_succ, List.map_cons, Ledger.acquireAll_cons]
    unfold RequestIrq.grants
    cases req (userPair c i) with
    | some err => rfl
    | none => apply ih

theorem userSetupLoop_rv (c : IrqConfig) (n i : Nat) (calls : List IrqCall)
    : (userSetupLoop c req n i calls).2.2.isNone
        = ((List.range' i n).map (userPair c)).all req.grants := by
  induction n generalizing i calls with
  | zero => rfl
  | succ n ih =>
    unfold userSetupLoop
    rw [List.range'_succ, List.map_cons, List.all_cons]
    cases h : req (userPair c i) with
    | some err => simp [RequestIrq.grants, h]
    | none =>
      simp only [RequestIrq.grants, h, Option.isNone_none, Bool.true_and]
      apply ih

theorem userSetupLoop_granted (c : IrqConfig) (n i : Nat) (calls : List IrqCall)
    : ((List.range' i n).map (userPair c)).takeWhile req.grants
        = (List.range' i ((userSetupLoop c req n i calls).1 - i)).map (userPair c)
      ∧ i ≤ (userSetupLoop c req n i calls).1 := by
  induction n generalizing i calls with
  | zero => simp [userSetupLoop]
  | succ n ih =>
    unfold userSetupLoop
    rw [List.range'_succ, List.map_cons]
    cases h : req (userPair c i) with
    | some err =>
      rw [List.takeWhile_cons_of_neg (by simp [RequestIrq.grants, h])]
      simp
    | none =>
      have hrest := ih (i + 1) (.acquire (userPair c i) true :: calls)
      dsimp only
      rw [List.takeWhile_cons_of_pos (by simp [RequestIrq.grants, h]), hrest.1]
      refine ⟨?_, by omega⟩
      generalize (userSetupLoop c req n (i + 1) (.acquire (userPair c i) true :: calls)).1 = m
        at hrest ⊢
      have hm : m - i = (m - (i + 1)) + 1 := by omega
      rw [hm, List.range'_succ, List.map_cons]

theorem userUnwindLoop_eq (c : IrqConfig) (i : Nat) (calls : List IrqCall)
    : userUnwindLoop c i calls
        = Ledger.releaseAll ((List.range i).map (userPair c)).reverse calls := by
  induction i generalizing calls with
  | zero => rfl
  | succ i ih =>
    unfold userUnwindLoop
    rw [ih, List.range_succ, List.map_append, List.reverse_append]
    rfl

theorem userTeardownLoop_eq (c : IrqConfig) (n i : Nat) (calls : List IrqCall)
    : userTeardownLoop c n i calls
        = Ledger.releaseAll ((List.range' i n).map (userPair c)) calls := by
  induction n generalizing i calls with
  | zero => rfl
  | succ n ih =>
    unfold userTeardownLoop
    rw [ih, List.range'_succ]
    rfl

end Loops

section Setup

/-- The lines that a tear-down looks at are those of the pairs. -/
structure LinesSet (c : IrqConfig) (s : IrqState) : Prop where
  irqLine : c.msixEnabled = false → s.irqLine = c.pdev.irq
  h2c : c.msixEnabled = true → ∀ i < c.h2cChannelMax, s.h2cMsixIrqLine i = c.pdev.irqVector i
  c2h : c.msixEnabled = true → ∀ i < c.c2hChannelMax,
    s.c2hMsixIrqLine i = c.pdev.irqVector (c.h2cChannelMax + i)

theorem irqTeardown_calls {c : IrqConfig} {s : IrqState} (h : LinesSet c s)
    : (irqTeardown c s).calls = Ledger.releaseAll c.pairs s.calls := by
  unfold irqTeardown IrqConfig.pairs
  cases hmsix : c.msixEnabled with
  | true =>
    unfold irqMsixUserTeardown irqMsixChannelTeardown IrqConfig.channelPairs IrqConfig.userPairs
    simp only [hmsix, ↓reduceIte, Bool.not_true, Bool.false_eq_true]
    rw [userTeardownLoop_eq,
      channelTeardownLoop_eq _ _ _ _ (fun k _ hk => h.c2h hmsix k (by omega))
        (fun k => c.pdev.irqVector_pos _),
      channelTeardownLoop_eq _ _ _ _ (fun k _ hk => h.h2c hmsix k (by omega)) c.pdev.irqVector_pos,
      irqPairsFrom_zero, irqPairsFrom_zero, Ledger.releaseAll_append, Ledger.releaseAll_append,
      List.range_eq_range']
  | false =>
    have hirq := h.irqLine hmsix
    have hne : (c.pdev.irq : Int) ≠ -1 := by omega
    simp only [hirq, Bool.false_eq_true, ↓reduceIte]
    rw [if_pos hne]
    rfl

theorem irqTeardown_lines {c : IrqConfig} {s : IrqState} (h : LinesSet c s)
    : LinesSet c (irqTeardown c s) := by
  unfold irqTeardown irqMsixUserTeardown irqMsixChannelTeardown
  split
  . split <;> exact ⟨h.irqLine, h.h2c, h.c2h⟩
  . split <;> exact ⟨h.irqLine, h.h2c, h.c2h⟩

variable {c : IrqConfig} (req : RequestIrq) {s : IrqState}

theorem irqMsixChannelSetup_calls (hmsix : c.msixEnabled = true)
    : (irqMsixChannelSetup c req s).1.calls
        = Ledger.acquireAll req.grants c.channelPairs s.calls := by
  have hcalls := channelSetupLoop_calls req c.pdev.irqVector .engineH2c c.h2cChannelMax 0
    s.h2cMsixIrqLine s.calls
  have hrv := channelSetupLoop_rv req c.pdev.irqVector .engineH2c c.h2cChannelMax 0
    s.h2cMsixIrqLine s.calls
  rw [irqPairsFrom_zero] at hcalls hrv
  unfold irqMsixChannelSetup IrqConfig.channelPairs
  rw [Ledger.acquireAll_append, ← hrv, ← hcalls]
  simp only [hmsix, Bool.not_true, Bool.false_eq_true, ↓reduceIte]
  cases (channelSetupLoop req c.pdev.irqVector .engineH2c c.h2cChannelMax 0 s.h2cMsixIrqLine
    s.calls).2.2 with
  | some err => rfl
  | none =>
    dsimp only [Option.isNone_none]
    rw [channelSetupLoop_calls, irqPairsFrom_zero, if_pos rfl]

theorem irqMsixChannelSetup_rv (hmsix : c.msixEnabled = true)
    : (irqMsixChannelSetup c req s).2.isNone = c.channelPairs.all req.grants := by
  have hrv := channelSetupLoop_rv req c.pdev.irqVector .engineH2c c.h2cChannelMax 0
    s.h2cMsixIrqLine s.calls
  rw [irqPairsFrom_zero] at hrv
  unfold irqMsixChannelSetup IrqConfig.channelPairs
  rw [List.all_append, ← hrv]
  simp only [hmsix, Bool.not_true, Bool.false_eq_true, ↓reduceIte]
  cases (channelSetupLoop req c.pdev.irqVector .engineH2c c.h2cChannelMax 0 s.h2cMsixIrqLine
    s.calls).2.2 with
  | some err => rfl
  | none =>
    dsimp only [Option.isNone_none]
    rw [channelSetupLoop_rv, irqPairsFrom_zero, Bool.true_and]

theorem irqMsixUserSetup_rv
    : (irqMsixUserSetup c req s).2.isNone = c.userPairs.all req.grants := by
  unfold irqMsixUserSetup IrqConfig.userPairs
  dsimp only
  rw [userSetupLoop_rv, List.range_eq_range']

theorem irqMsixUserSetup_calls (hsound : Ledger.Sound s.calls)
    (hnew : ∀ p ∈ c.userPairs, p ∉ Ledger.held s.calls)
    : Ledger.Sound (irqMsixUserSetup c req s).1.calls
      ∧ Ledger.held (irqMsixUserSetup c req s).1.calls
        =
      if c.userPairs.all req.grants then
        c.userPairs.reverse ++ Ledger.held s.calls
      else
        Ledger.held s.calls := by
  have hcalls := userSetupLoop_calls req c c.userMax 0 s.calls
  have hgranted := (userSetupLoop_granted req c c.userMax 0 s.calls).1
  have hrv := userSetupLoop_rv req c c.userMax 0 s.calls
  have hacquired := Ledger.sound_acquireAll req.grants hsound c.nodup_userPairs hnew
  have hheld := Ledger.held_acquireAll req.grants c.userPairs s.calls
  rw [← List.range_eq_range'] at hcalls hgranted hrv
  rw [Nat.sub_zero, ← List.range_eq_range'] at hgranted
  unfold irqMsixUserSetup
  dsimp only
  change _ = c.userPairs.all req.grants at hrv
  change _ = Ledger.acquireAll req.grants c.userPairs s.calls at hcalls
  rw [← Option.not_isNone, hrv, hcalls]
  cases hall : c.userPairs.all req.grants with
  | true =>
    rw [List.takeWhile_eq_self_iff.mpr (by simpa using hall)] at hheld
    exact ⟨hacquired, hheld⟩
  | false =>
    simp only [Bool.not_false, ↓reduceIte, Bool.false_eq_true]
    rw [userUnwindLoop_eq, ← hgranted]
    apply Ledger.sound_releaseAll_of_append hacquired hheld

theorem sound_of_irqMsixUserSetup (h : Ledger.Sound (irqMsixUserSetup c req s).1.calls)
    : Ledger.Sound (Ledger.acquireAll req.grants c.userPairs s.calls) := by
  have hacquired : Ledger.Sound (userSetupLoop c req c.userMax 0 s.calls).2.1 := by
    simp only [irqMsixUserSetup] at h
    split at h
    . rw [userUnwindLoop_eq] at h
      apply (Ledger.sound_of_releaseAll h).1
    . apply h
  rw [userSetupLoop_calls, ← List.range_eq_range'] at hacquired
  apply hacquired

/-- What is held in the three cases. -/
def IrqOutcome.Holds (c : IrqConfig) (held : List IrqPair) : IrqOutcome → Prop
  | .complete => held.Perm c.pairs
  | .nothing => held = []
  | .incomplete =>
    c.msixEnabled = true ∧ (∃ p, c.channelPairs.head? = some p ∧ p ∈ held) ∧ userPair c 0 ∉ held

theorem outcome_of_refused (hmsix : c.msixEnabled = true) (hall : c.pairs.all req.grants = false)
    : (c.outcome req).Holds c (c.channelPairs.takeWhile req.grants).reverse
      ∧ c.outcome req ≠ .complete := by
  unfold IrqConfig.outcome IrqConfig.noPin
  simp only [hmsix, hall, Bool.not_true, Bool.false_and, Bool.false_eq_true, ↓reduceIte,
    Bool.true_and]
  have hsub := (List.takeWhile_sublist (p := req.grants) (l := c.channelPairs)).subset
  cases hlist : c.channelPairs with
  | nil => simp [IrqOutcome.Holds]
  | cons p rest =>
    rw [List.head?_cons, Option.any_some]
    cases hp : req.grants p with
    | false =>
      rw [List.takeWhile_cons_of_neg (by simp [hp])]
      simp [IrqOutcome.Holds]
    | true =>
      rw [hlist] at hsub
      have hnot := c.userPair_not_mem_channelPairs 0
      rw [hlist] at hnot
      refine ⟨⟨hmsix, ⟨p, by rw [hlist, List.head?_cons], ?_⟩, ?_⟩, by simp⟩
      . rw [List.takeWhile_cons_of_pos hp]
        simp
      . rw [List.mem_reverse]
        intro hmem
        apply hnot (hsub hmem)

theorem irqSetup_of_msix (hmsix : c.msixEnabled = true) (hsound : Ledger.Sound s.calls)
    (hnone : Ledger.held s.calls = [])
    : Ledger.Sound (irqSetup c req s).1.calls
      ∧ ((irqSetup c req s).2 = none ↔ c.outcome req = .complete)
      ∧ (c.outcome req).Holds c (Ledger.held (irqSetup c req s).1.calls) := by
  have hcalls := irqMsixChannelSetup_calls req (s := s) hmsix
  have hrv := irqMsixChannelSetup_rv req (s := s) hmsix
  have hchannel := Ledger.sound_acquireAll req.grants hsound c.nodup_channelPairs
    (by simp [hnone])
  have hheld := Ledger.held_acquireAll req.grants c.channelPairs s.calls
  rw [hnone, List.append_nil] at hheld
  rw [← hcalls] at hchannel hheld
  have hpairs : c.pairs = c.channelPairs ++ c.userPairs := by
    unfold IrqConfig.pairs
    rw [if_pos hmsix]
  unfold irqSetup
  rw [if_pos hmsix]
  cases hch : irqMsixChannelSetup c req s with
  | mk s' rv =>
    rw [hch] at hrv hchannel hheld
    dsimp only at hrv hchannel hheld ⊢
    cases rv with
    | some err =>
      rw [Option.isNone_some] at hrv
      have hrefused := outcome_of_refused req hmsix
        (by rw [hpairs, List.all_append, ← hrv, Bool.false_and])
      dsimp only
      rw [hheld]
      refine ⟨hchannel, ?_, hrefused.1⟩
      simp [hrefused.2]
    | none =>
      rw [Option.isNone_none] at hrv
      have hfull : c.channelPairs.takeWhile req.grants = c.channelPairs :=
        List.takeWhile_eq_self_iff.mpr (by simpa using hrv.symm)
      have huser := irqMsixUserSetup_calls req hchannel (c := c) (by
        intro p hp
        rw [hheld, hfull, List.mem_reverse]
        rcases List.mem_map.mp hp with ⟨i, _, hi⟩
        rw [← hi]
        apply c.userPair_not_mem_channelPairs)
      have huserRv := irqMsixUserSetup_rv (c := c) req (s := s')
      rw [hheld] at huser
      have hall : c.pairs.all req.grants = c.userPairs.all req.grants := by
        rw [hpairs, List.all_append, ← hrv, Bool.true_and]
      dsimp only
      rw [← Option.isNone_iff_eq_none, huserRv, huser.2]
      refine ⟨huser.1, ?_⟩
      cases hu : c.userPairs.all req.grants with
      | true =>
        have hcomplete : c.outcome req = .complete := by
          unfold IrqConfig.outcome IrqConfig.noPin
          simp [hmsix, hall, hu]
        rw [hcomplete, hfull]
        refine ⟨by simp, ?_⟩
        simp only [↓reduceIte, IrqOutcome.Holds]
        rw [hpairs]
        apply (List.perm_append_comm).trans
        apply List.Perm.append (List.reverse_perm _) (List.reverse_perm _)
      | false =>
        have hrefused := outcome_of_refused req hmsix (by rw [hall, hu])
        simp only [Bool.false_eq_true, ↓reduceIte, false_iff]
        exact ⟨hrefused.2, hrefused.1⟩

theorem irqSetup_outcome (hsound : Ledger.Sound s.calls) (hnone : Ledger.held s.calls = [])
    : Ledger.Sound (irqSetup c req s).1.calls
      ∧ ((irqSetup c req s).2 = none ↔ c.outcome req = .complete)
      ∧ (c.outcome req).Holds c (Ledger.held (irqSetup c req s).1.calls) := by
  cases hmsix : c.msixEnabled with
  | true => apply irqSetup_of_msix req hmsix hsound hnone
  | false =>
    have hisr : c.noPin = false
        → Ledger.Sound (requestIsr c req s).1.calls
          ∧ ((requestIsr c req s).2 = none ↔ c.outcome req = .complete)
          ∧ (c.outcome req).Holds c (Ledger.held (requestIsr c req s).1.calls) := by
      intro hpin
      have hpairs : c.pairs = [⟨c.pdev.irq, .xdev⟩] := by simp [IrqConfig.pairs, hmsix]
      refine ⟨⟨by simp [hnone], hsound⟩, ?_⟩
      unfold IrqConfig.outcome
      rw [hpairs]
      cases hreq : req ⟨c.pdev.irq, .xdev⟩ with
      | none =>
        simp [requestIsr, RequestIrq.grants, hreq, hpin, IrqOutcome.Holds, Ledger.held, hnone, hpairs]
      | some err =>
        simp [requestIsr, RequestIrq.grants, hreq, hpin, IrqOutcome.Holds, Ledger.held, hnone, hmsix]
    unfold irqSetup
    rw [if_neg (by simp [hmsix])]
    cases hmsi : c.msiEnabled with
    | true =>
      simp only [↓reduceIte]
      apply hisr
      simp [IrqConfig.noPin, hmsi]
    | false =>
      simp only [Bool.false_eq_true, ↓reduceIte]
      unfold irqLegacySetup
      split
      . next hpin =>
        have hnothing : c.outcome req = .nothing := by
          simp [IrqConfig.outcome, IrqConfig.noPin, hmsix, hmsi, hpin]
        rw [hnothing]
        refine ⟨hsound, by simp, hnone⟩
      . next hpin =>
        apply hisr
        simp [IrqConfig.noPin, hpin]

theorem irqSetup_asks (hpin : c.noPin = false) (h : Ledger.Sound (irqSetup c req s).1.calls)
    {p : IrqPair} (hp : c.pairs.head? = some p)
    : p ∉ Ledger.held s.calls := by
  unfold irqSetup at h
  unfold IrqConfig.pairs at hp
  cases hmsix : c.msixEnabled with
  | false =>
    have hisr : Ledger.Sound (requestIsr c req s).1.calls → p ∉ Ledger.held s.calls := by
      intro hsound
      simp only [hmsix, Bool.false_eq_true, ↓reduceIte, List.head?_cons, Option.some.injEq] at hp
      rw [← hp]
      apply hsound.1
    simp only [hmsix, Bool.false_eq_true, ↓reduceIte] at h
    split at h
    . apply hisr h
    . next hmsi =>
      unfold irqLegacySetup at h
      rw [if_neg (by simpa [IrqConfig.noPin, hmsix, hmsi] using hpin)] at h
      apply hisr h
  | true =>
    rw [if_pos hmsix] at h hp
    have hcalls := irqMsixChannelSetup_calls req (s := s) hmsix
    -- the user interrupts come behind those of the engines
    have hchannel : Ledger.Sound (irqMsixChannelSetup c req s).1.calls := by
      cases hch : irqMsixChannelSetup c req s with
      | mk s' rv =>
        rw [hch] at h
        cases rv with
        | some err => apply h
        | none =>
          apply Ledger.sound_of_acquireAll (sound_of_irqMsixUserSetup req h)
    cases hlist : c.channelPairs with
    | cons q rest =>
      rw [hcalls, hlist] at hchannel
      rw [hlist, List.cons_append, List.head?_cons, Option.some.injEq] at hp
      rw [← hp]
      apply Ledger.not_mem_held_of_acquireAll hchannel
    | nil =>
      rw [hlist, List.nil_append] at hp
      have hrv := irqMsixChannelSetup_rv req (s := s) hmsix
      rw [hlist] at hcalls hrv
      cases hch : irqMsixChannelSetup c req s with
      | mk s' rv =>
        rw [hch] at h hcalls hrv
        cases rv with
        | some err => contradiction
        | none =>
          have hacquired := sound_of_irqMsixUserSetup req h
          cases huser : c.userPairs with
          | nil => simp [huser] at hp
          | cons q rest =>
            rw [huser, List.head?_cons, Option.some.injEq] at hp
            rw [huser, show s'.calls = s.calls from hcalls] at hacquired
            rw [← hp]
            apply Ledger.not_mem_held_of_acquireAll hacquired

theorem irqMsixChannelSetup_lines
    : (LinesSet c s → LinesSet c (irqMsixChannelSetup c req s).1)
      ∧ (c.msixEnabled = true → (irqMsixChannelSetup c req s).2 = none
          → LinesSet c (irqMsixChannelSetup c req s).1) := by
  have hh2c := channelSetupLoop_line req c.pdev.irqVector .engineH2c c.h2cChannelMax 0
    s.h2cMsixIrqLine s.calls
  unfold irqMsixChannelSetup
  cases hmsix : c.msixEnabled with
  | false => simp
  | true =>
    simp only [Bool.not_true, Bool.false_eq_true, ↓reduceIte]
    cases hloop : channelSetupLoop req c.pdev.irqVector .engineH2c c.h2cChannelMax 0
        s.h2cMsixIrqLine s.calls with
    | mk h2c rest =>
      cases rest with
      | mk calls rv =>
        rw [hloop] at hh2c
        dsimp only at hh2c
        have hc2h := channelSetupLoop_line req (fun i => c.pdev.irqVector (c.h2cChannelMax + i))
          .engineC2h c.c2hChannelMax 0 s.c2hMsixIrqLine calls
        cases rv with
        | some err =>
          refine ⟨?_, by simp⟩
          intro h
          exact ⟨by simp [hmsix], fun _ i hi => (hh2c i).1 (h.h2c hmsix i hi), h.c2h⟩
        | none =>
          constructor
          . intro h
            exact ⟨by simp [hmsix], fun _ i hi => (hh2c i).1 (h.h2c hmsix i hi),
              fun _ i hi => (hc2h i).1 (h.c2h hmsix i hi)⟩
          . intro _ hrv
            exact ⟨by simp [hmsix], fun _ i hi => (hh2c i).2 rfl (by omega) (by omega),
              fun _ i hi => (hc2h i).2 hrv (by omega) (by omega)⟩

theorem irqSetup_lines
    : (LinesSet c s → LinesSet c (irqSetup c req s).1)
      ∧ ((irqSetup c req s).2 = none → LinesSet c (irqSetup c req s).1) := by
  unfold irqSetup
  cases hmsix : c.msixEnabled with
  | true =>
    have hlines := irqMsixChannelSetup_lines (c := c) req (s := s)
    simp only [↓reduceIte]
    cases hch : irqMsixChannelSetup c req s with
    | mk s' rv =>
      rw [hch] at hlines
      cases rv with
      | some err => exact ⟨hlines.1, by simp⟩
      | none =>
        have huser : LinesSet c s' → LinesSet c (irqMsixUserSetup c req s').1 :=
          fun h => ⟨h.irqLine, h.h2c, h.c2h⟩
        exact ⟨fun h => huser (hlines.1 h), fun _ => huser (hlines.2 hmsix rfl)⟩
  | false =>
    have hisr : LinesSet c (requestIsr c req s).1 := ⟨fun _ => rfl, by simp [hmsix], by simp [hmsix]⟩
    simp only [Bool.false_eq_true, ↓reduceIte]
    split
    . exact ⟨fun _ => hisr, fun _ => hisr⟩
    . unfold irqLegacySetup
      split
      . exact ⟨fun h => h, by simp⟩
      . exact ⟨fun _ => hisr, fun _ => hisr⟩

end Setup

section Run

variable {s s' : IrqSys} {c : IrqConfig}

/-- What a phase says about the state of the driver. -/
def IrqPhase.Link (s : IrqSys) : IrqPhase → Prop
  | .closed => s.dev = none ∧ Ledger.held s.irq.calls = []
  | .held c =>
    s.dev = some c ∧ LinesSet c s.irq ∧ c.noPin = false
      ∧ IrqOutcome.complete.Holds c (Ledger.held s.irq.calls)
  | .released c =>
    s.dev = some c ∧ LinesSet c s.irq ∧ IrqOutcome.nothing.Holds c (Ledger.held s.irq.calls)
  | .incomplete c =>
    s.dev = some c ∧ LinesSet c s.irq ∧ IrqOutcome.incomplete.Holds c (Ledger.held s.irq.calls)

theorem noPin_of_complete {req : RequestIrq} (h : c.outcome req = .complete)
    : c.noPin = false := by
  unfold IrqConfig.outcome at h
  split at h
  . contradiction
  . next hpin => simpa using hpin

theorem irqTeardown_held {s : IrqState} (hsound : Ledger.Sound s.calls) (hlines : LinesSet c s)
    (hheld : (Ledger.held s.calls).Perm c.pairs)
    : Ledger.Sound (irqTeardown c s).calls ∧ Ledger.held (irqTeardown c s).calls = [] := by
  rw [irqTeardown_calls hlines]
  constructor
  . apply Ledger.sound_releaseAll hsound c.nodup_pairs
    intro p hp
    apply hheld.mem_iff.mpr hp
  . apply Ledger.held_releaseAll hheld.symm

theorem irqTeardown_not_held {s : IrqState} (hlines : LinesSet c s) {p : IrqPair}
    (hp : p ∈ c.pairs) (hnot : p ∉ Ledger.held s.calls)
    : ¬ Ledger.Sound (irqTeardown c s).calls := by
  rw [irqTeardown_calls hlines]
  intro h
  apply hnot ((Ledger.sound_of_releaseAll h).2 p hp)

theorem exists_not_held {calls : List IrqCall}
    (h : IrqOutcome.nothing.Holds c (Ledger.held calls)
      ∨ IrqOutcome.incomplete.Holds c (Ledger.held calls))
    : ∃ p ∈ c.pairs, p ∉ Ledger.held calls := by
  cases h with
  | inl h =>
    rcases List.exists_mem_of_ne_nil _ c.pairs_ne_nil with ⟨p, hp⟩
    refine ⟨p, hp, ?_⟩
    rw [show Ledger.held calls = [] from h]
    apply List.not_mem_nil
  | inr h => exact ⟨_, c.userPair_mem h.1, h.2.2⟩

theorem irqSetup_not_sound {s : IrqState} {req : RequestIrq} (hpin : c.noPin = false)
    (h : IrqOutcome.complete.Holds c (Ledger.held s.calls)
      ∨ IrqOutcome.incomplete.Holds c (Ledger.held s.calls))
    : ¬ Ledger.Sound (irqSetup c req s).1.calls := by
  intro hsound
  cases h with
  | inl h =>
    cases hpairs : c.pairs with
    | nil => exact absurd hpairs c.pairs_ne_nil
    | cons p rest =>
      apply irqSetup_asks req hpin hsound (p := p) (by rw [hpairs, List.head?_cons])
      apply h.mem_iff.mpr
      rw [hpairs]
      apply List.mem_cons_self
  | inr h =>
    rcases h.2.1 with ⟨p, hhead, hp⟩
    apply irqSetup_asks req hpin hsound (p := p) _ hp
    unfold IrqConfig.pairs
    rw [if_pos h.1, List.head?_append, hhead]
    rfl

theorem noPin_of_incomplete {held : List IrqPair} (h : IrqOutcome.incomplete.Holds c held)
    : c.noPin = false := by
  simp [IrqConfig.noPin, h.1]

/-- The next phase holds, or the calls are out of order where there is none. -/
def IrqPhase.Next (s' : IrqSys) : Option IrqPhase → Prop
  | some ph => Ledger.Sound s'.irq.calls ∧ ph.Link s'
  | none => ¬ IrqSound s'

theorem next_open {calls : List IrqCall} (hsound : Ledger.Sound calls)
    (hnone : Ledger.held calls = []) (o : OpenArgs) (req : RequestIrq)
    : IrqPhase.Next (xdmaDeviceOpen o req calls) (IrqPhase.closed.step (.open o req)) := by
  unfold xdmaDeviceOpen IrqPhase.step
  dsimp only
  split
  . exact ⟨hsound, rfl, hnone⟩
  . have houtcome := irqSetup_outcome (c := o.config) req
      (s := ⟨-1, fun _ => 0, fun _ => 0, calls⟩) hsound hnone
    have hlines := (irqSetup_lines (c := o.config) req
      (s := ⟨-1, fun _ => 0, fun _ => 0, calls⟩)).2
    cases hset : irqSetup o.config req ⟨-1, fun _ => 0, fun _ => 0, calls⟩ with
    | mk s' rv =>
      rw [hset] at houtcome hlines
      dsimp only at houtcome hlines
      rcases houtcome with ⟨hsound', hrv, hheld⟩
      cases hc : o.config.outcome req with
      | complete =>
        rw [hc] at hheld
        have hok := hrv.mpr hc
        subst hok
        exact ⟨hsound', rfl, hlines rfl, noPin_of_complete hc, hheld⟩
      | nothing =>
        rw [hc] at hheld hrv
        cases rv with
        | none => exact absurd (hrv.mp rfl) (by simp)
        | some err => exact ⟨hsound', rfl, hheld⟩
      | incomplete =>
        rw [hc] at hheld hrv
        cases rv with
        | none => exact absurd (hrv.mp rfl) (by simp)
        | some err =>
          intro h
          rcases hheld.2.1 with ⟨p, _, hp⟩
          have hnil : Ledger.held s'.calls = [] := h.closed rfl
          rw [hnil] at hp
          contradiction

theorem IrqPhase.next {ph : IrqPhase} (hsound : Ledger.Sound s.irq.calls) (hlink : ph.Link s)
    {e : IrqEvent} (h : s.step e = some s')
    : IrqPhase.Next s' (ph.step e) := by
  cases ph with
  | closed =>
    cases e with
    | «open» o req =>
      simp only [IrqSys.step, hlink.1, Option.some.injEq] at h
      rw [← h]
      apply next_open hsound hlink.2
    | _ => simp [IrqSys.step, hlink.1] at h
  | held c =>
    rcases hlink with ⟨hdev, hlines, hpin, hheld⟩
    have hdown := irqTeardown_held hsound hlines hheld
    cases e with
    | «open» => simp [IrqSys.step, hdev] at h
    | offline =>
      simp only [IrqSys.step, hdev, Option.map_some, Option.some.injEq] at h
      rw [← h]
      exact ⟨hdown.1, rfl, irqTeardown_lines hlines, hdown.2⟩
    | close =>
      simp only [IrqSys.step, hdev, Option.map_some, Option.some.injEq] at h
      rw [← h]
      exact ⟨hdown.1, rfl, hdown.2⟩
    | online pollMode req =>
      simp only [IrqSys.step, hdev, Option.map_some, Option.some.injEq] at h
      rw [← h]
      cases pollMode with
      | true => exact ⟨hsound, rfl, hlines, hpin, hheld⟩
      | false =>
        intro hbad
        apply irqSetup_not_sound hpin (Or.inl hheld) hbad.calls
  | released c =>
    rcases hlink with ⟨hdev, hlines, hheld⟩
    rcases exists_not_held (Or.inl hheld) with ⟨p, hp, hnot⟩
    have hdown := irqTeardown_not_held hlines hp hnot
    cases e with
    | «open» => simp [IrqSys.step, hdev] at h
    | offline =>
      simp only [IrqSys.step, hdev, Option.map_some, Option.some.injEq] at h
      rw [← h]
      exact fun hbad => hdown hbad.calls
    | close =>
      simp only [IrqSys.step, hdev, Option.map_some, Option.some.injEq] at h
      rw [← h]
      exact fun hbad => hdown hbad.calls
    | online pollMode req =>
      simp only [IrqSys.step, hdev, Option.map_some, Option.some.injEq] at h
      rw [← h]
      cases pollMode with
      | true => exact ⟨hsound, rfl, hlines, hheld⟩
      | false =>
        have houtcome := irqSetup_outcome (c := c) req hsound hheld
        have hlines' := (irqSetup_lines req).1 hlines
        simp only [IrqPhase.step]
        cases hc : c.outcome req with
        | complete =>
          rw [hc] at houtcome
          exact ⟨houtcome.1, rfl, hlines', noPin_of_complete hc, houtcome.2.2⟩
        | nothing =>
          rw [hc] at houtcome
          exact ⟨houtcome.1, rfl, hlines', houtcome.2.2⟩
        | incomplete =>
          rw [hc] at houtcome
          exact ⟨houtcome.1, rfl, hlines', houtcome.2.2⟩
  | incomplete c =>
    rcases hlink with ⟨hdev, hlines, hheld⟩
    rcases exists_not_held (Or.inr hheld) with ⟨p, hp, hnot⟩
    have hdown := irqTeardown_not_held hlines hp hnot
    cases e with
    | «open» => simp [IrqSys.step, hdev] at h
    | offline =>
      simp only [IrqSys.step, hdev, Option.map_some, Option.some.injEq] at h
      rw [← h]
      exact fun hbad => hdown hbad.calls
    | close =>
      simp only [IrqSys.step, hdev, Option.map_some, Option.some.injEq] at h
      rw [← h]
      exact fun hbad => hdown hbad.calls
    | online pollMode req =>
      simp only [IrqSys.step, hdev, Option.map_some, Option.some.injEq] at h
      rw [← h]
      cases pollMode with
      | true => exact ⟨hsound, rfl, hlines, hheld⟩
      | false =>
        intro hbad
        apply irqSetup_not_sound (noPin_of_incomplete hheld) (Or.inr hheld) hbad.calls

theorem IrqPhase.Link.sound {ph : IrqPhase} (hsound : Ledger.Sound s.irq.calls)
    (hlink : ph.Link s)
    : IrqSound s := by
  refine ⟨hsound, ?_⟩
  intro hdev
  cases ph with
  | closed => apply hlink.2
  | held c => rw [hlink.1] at hdev; contradiction
  | released c => rw [hlink.1] at hdev; contradiction
  | incomplete c => rw [hlink.1] at hdev; contradiction

theorem irqSound_iff_of_link {ph : IrqPhase} (hsound : Ledger.Sound s.irq.calls)
    (hlink : ph.Link s) {es : List IrqEvent} (hrun : Transition.run IrqSys.step s es = some s')
    : Transition.StatesHold IrqSys.step IrqSound s es
        ↔ (Transition.run IrqPhase.step ph es).isSome = true := by
  induction es generalizing s ph with
  | nil => exact ⟨fun _ => rfl, fun _ => hlink.sound hsound⟩
  | cons e es ih =>
    simp only [Transition.run, Option.bind_eq_some_iff] at hrun
    rcases hrun with ⟨m, hm, hrun⟩
    have hnext := IrqPhase.next hsound hlink hm
    simp only [Transition.run, Transition.StatesHold, hm, Option.some.injEq, forall_eq']
    cases hph : ph.step e with
    | none =>
      rw [hph] at hnext
      simp only [Option.bind_none, Option.isSome_none, Bool.false_eq_true, iff_false]
      exact fun h => hnext h.2.head
    | some ph' =>
      rw [hph] at hnext
      rw [Option.bind_some, ← ih hnext.1 hnext.2 hrun]
      exact ⟨fun h => h.2, fun h => ⟨hlink.sound hsound, h⟩⟩

/--
The calls of a run keep the interrupts in pairs exactly when they come in a sequence that the phases
allow.
-/
theorem irqSound_iff (es : List IrqEvent) (s : IrqSys)
    (hrun : Transition.run IrqSys.step .init es = some s)
    : Transition.StatesHold IrqSys.step IrqSound .init es
        ↔ (Transition.run IrqPhase.step .closed es).isSome = true := by
  have hsound : Ledger.Sound IrqSys.init.irq.calls := trivial
  have hlink : IrqPhase.closed.Link IrqSys.init := ⟨rfl, rfl⟩
  apply irqSound_iff_of_link hsound hlink hrun

/-- A device with one engine in each direction and one user interrupt, which has MSI-X. -/
def openMsix : OpenArgs where
  pdev := ⟨16, 1, fun i => 40 + i, fun i => by omega⟩
  userMax := 1
  h2cChannelMax := 1
  c2hChannelMax := 1
  h2cEngine := fun _ => true
  c2hEngine := fun _ => true
  msi := ⟨0, true, true, none⟩
  error := none

/-- A reset, during which nothing is granted at first. -/
theorem irqSound_iff_reset
    : Transition.StatesHold IrqSys.step IrqSound .init
        [.open openMsix (fun _ => none), .offline, .online false (fun _ => some .ebusy),
          .online false (fun _ => none), .close] :=
  (irqSound_iff _ _ rfl).mpr rfl

/-- In poll mode the interrupts are freed by the reset and by the release of the device. -/
theorem not_irqSound_poll
    : ¬ Transition.StatesHold IrqSys.step IrqSound .init
        [.open openMsix (fun _ => none), .offline, .online true (fun _ => none), .close] := by
  intro h
  have hcalls := (h.of_run rfl).calls
  revert hcalls
  decide

end Run

end Xdma
