import ReferenceProjects.Tools.Transfer

/-!
This module contains what the return code 0 of `dma_to_device` and `dma_from_device` says.
-/

namespace Tools

/-- Not all of it was moved, without an error. -/
def Transfer.Short (t : Transfer) : Prop := ∃ c, t.outcome = .moved c ∧ c < t.size

def Transfer.OfDevice (t : Transfer) : Prop := t.place = .window ∨ t.place = .whole

def Iteration.transfers (it : Iteration) : List Transfer := it.device ++ it.file.toList

/-- All transfers of a run. -/
def Result.transfers (r : Result) : List Transfer :=
  r.input.toList ++ r.iterations.flatMap Iteration.transfers

/-- A round moved what it should; with `eop` the device may have less data than asked for. -/
structure Iteration.Complete (a : Args) (eop : Bool) (it : Iteration) : Prop where
  failed : ∀ t ∈ it.device, ¬ t.Failed
  moved : eop = false → it.moved = a.size.toNat
  file : a.ofname = true → ∃ t, it.file = some t ∧ t.outcome = .moved it.moved

/-- What 0 promises: all bytes were moved, the ones from and to files included. -/
structure Result.Complete (a : Args) (infname eop : Bool) (r : Result) : Prop where
  input : infname = true → ∃ t, r.input = some t ∧ t.outcome = .moved a.size.toNat
  count : r.iterations.length = a.count.toNat
  iterations : ∀ it ∈ r.iterations, it.Complete a eop

/-- The transfers of a round fit the options. -/
structure Iteration.Ok (a : Args) (it : Iteration) : Prop where
  device : ∀ t ∈ it.device, t.OfDevice ∧ t.Ok
  size : (it.device.map Transfer.size).sum = a.size.toNat
  file : ∀ t, it.file = some t → a.ofname = true ∧ t.place = .output ∧ t.Ok
    ∧ ((∀ t ∈ it.device, ¬ t.Failed) → t.size = it.moved)

/-- What a round is like that does not end the run. -/
structure Iteration.Stays (a : Args) (it : Iteration) : Prop where
  whole : ∀ t ∈ it.device, t.place = .whole → ¬ t.Failed
  some : a.ofname = true → ∃ t, it.file = .some t
  full : ∀ t, it.file = .some t → t.Full

def Iteration.underflow (it : Iteration) : Bool := it.device.any Transfer.underflow

/-- How a round ends the run. -/
inductive Iteration.Ends (v : Vars) (it : Iteration) (underflow : Bool) : Prop where
  | whole (t : Transfer) (mem : t ∈ it.device) (place : t.place = .whole) (failed : t.Failed)
      (file : it.file = none) (rc : v.rc = -eio)
  | failed (t : Transfer) (file : it.file = some t) (failed : t.Failed) (rc : v.rc = -eio)
  | short (t : Transfer) (c : Nat) (file : it.file = some t) (whole : ∀ t ∈ it.device,
      t.place = .whole → ¬ t.Failed) (moved : t.outcome = .moved c) (lt : c < t.size)
      (rc : v.rc = c) (underflow : v.underflow = (underflow || it.underflow))

section Iteration

variable (env : Env) (a : Args) (tool : Tool)

/-- The transfers between buffer and device of a round, and whether they end the run. -/
structure DeviceOk (v v' : Vars) (ts : List Transfer) (exited : Bool) : Prop where
  ok : ∀ t ∈ ts, t.OfDevice ∧ t.Ok
  size : (ts.map Transfer.size).sum = a.size.toNat
  bytesDone : (∀ t ∈ ts, ¬ t.Failed) →
    v'.bytesDone = BitVec.ofNat 64 (ts.map (fun t => t.outcome.count)).sum
  ends : exited = true → ∃ t ∈ ts, t.place = .whole ∧ t.Failed ∧ v'.rc = -eio
  stays : exited = false → (∀ t ∈ ts, t.place = .whole → ¬ t.Failed) ∧ 0 ≤ v'.rc
    ∧ v'.underflow = (v.underflow || ts.any Transfer.underflow)

theorem deviceTransfers_ok (v : Vars) (hrc : 0 ≤ v.rc)
    : DeviceOk a v (deviceTransfers env a tool v).1 (deviceTransfers env a tool v).2.1
        (deviceTransfers env a tool v).2.2 := by
  unfold deviceTransfers
  split
  . next hpos =>
    have hbounds := aptLoop_bounds hpos
    have hok := windows_ok env a tool a.aptLoop a.size a.offset { v with bytesDone := 0 }
    constructor
    . intro t ht
      exact ⟨.inl (hok.ok t ht).1, (hok.ok t ht).2⟩
    . apply windows_size env a tool _ _ _ _ hbounds.1 hbounds.2
    . intro hfailed
      rw [hok.bytesDone hfailed]
      simp
    . intro hexited
      contradiction
    . intro _
      refine ⟨?_, ?_, hok.underflow⟩
      . intro t ht hwhole
        rw [(hok.ok t ht).1] at hwhole
        contradiction
      . rw [hok.rc]
        apply hrc
  . have hwithin := Tool.transfer_within env a tool v.calls a.offset a.size
    generalize tool.transfer env a v.calls a.offset a.size = r at hwithin ⊢
    have hok : Transfer.Ok ⟨.whole, a.size.toNat, r.1⟩ := ⟨hwithin, a.size.isLt⟩
    cases ho : r.1 with
    | failed c =>
      have hneg : (Outcome.failed c).rc < 0 := by simp [Outcome.rc, eio]
      rw [ho] at hok
      simp only [ho, hneg, ↓reduceIte]
      constructor
      . simp [Transfer.OfDevice, hok]
      . simp
      . intro hfailed
        exact absurd ⟨c, rfl⟩ (hfailed _ List.mem_cons_self)
      . intro _
        exact ⟨_, List.mem_cons_self, rfl, ⟨c, rfl⟩, rfl⟩
      . intro hexited
        contradiction
    | moved c =>
      rw [ho] at hok hwithin
      have hneg : ¬ (Outcome.moved c).rc < 0 := by
        rw [hwithin.rc_moved]
        omega
      simp only [ho, hneg, ↓reduceIte]
      constructor
      . simp [Transfer.OfDevice, hok]
      . simp
      . intro _
        simp [hwithin.rc_moved, Outcome.count]
      . intro hexited
        contradiction
      . intro _
        refine ⟨?_, ?_, ?_⟩
        . simp [Transfer.Failed]
        . rw [hwithin.rc_moved]
          exact Int.natCast_nonneg c
        . simp [hok.underflow_eq rfl]

/-- A round, and whether it ends the run. -/
structure IterationOk (v v' : Vars) (it : Iteration) (exited : Bool) : Prop where
  ok : it.Ok a
  ends : exited = true → it.Ends v' v.underflow
  stays : exited = false → it.Stays a ∧ 0 ≤ v'.rc ∧ v'.underflow = (v.underflow || it.underflow)

theorem outputFile_ok {v v' : Vars} {ts : List Transfer} {o : Outcome} (hofname : a.ofname = true)
    (hdevice : DeviceOk a v v' ts false) (hwithin : o.Within v'.bytesDone.toNat)
    : Iteration.Ok a ⟨ts, some ⟨.output, v'.bytesDone.toNat, o⟩⟩ := by
  constructor
  . apply hdevice.ok
  . apply hdevice.size
  . intro t ht
    cases ht
    refine ⟨hofname, rfl, ⟨hwithin, v'.bytesDone.isLt⟩, ?_⟩
    intro hfailed
    have hle : (ts.map (fun t => t.outcome.count)).sum ≤ (ts.map Transfer.size).sum := by
      apply List.sum_le_sum
      intro t ht
      exact (hdevice.ok t ht).2.within.le
    have hsize := hdevice.size
    have hlt := a.size.isLt
    simp only [hdevice.bytesDone hfailed, BitVec.toNat_ofNat, Iteration.moved]
    apply Nat.mod_eq_of_lt
    omega

theorem iteration_ok (v : Vars)
    : IterationOk a v (iteration env a tool v).1 (iteration env a tool v).2.1
        (iteration env a tool v).2.2 := by
  have hdevice := deviceTransfers_ok env a tool { v with rc := 0 } (Int.le_refl 0)
  unfold iteration
  generalize deviceTransfers env a tool { v with rc := 0 } = r at hdevice ⊢
  obtain ⟨v', ts, exited⟩ := r
  cases exited with
  | true =>
    obtain ⟨t, ht, hplace, hfailed, hrc⟩ := hdevice.ends rfl
    constructor
    . refine ⟨hdevice.ok, hdevice.size, ?_⟩
      intro t ht
      contradiction
    . intro _
      exact .whole t ht hplace hfailed rfl hrc
    . intro hexited
      contradiction
  | false =>
    obtain ⟨hwhole, hrc, hunderflow⟩ := hdevice.stays rfl
    simp only [Bool.false_eq_true, ↓reduceIte]
    -- the clock is read once more
    generalize hw : tool.clockEnd v' = w
    have hdone : w.bytesDone = v'.bytesDone := by
      rw [← hw]
      cases tool <;> rfl
    have hflow : w.underflow = v'.underflow := by
      rw [← hw]
      cases tool <;> rfl
    have hwrc : 0 ≤ w.rc := by
      rw [← hw]
      cases tool with
      | toDevice => exact Int.le_refl 0
      | fromDevice => apply hrc
    split
    . next hofname =>
      have hwithin := writeFromBuffer_within env.calls .outfile w.calls a.offset w.bytesDone w.outOffset
      generalize writeFromBuffer env.calls .outfile w.calls a.offset w.bytesDone w.outOffset = r
        at hwithin ⊢
      rw [hdone] at hwithin
      have hok := outputFile_ok a hofname hdevice hwithin
      simp only [hdone]
      cases ho : r.1 with
      | failed c =>
        have hneg : (Outcome.failed c).rc < 0 := by simp [Outcome.rc, eio]
        rw [ho] at hok
        simp only [hneg, true_or, ↓reduceIte]
        constructor
        . apply hok
        . intro _
          exact .failed _ rfl ⟨c, rfl⟩ rfl
        . intro hexited
          contradiction
      | moved c =>
        rw [ho] at hok hwithin
        have hlt := hwithin.lt
        have hneg : ¬ (Outcome.moved c).rc < 0 := by
          rw [hwithin.rc_moved]
          omega
        have hshort : BitVec.ofInt 64 (Outcome.moved c).rc < v'.bytesDone ↔ c < v'.bytesDone.toNat := by
          rw [BitVec.lt_def, hwithin.toNat_rc]
          rfl
        simp only [hneg, hshort, false_or]
        split
        . next hlt =>
          constructor
          . apply hok
          . intro _
            exact .short _ c rfl hwhole rfl hlt hwithin.rc_moved (by rw [hflow, hunderflow]; rfl)
          . intro hexited
            contradiction
        . next hle =>
          have hfull : c = v'.bytesDone.toNat := by
            have hc := hwithin.le
            simp only [Outcome.count] at hc
            omega
          constructor
          . apply hok
          . intro hexited
            contradiction
          . intro _
            refine ⟨⟨hwhole, fun _ => ⟨_, rfl⟩, ?_⟩, ?_, by rw [hflow, hunderflow]; rfl⟩
            . intro t ht
              cases ht
              simp [Transfer.Full, hfull]
            . simp only [hwithin.rc_moved]
              exact Int.natCast_nonneg c
    . next hofname =>
      constructor
      . refine ⟨hdevice.ok, hdevice.size, ?_⟩
        intro t ht
        contradiction
      . intro hexited
        contradiction
      . intro _
        refine ⟨⟨hwhole, fun h => absurd h hofname, ?_⟩, hwrc, by rw [hflow, hunderflow]; rfl⟩
        intro t ht
        contradiction

/-- All rounds, and whether one of them ended the run. -/
structure RoundsOk (k : Nat) (v v' : Vars) (its : List Iteration) (exited : Bool) : Prop where
  ok : ∀ it ∈ its, it.Ok a
  ends : exited = true → ∃ rest it, its = rest ++ [it] ∧ (∀ it ∈ rest, it.Stays a)
    ∧ it.Ends v' (v.underflow || rest.any Iteration.underflow)
  stays : exited = false → its.length = k ∧ (∀ it ∈ its, it.Stays a) ∧ (0 ≤ v.rc ∨ 0 < k → 0 ≤ v'.rc)
    ∧ v'.underflow = (v.underflow || its.any Iteration.underflow)

theorem iterations_ok (k : Nat) (v : Vars)
    : RoundsOk a k v (iterations env a tool k v).1 (iterations env a tool k v).2.1
        (iterations env a tool k v).2.2 := by
  induction k generalizing v with
  | zero =>
    constructor
    . simp [iterations]
    . simp [iterations]
    . simp [iterations]
  | succ k ih =>
    have hround := iteration_ok env a tool v
    unfold iterations
    generalize iteration env a tool v = r at hround ⊢
    obtain ⟨v₁, it, exited⟩ := r
    cases exited with
    | true =>
      simp only [↓reduceIte]
      constructor
      . simpa using hround.ok
      . intro _
        refine ⟨[], it, rfl, by simp, ?_⟩
        simpa using hround.ends rfl
      . intro hexited
        contradiction
    | false =>
      obtain ⟨hstays, hrc, hunderflow⟩ := hround.stays rfl
      have ih := ih v₁
      simp only [Bool.false_eq_true, ↓reduceIte]
      generalize iterations env a tool k v₁ = r at ih ⊢
      obtain ⟨v', its, exited⟩ := r
      constructor
      . intro it' hit'
        rcases List.mem_cons.mp hit' with rfl | hit'
        . apply hround.ok
        . apply ih.ok it' hit'
      . intro hexited
        obtain ⟨rest, last, hits, hrest, hends⟩ := ih.ends hexited
        refine ⟨it :: rest, last, ?_, ?_, ?_⟩
        . exact congrArg (it :: ·) hits
        . intro it' hit'
          rcases List.mem_cons.mp hit' with rfl | hit'
          . apply hstays
          . apply hrest it' hit'
        . rw [List.any_cons, ← Bool.or_assoc, ← hunderflow]
          apply hends
      . intro hexited
        obtain ⟨hlength, hits, hrc', hunderflow'⟩ := ih.stays hexited
        refine ⟨?_, ?_, ?_, ?_⟩
        . exact congrArg (· + 1) hlength
        . intro it' hit'
          rcases List.mem_cons.mp hit' with rfl | hit'
          . apply hstays
          . apply hits it' hit'
        . intro _
          apply hrc' (.inl hrc)
        . rw [List.any_cons, ← Bool.or_assoc, ← hunderflow]
          apply hunderflow'

end Iteration

section Complete

variable {a : Args} {it : Iteration} {t : Transfer}

/-- A transfer as it should be. -/
def Transfer.Fine (eop : Bool) (t : Transfer) : Prop :=
  t.Full ∨ eop = true ∧ t.OfDevice ∧ t.Short

theorem Transfer.Fine.not_failed {eop : Bool} (h : t.Fine eop)
    : ¬ t.Failed := by
  rintro ⟨c, hc⟩
  rcases h with hfull | ⟨-, -, c', hc', -⟩
  . rw [Transfer.Full, hc] at hfull
    contradiction
  . rw [hc] at hc'
    contradiction

theorem Transfer.Ok.cases (h : t.Ok)
    : t.Full ∨ t.Failed ∨ t.Short := by
  have hle := h.within.le
  cases ho : t.outcome with
  | failed c => exact .inr (.inl ⟨c, ho⟩)
  | moved c =>
    rw [ho] at hle
    rcases Nat.lt_or_eq_of_le hle with hlt | heq
    . exact .inr (.inr ⟨c, ho, hlt⟩)
    . left
      rw [Transfer.Full, ho]
      congr

theorem Transfer.Full.count (h : t.Full)
    : t.outcome.count = t.size := by
  rw [h]
  rfl

theorem Iteration.Ok.complete_iff (h : it.Ok a) (eop : Bool)
    : it.Complete a eop
        ↔ (∀ t ∈ it.transfers, t.Fine eop) ∧ (a.ofname = true → ∃ t, it.file = some t) := by
  have hsum := sum_count_eq_iff (fun t ht => (h.device t ht).2)
  rw [h.size] at hsum
  constructor
  . intro hc
    constructor
    . intro t ht
      rcases List.mem_append.mp ht with ht | ht
      . rcases (h.device t ht).2.cases with hfull | hfailed | hshort
        . exact .inl hfull
        . exact absurd hfailed (hc.failed t ht)
        . cases eop with
          | true => exact .inr ⟨rfl, (h.device t ht).1, hshort⟩
          | false =>
            have hcount := hsum.mp (hc.moved rfl) t ht
            rcases hshort with ⟨c, hc, hlt⟩
            rw [hc] at hcount
            simp only [Outcome.count] at hcount
            omega
      . rw [Option.mem_toList] at ht
        obtain ⟨hofname, _, _, hsize⟩ := h.file t ht
        obtain ⟨t', ht', hmoved⟩ := hc.file hofname
        rw [ht] at ht'
        cases ht'
        left
        rw [Transfer.Full, hmoved, hsize hc.failed]
    . intro hofname
      obtain ⟨t, ht, _⟩ := hc.file hofname
      exact ⟨t, ht⟩
  . rintro ⟨hfine, hfile⟩
    have hdevice : ∀ t ∈ it.device, t.Fine eop :=
      fun t ht => hfine t (List.mem_append_left _ ht)
    have hfailed : ∀ t ∈ it.device, ¬ t.Failed := fun t ht => (hdevice t ht).not_failed
    constructor
    . apply hfailed
    . intro heop
      apply hsum.mpr
      intro t ht
      rcases hdevice t ht with hfull | ⟨heop', _⟩
      . apply hfull.count
      . rw [heop] at heop'
        contradiction
    . intro hofname
      obtain ⟨t, ht⟩ := hfile hofname
      refine ⟨t, ht, ?_⟩
      have hplace := (h.file t ht).2.1
      rcases hfine t (List.mem_append_right _ (Option.mem_toList.mpr ht)) with hfull | ⟨_, hdev, _⟩
      . rw [← (h.file t ht).2.2.2 hfailed]
        apply hfull
      . rcases hdev with hdev | hdev <;> rw [hplace] at hdev <;> contradiction

theorem Transfer.Fine.of_output (hplace : t.place = .output) {eop : Bool} (h : t.Fine eop)
    : t.Full := by
  rcases h with hfull | ⟨-, hdevice | hdevice, -⟩
  . apply hfull
  . rw [hplace] at hdevice
    contradiction
  . rw [hplace] at hdevice
    contradiction

theorem Iteration.Ends.not_fine {v : Vars} {underflow : Bool} (h : it.Ends v underflow)
    (hok : it.Ok a) (eop : Bool)
    : ∃ t ∈ it.transfers, ¬ t.Fine eop := by
  cases h with
  | whole t mem place failed file rc =>
    exact ⟨t, List.mem_append_left _ mem, fun hfine => hfine.not_failed failed⟩
  | failed t file failed rc =>
    exact ⟨t, List.mem_append_right _ (Option.mem_toList.mpr file),
      fun hfine => hfine.not_failed failed⟩
  | short t c file whole moved lt rc underflow =>
    refine ⟨t, List.mem_append_right _ (Option.mem_toList.mpr file), ?_⟩
    intro hfine
    have hfull := hfine.of_output (hok.file t file).2.1
    rw [Transfer.Full, moved] at hfull
    cases hfull
    omega

theorem RoundsOk.complete_iff {k : Nat} {v v' : Vars} {its : List Iteration} {exited : Bool}
    (h : RoundsOk a k v v' its exited) (eop : Bool)
    : (its.length = k ∧ ∀ it ∈ its, it.Complete a eop)
        ↔ ∀ t ∈ its.flatMap Iteration.transfers, t.Fine eop := by
  simp only [List.mem_flatMap, forall_exists_index, and_imp]
  constructor
  . rintro ⟨-, hcomplete⟩ t it hit ht
    exact (((h.ok it hit).complete_iff eop).mp (hcomplete it hit)).1 t ht
  . intro hfine
    cases exited with
    | true =>
      obtain ⟨rest, it, hits, _, hends⟩ := h.ends rfl
      have hit : it ∈ its := by simp [hits]
      obtain ⟨t, ht, hnot⟩ := hends.not_fine (h.ok it hit) eop
      exact absurd (hfine t it hit ht) hnot
    | false =>
      obtain ⟨hlength, hstays, _⟩ := h.stays rfl
      refine ⟨hlength, ?_⟩
      intro it hit
      exact ((h.ok it hit).complete_iff eop).mpr ⟨fun t ht => hfine t it hit ht, (hstays it hit).some⟩

end Complete

namespace DmaToDevice

/-- A transfer for which an error is returned. -/
def Reported (t : Transfer) : Prop :=
  t.Failed ∧ t.place ≠ .window ∨ t.OfDevice ∧ t.underflow = true

/-- A transfer that went wrong, and for which none is. -/
def Dropped (t : Transfer) : Prop :=
  t.place = .window ∧ t.Failed ∧ t.underflow = false
    ∨ (t.place = .input ∨ t.place = .output) ∧ t.Short

end DmaToDevice

namespace DmaFromDevice

/-- A write of the output file that was short by so much that what is left of it as an `int` is 0. -/
def Silent (t : Transfer) : Prop :=
  t.place = .output ∧ ∃ c, t.outcome = .moved c ∧ c < t.size ∧ c % 2 ^ 32 = 0

/-- A transfer for which an error, or at least something else than 0, is returned. -/
def Reported (eop : Bool) (t : Transfer) : Prop :=
  t.Failed ∧ t.place ≠ .window
    ∨ (t.place = .output ∧ ∃ c, t.outcome = .moved c ∧ c < t.size ∧ c % 2 ^ 32 ≠ 0)
    ∨ t.OfDevice ∧ t.underflow = true ∧ eop = false

def Dropped (eop : Bool) (t : Transfer) : Prop :=
  t.place = .window ∧ t.Failed ∧ (t.underflow = true → eop = true)

end DmaFromDevice

section Rounds

variable {a : Args} {it : Iteration} {t : Transfer}

theorem Transfer.Short.underflow (h : t.Short)
    : t.underflow = true := by
  rcases h with ⟨c, hc, hlt⟩
  simp [Transfer.underflow, hc, Outcome.unsigned, hlt]

theorem Transfer.Full.not_short (h : t.Full)
    : ¬ t.Short := by
  rintro ⟨c, hc, hlt⟩
  rw [Transfer.Full, hc] at h
  cases h
  omega

theorem Transfer.Full.not_failed (h : t.Full)
    : ¬ t.Failed := by
  rintro ⟨c, hc⟩
  rw [Transfer.Full, hc] at h
  contradiction

theorem Transfer.Short.not_failed (h : t.Short)
    : ¬ t.Failed := by
  rintro ⟨c, hc⟩
  rcases h with ⟨c', hc', _⟩
  rw [hc] at hc'
  contradiction

theorem Transfer.OfDevice.ne_output (h : t.OfDevice)
    : t.place ≠ .output := by
  rcases h with h | h <;> simp [h]

theorem Transfer.Full.underflow (h : t.Full)
    : t.underflow = false := by
  rw [Transfer.underflow, h, Outcome.unsigned]
  simp

theorem Transfer.OfDevice.window (h : t.OfDevice) (hwhole : t.place = .whole → ¬ t.Failed)
    (hfailed : t.Failed)
    : t.place = .window := by
  rcases h with h | h
  . apply h
  . exact absurd hfailed (hwhole h)

theorem Iteration.underflow_iff
    : it.underflow = true ↔ ∃ t ∈ it.device, t.underflow = true := by
  simp [Iteration.underflow]

theorem RoundsOk.transfers_ok {k : Nat} {v v' : Vars} {its : List Iteration} {exited : Bool}
    (h : RoundsOk a k v v' its exited)
    : ∀ t ∈ its.flatMap Iteration.transfers, t.Ok ∧ t.place ≠ .input := by
  intro t ht
  rw [List.mem_flatMap] at ht
  obtain ⟨it, hit, ht⟩ := ht
  rcases List.mem_append.mp ht with ht | ht
  . have hdevice := (h.ok it hit).device t ht
    refine ⟨hdevice.2, ?_⟩
    rcases hdevice.1 with hplace | hplace <;> simp [hplace]
  . have hfile := (h.ok it hit).file t (Option.mem_toList.mp ht)
    exact ⟨hfile.2.2.1, by simp [hfile.2.1]⟩

end Rounds

namespace DmaToDevice

section Rounds

variable {a : Args} {it : Iteration} {t : Transfer}

theorem not_fine_iff (hok : t.Ok)
    : ¬ t.Fine false ↔ Dropped t ∨ Reported t := by
  rcases hok.cases with hfull | hfailed | hshort
  . have hfine : t.Fine false := .inl hfull
    simp [hfine, Dropped, Reported, hfull.not_failed, hfull.not_short, hfull.underflow]
  . have hfine : ¬ t.Fine false := fun h => h.not_failed hfailed
    simp only [hfine, not_false_eq_true, true_iff]
    by_cases hplace : t.place = .window
    . cases hunderflow : t.underflow with
      | true => exact .inr (.inr ⟨.inl hplace, hunderflow⟩)
      | false => exact .inl (.inl ⟨hplace, hfailed, hunderflow⟩)
    . exact .inr (.inl ⟨hfailed, hplace⟩)
  . have hfine : ¬ t.Fine false := by
      rintro (hfull | ⟨heop, _⟩)
      . exact hfull.not_short hshort
      . contradiction
    simp only [hfine, not_false_eq_true, true_iff]
    cases hplace : t.place with
    | input => exact .inl (.inr ⟨.inl hplace, hshort⟩)
    | window => exact .inr (.inr ⟨.inl hplace, hshort.underflow⟩)
    | whole => exact .inr (.inr ⟨.inr hplace, hshort.underflow⟩)
    | output => exact .inl (.inr ⟨.inr hplace, hshort⟩)

theorem reported_iff (hok : it.Ok a) (hwhole : ∀ t ∈ it.device, t.place = .whole → ¬ t.Failed)
    (hfile : ∀ t, it.file = some t → ¬ t.Failed)
    : (∃ t ∈ it.transfers, Reported t) ↔ it.underflow = true := by
  rw [Iteration.underflow_iff]
  constructor
  . rintro ⟨t, ht, hreported⟩
    rcases List.mem_append.mp ht with ht | ht
    . rcases hreported with ⟨hfailed, hne⟩ | ⟨_, hunderflow⟩
      . exact absurd ((hok.device t ht).1.window (hwhole t ht) hfailed) hne
      . exact ⟨t, ht, hunderflow⟩
    . rw [Option.mem_toList] at ht
      rcases hreported with ⟨hfailed, _⟩ | ⟨hdevice, _⟩
      . exact absurd hfailed (hfile t ht)
      . exact absurd (hok.file t ht).2.1 hdevice.ne_output
  . rintro ⟨t, ht, hunderflow⟩
    exact ⟨t, List.mem_append_left _ ht, .inr ⟨(hok.device t ht).1, hunderflow⟩⟩

theorem reported_iff_of_stays (hok : it.Ok a) (hstays : it.Stays a)
    : (∃ t ∈ it.transfers, Reported t) ↔ it.underflow = true :=
  reported_iff hok hstays.whole (fun t ht => (hstays.full t ht).not_failed)

theorem reported_rounds_iff {its : List Iteration}
    (h : ∀ it ∈ its, (∃ t ∈ it.transfers, Reported t) ↔ it.underflow = true)
    : (∃ t ∈ its.flatMap Iteration.transfers, Reported t) ↔ its.any Iteration.underflow = true := by
  simp only [List.mem_flatMap, List.any_eq_true]
  constructor
  . rintro ⟨t, ⟨it, hit, ht⟩, hreported⟩
    exact ⟨it, hit, (h it hit).mp ⟨t, ht, hreported⟩⟩
  . rintro ⟨it, hit, hunderflow⟩
    obtain ⟨t, ht, hreported⟩ := (h it hit).mpr hunderflow
    exact ⟨t, ⟨it, hit, ht⟩, hreported⟩

theorem exitCode_of_nonneg {v : Vars} (hrc : 0 ≤ v.rc)
    : exitCode v = 0 ↔ v.underflow = false := by
  have hneg : ¬ v.rc < 0 := by omega
  cases hunderflow : v.underflow <;> simp [exitCode, hneg, hunderflow, eio]

theorem exitCode_of_eio {v : Vars} (hrc : v.rc = -eio)
    : exitCode v ≠ 0 := by
  have hneg : -eio < 0 := by decide
  rw [exitCode, hrc, if_pos hneg]
  decide

theorem exitCode_iff {k : Nat} {v v' : Vars} {its : List Iteration} {exited : Bool}
    (h : RoundsOk a k v v' its exited) (hrc : 0 ≤ v.rc ∨ 0 < k) (hunderflow : v.underflow = false)
    : exitCode v' = 0 ↔ ¬ ∃ t ∈ its.flatMap Iteration.transfers, Reported t := by
  cases exited with
  | false =>
    obtain ⟨_, hstays, hrc', hflow⟩ := h.stays rfl
    rw [exitCode_of_nonneg (hrc' hrc),
      reported_rounds_iff (fun it hit => reported_iff_of_stays (h.ok it hit) (hstays it hit)), hflow,
      hunderflow, Bool.false_or, Bool.not_eq_true]
  | true =>
    obtain ⟨rest, it, hits, hrest, hends⟩ := h.ends rfl
    have hit : it ∈ its := by simp [hits]
    have hmem (t : Transfer) (ht : t ∈ it.transfers) (hreported : Reported t)
        : ¬ ¬ ∃ t ∈ its.flatMap Iteration.transfers, Reported t :=
      not_not_intro ⟨t, List.mem_flatMap.mpr ⟨it, hit, ht⟩, hreported⟩
    cases hends with
    | whole t mem place failed file rc =>
      refine iff_of_false (exitCode_of_eio rc) (hmem t (List.mem_append_left _ mem) ?_)
      exact .inl ⟨failed, by simp [place]⟩
    | failed t file failed rc =>
      refine iff_of_false (exitCode_of_eio rc)
        (hmem t (List.mem_append_right _ (Option.mem_toList.mpr file)) ?_)
      exact .inl ⟨failed, by simp [((h.ok it hit).file t file).2.1]⟩
    | short t c file whole moved lt rc underflow =>
      have hreport : ∀ it' ∈ its, (∃ t ∈ it'.transfers, Reported t) ↔ it'.underflow = true := by
        intro it' hit'
        rw [hits] at hit'
        rcases List.mem_append.mp hit' with hit' | hit'
        . apply reported_iff_of_stays (h.ok it' (by simp [hits, hit'])) (hrest it' hit')
        . rw [List.mem_singleton.mp hit']
          apply reported_iff (h.ok it hit) whole
          intro t' ht'
          rw [file] at ht'
          cases ht'
          exact Transfer.Short.not_failed ⟨c, moved, lt⟩
      rw [exitCode_of_nonneg (by omega), reported_rounds_iff hreport, underflow, hunderflow, hits,
        List.any_append]
      simp

theorem rounds_iff {k : Nat} {v v' : Vars} {its : List Iteration} {exited : Bool}
    (h : RoundsOk a k v v' its exited) (hrc : 0 ≤ v.rc ∨ 0 < k) (hunderflow : v.underflow = false)
    : (exitCode v' = 0 → its.length = k ∧ ∀ it ∈ its, it.Complete a false)
        ↔ ((∃ t ∈ its.flatMap Iteration.transfers, Dropped t) →
          ∃ t ∈ its.flatMap Iteration.transfers, Reported t) := by
  rw [exitCode_iff h hrc hunderflow, h.complete_iff]
  constructor
  . intro himp ⟨t, ht, hdropped⟩
    by_contra hnone
    exact (not_fine_iff (h.transfers_ok t ht).1).mpr (.inl hdropped) (himp hnone t ht)
  . intro himp hnone t ht
    by_contra hfine
    rcases (not_fine_iff (h.transfers_ok t ht).1).mp hfine with hdropped | hreported
    . exact hnone (himp ⟨t, ht, hdropped⟩)
    . exact hnone ⟨t, ht, hreported⟩

end Rounds

/-- What 0 is claimed to say. -/
def ZeroSound (env : Env) (a : Args) : Prop :=
  (testDma env a).ret = 0 → (testDma env a).Complete a a.infname false

/-- Whatever is dropped, something else is reported. -/
def NothingLost (env : Env) (a : Args) : Prop :=
  (∃ t ∈ (testDma env a).transfers, Dropped t) → ∃ t ∈ (testDma env a).transfers, Reported t

section TestDma

variable (env : Env) (a : Args)

theorem zeroSound_of_error {env : Env} {a : Args} (ret : Int) (h : testDma env a = ⟨ret, none, []⟩)
    (hret : ret ≠ 0)
    : ZeroSound env a ↔ NothingLost env a := by
  simp [ZeroSound, NothingLost, h, hret, Result.transfers]

theorem rounds_iff_any (v : Vars) (hunderflow : v.underflow = false)
    : (exitCode (iterations env a .toDevice a.count.toNat v).1 = 0 →
          (iterations env a .toDevice a.count.toNat v).2.1.length = a.count.toNat
            ∧ ∀ it ∈ (iterations env a .toDevice a.count.toNat v).2.1, it.Complete a false)
        ↔ ((∃ t ∈ (iterations env a .toDevice a.count.toNat v).2.1.flatMap Iteration.transfers, Dropped t) →
          ∃ t ∈ (iterations env a .toDevice a.count.toNat v).2.1.flatMap Iteration.transfers,
            Reported t) := by
  have hok := iterations_ok env a .toDevice a.count.toNat v
  cases hcount : a.count.toNat with
  | zero => simp [iterations]
  | succ k =>
    rw [← hcount]
    apply rounds_iff hok (.inr (by omega)) hunderflow

theorem zeroSound_of_rounds (hinfname : a.infname = false) (v : Vars) (hunderflow : v.underflow = false)
    (h : testDma env a = ⟨exitCode (iterations env a .toDevice a.count.toNat v).1, none,
      (iterations env a .toDevice a.count.toNat v).2.1⟩)
    : ZeroSound env a ↔ NothingLost env a := by
  have hrounds := rounds_iff_any env a v hunderflow
  rw [ZeroSound, NothingLost, h]
  simp only [Result.transfers, Option.toList_none, List.nil_append]
  rw [← hrounds]
  constructor
  . intro hsound hret
    exact ⟨(hsound hret).count, (hsound hret).iterations⟩
  . intro himp hret
    refine ⟨?_, (himp hret).1, (himp hret).2⟩
    rw [hinfname]
    intro hin
    contradiction

theorem zeroSound_of_input (v : Vars) (hunderflow : v.underflow = false) {input : Transfer}
    (hplace : input.place = .input) (hsize : input.size = a.size.toNat) (hfull : input.Full)
    (h : testDma env a = ⟨exitCode (iterations env a .toDevice a.count.toNat v).1, some input,
      (iterations env a .toDevice a.count.toNat v).2.1⟩)
    : ZeroSound env a ↔ NothingLost env a := by
  have hrounds := rounds_iff_any env a v hunderflow
  have hdropped : ¬ Dropped input := by
    simp [Dropped, hplace, hfull.not_short]
  have hreported : ¬ Reported input := by
    simp [Reported, hfull.not_failed, hfull.underflow]
  rw [ZeroSound, NothingLost, h]
  simp only [Result.transfers, Option.toList_some, List.mem_append, List.mem_singleton, or_and_right,
    exists_or, exists_eq_left, hdropped, hreported, false_or]
  rw [← hrounds]
  constructor
  . intro hsound hret
    exact ⟨(hsound hret).count, (hsound hret).iterations⟩
  . intro himp hret
    refine ⟨?_, (himp hret).1, (himp hret).2⟩
    intro _
    refine ⟨input, rfl, ?_⟩
    rw [← hsize]
    apply hfull

theorem zeroSound_of_no_input (hinfname : a.infname = true) {v : Vars} {input : Transfer}
    (hunderflow : v.underflow = false) (hplace : input.place = .input)
    (hsize : input.size = a.size.toNat) (hok : input.Ok) (hrc : v.rc = input.outcome.rc)
    (hnot : ¬ input.Full) (h : testDma env a = ⟨exitCode v, some input, []⟩)
    : ZeroSound env a ↔ NothingLost env a := by
  rw [ZeroSound, NothingLost, h]
  simp only [Result.transfers, Option.toList_some, List.flatMap_nil, List.append_nil,
    List.mem_singleton, exists_eq_left]
  rcases hok.cases with hfull | hfailed | hshort
  . contradiction
  . have hreported : Reported input := .inl ⟨hfailed, by simp [hplace]⟩
    rcases hfailed with ⟨c, hc⟩
    rw [hc] at hrc
    have hret := exitCode_of_eio hrc
    simp [hret, hreported]
  . have hdropped : Dropped input := .inr ⟨.inl hplace, hshort⟩
    have hreported : ¬ Reported input := by
      simp [Reported, hshort.not_failed, Transfer.OfDevice, hplace]
    have hret : exitCode v = 0 := by
      rcases hshort with ⟨c, hc, _⟩
      have hwithin := hok.within
      rw [hc] at hwithin hrc
      rw [hwithin.rc_moved] at hrc
      rw [exitCode_of_nonneg (by omega)]
      apply hunderflow
    simp only [hret, hdropped, hreported, forall_const, iff_false]
    intro hcomplete
    obtain ⟨t, ht, hmoved⟩ := hcomplete.input hinfname
    cases ht
    apply hnot
    rw [Transfer.Full, hmoved, hsize]

theorem zeroSound_iff
    : ZeroSound env a ↔ NothingLost env a := by
  by_cases hdevice : env.openDevice = true
  case neg =>
    apply zeroSound_of_error (-einval)
    . simp [testDma, hdevice]
    . decide
  by_cases hin : (a.infname && !env.openIn) = true
  case pos =>
    apply zeroSound_of_error (-einval)
    . simp [testDma, hdevice, hin]
    . decide
  by_cases hout : (a.ofname && !env.openOut) = true
  case pos =>
    apply zeroSound_of_error (-einval)
    . simp only [testDma, hdevice, hin, hout]
      rfl
    . decide
  by_cases halloc : env.alloc = true
  case neg =>
    apply zeroSound_of_error (-enomem)
    . simp only [testDma, hdevice, hin, hout, halloc]
      rfl
    . decide
  cases hinfname : a.infname with
  | false =>
    apply zeroSound_of_rounds env a hinfname ⟨0, env.rc, 0, false, 0⟩ rfl
    simp only [testDma, hdevice, hout, halloc, hinfname]
    rfl
  | true =>
    have hwithin := readToBuffer_within env.calls .infile 0 a.offset a.size 0
    generalize hr : readToBuffer env.calls .infile 0 a.offset a.size 0 = r at hwithin
    have hok : Transfer.Ok ⟨.input, a.size.toNat, r.1⟩ := ⟨hwithin, a.size.isLt⟩
    by_cases hfull : Transfer.Full ⟨.input, a.size.toNat, r.1⟩
    . have hcheck : ¬ (r.1.rc < 0 ∨ BitVec.ofInt 64 r.1.rc < a.size) := by
        rw [hwithin.rc_neg_iff, BitVec.lt_def, hwithin.toNat_rc, show r.1 = _ from hfull]
        simp [Outcome.unsigned]
      apply zeroSound_of_input env a ⟨r.2, r.1.rc, 0, false, 0⟩ rfl rfl rfl hfull
      simp only [hinfname, Bool.true_and] at hin
      simp only [testDma, hdevice, hin, hout, halloc, hinfname, hr, hcheck, Bool.true_and]
      rfl
    . have hcheck : r.1.rc < 0 ∨ BitVec.ofInt 64 r.1.rc < a.size := by
        rw [hwithin.rc_neg_iff, BitVec.lt_def, hwithin.toNat_rc]
        rcases hok.cases with hfull' | hfailed | ⟨c, hc, hlt⟩
        . contradiction
        . exact .inl hfailed
        . right
          rw [show r.1 = _ from hc]
          apply hlt
      apply zeroSound_of_no_input env a hinfname (v := ⟨r.2, r.1.rc, 0, false, 0⟩) rfl rfl rfl hok rfl
        hfull
      simp only [hinfname, Bool.true_and] at hin
      simp only [testDma, hdevice, hin, hout, halloc, hinfname, hr, hcheck, Bool.true_and]
      rfl

end TestDma

end DmaToDevice

namespace DmaFromDevice

/-- What 0 is claimed to say. -/
def ZeroSound (env : Env) (a : Args) : Prop :=
  (testDma env a).ret = 0 → (testDma env a).Complete a false a.eopFlush

/-- No short write of the output file ends the run with 0, and what is dropped is not alone. -/
def NothingLost (env : Env) (a : Args) : Prop :=
  (¬ ∃ t ∈ (testDma env a).transfers, Silent t)
    ∧ ((∃ t ∈ (testDma env a).transfers, Dropped a.eopFlush t) →
      ∃ t ∈ (testDma env a).transfers, Reported a.eopFlush t)

section TestDma

variable {env : Env} {a : Args} {t : Transfer} {it : Iteration}

theorem Silent.short (h : Silent t)
    : t.Short := by
  obtain ⟨_, c, hc, hlt, _⟩ := h
  exact ⟨c, hc, hlt⟩

theorem not_reported_of_full {eop : Bool} (h : t.Full)
    : ¬ Reported eop t := by
  rintro (⟨hfailed, _⟩ | ⟨_, c, hc, hlt, _⟩ | ⟨_, hunderflow, _⟩)
  . exact h.not_failed hfailed
  . exact h.not_short ⟨c, hc, hlt⟩
  . rw [h.underflow] at hunderflow
    contradiction

theorem silent_or_reported (eop : Bool) (hplace : t.place = .output) (hshort : t.Short)
    : Silent t ∨ Reported eop t := by
  rcases hshort with ⟨c, hc, hlt⟩
  by_cases hzero : c % 2 ^ 32 = 0
  . exact .inl ⟨hplace, c, hc, hlt, hzero⟩
  . exact .inr (.inr (.inl ⟨hplace, c, hc, hlt, hzero⟩))

theorem not_fine_iff (eop : Bool) (hok : t.Ok) (hplace : t.place ≠ .input)
    : ¬ t.Fine eop ↔ Silent t ∨ Dropped eop t ∨ Reported eop t := by
  rcases hok.cases with hfull | hfailed | hshort
  . have hfine : t.Fine eop := .inl hfull
    have hsilent : ¬ Silent t := fun h => hfull.not_short h.short
    simp [hfine, hsilent, Dropped, hfull.not_failed, not_reported_of_full hfull]
  . have hfine : ¬ t.Fine eop := fun h => h.not_failed hfailed
    simp only [hfine, not_false_eq_true, true_iff]
    by_cases hwindow : t.place = .window
    . by_cases hflow : t.underflow = true ∧ eop = false
      . exact .inr (.inr (.inr (.inr ⟨.inl hwindow, hflow⟩)))
      . refine .inr (.inl ⟨hwindow, hfailed, ?_⟩)
        intro hunderflow
        simpa [hunderflow] using hflow
    . exact .inr (.inr (.inl ⟨hfailed, hwindow⟩))
  . by_cases houtput : t.place = .output
    . have hfine : ¬ t.Fine eop := fun h => (h.of_output houtput).not_short hshort
      simp only [hfine, not_false_eq_true, true_iff]
      rcases silent_or_reported eop houtput hshort with h | h
      . exact .inl h
      . exact .inr (.inr h)
    . have hdevice : t.OfDevice := by
        cases hp : t.place with
        | input => contradiction
        | window => exact .inl hp
        | whole => exact .inr hp
        | output => contradiction
      have hsilent : ¬ Silent t := fun h => houtput h.1
      cases eop with
      | true =>
        have hfine : t.Fine true := .inr ⟨rfl, hdevice, hshort⟩
        simp [hfine, hsilent, Dropped, Reported, hshort.not_failed, houtput]
      | false =>
        have hfine : ¬ t.Fine false := by
          rintro (hfull | ⟨heop, _⟩)
          . exact hfull.not_short hshort
          . contradiction
        simp only [hfine, not_false_eq_true, true_iff]
        exact .inr (.inr (.inr (.inr ⟨hdevice, hshort.underflow, rfl⟩)))

theorem reported_iff_of_stays {eop : Bool} (hok : it.Ok a) (hstays : it.Stays a)
    : (∃ t ∈ it.transfers, Reported eop t) ↔ it.underflow = true ∧ eop = false := by
  rw [Iteration.underflow_iff]
  constructor
  . rintro ⟨t, ht, hreported⟩
    rcases List.mem_append.mp ht with ht | ht
    . have hdevice := (hok.device t ht).1
      rcases hreported with ⟨hfailed, hne⟩ | ⟨hplace, _⟩ | ⟨_, hunderflow, heop⟩
      . exact absurd (hdevice.window (hstays.whole t ht) hfailed) hne
      . exact absurd hplace hdevice.ne_output
      . exact ⟨⟨t, ht, hunderflow⟩, heop⟩
    . exact absurd hreported (not_reported_of_full (hstays.full t (Option.mem_toList.mp ht)))
  . rintro ⟨⟨t, ht, hunderflow⟩, heop⟩
    exact ⟨t, List.mem_append_left _ ht, .inr (.inr ⟨(hok.device t ht).1, hunderflow, heop⟩)⟩

theorem not_silent_of_stays (hok : it.Ok a) (hstays : it.Stays a)
    : ∀ t ∈ it.transfers, ¬ Silent t := by
  intro t ht hsilent
  rcases List.mem_append.mp ht with ht | ht
  . exact (hok.device t ht).1.ne_output hsilent.1
  . exact (hstays.full t (Option.mem_toList.mp ht)).not_short hsilent.short

theorem toInt32_eq_zero_iff (c : Nat)
    : toInt32 c = 0 ↔ c % 2 ^ 32 = 0 := by
  rw [toInt32, BitVec.toInt_ofInt, Int.bmod_def]
  omega

/-- What `test_dma()` returns after the rounds. -/
def exitCode (v : Vars) (exited eop : Bool) : Int :=
  if exited then toInt32 v.rc else if !v.underflow || eop then 0 else -eio

theorem exitCode_of_stays {k : Nat} {v v' : Vars} {its : List Iteration} (eop : Bool)
    (h : RoundsOk a k v v' its false) (hunderflow : v.underflow = false)
    : (¬ ∃ t ∈ its.flatMap Iteration.transfers, Silent t)
        ∧ (exitCode v' false eop = 0 ↔ ¬ ∃ t ∈ its.flatMap Iteration.transfers, Reported eop t) := by
  obtain ⟨_, hstays, _, hflow⟩ := h.stays rfl
  simp only [List.mem_flatMap]
  constructor
  . rintro ⟨t, ⟨it, hit, ht⟩, hsilent⟩
    exact not_silent_of_stays (h.ok it hit) (hstays it hit) t ht hsilent
  . rw [hunderflow, Bool.false_or] at hflow
    have hreport : (∃ t, (∃ it ∈ its, t ∈ it.transfers) ∧ Reported eop t)
        ↔ v'.underflow = true ∧ eop = false := by
      rw [hflow, List.any_eq_true]
      constructor
      . rintro ⟨t, ⟨it, hit, ht⟩, hreported⟩
        have hround := (reported_iff_of_stays (h.ok it hit) (hstays it hit)).mp ⟨t, ht, hreported⟩
        exact ⟨⟨it, hit, hround.1⟩, hround.2⟩
      . rintro ⟨⟨it, hit, hround⟩, heop⟩
        obtain ⟨t, ht, hreported⟩ :=
          (reported_iff_of_stays (h.ok it hit) (hstays it hit)).mpr ⟨hround, heop⟩
        exact ⟨t, ⟨it, hit, ht⟩, hreported⟩
    rw [hreport]
    cases hu : v'.underflow <;> cases eop <;> simp [exitCode, eio, hu]

theorem exitCode_of_ends {v : Vars} {underflow : Bool} (eop : Bool) (hok : it.Ok a)
    (h : it.Ends v underflow)
    : ((∃ t ∈ it.transfers, Silent t) ↔ exitCode v true eop = 0)
        ∧ (exitCode v true eop ≠ 0 → ∃ t ∈ it.transfers, Reported eop t) := by
  have hdevice : ∀ t ∈ it.device, ¬ Silent t :=
    fun t ht hsilent => (hok.device t ht).1.ne_output hsilent.1
  have herror (hrc : v.rc = -eio) : exitCode v true eop ≠ 0 := by
    rw [exitCode, hrc, if_pos rfl]
    decide
  cases h with
  | whole t mem place failed file rc =>
    constructor
    . refine iff_of_false ?_ (herror rc)
      rintro ⟨t, ht, hsilent⟩
      rw [Iteration.transfers, file] at ht
      exact hdevice t (by simpa using ht) hsilent
    . intro _
      exact ⟨t, List.mem_append_left _ mem, .inl ⟨failed, by simp [place]⟩⟩
  | failed t file failed rc =>
    have hplace := (hok.file t file).2.1
    constructor
    . refine iff_of_false ?_ (herror rc)
      rintro ⟨t', ht', hsilent⟩
      rcases List.mem_append.mp ht' with ht' | ht'
      . exact hdevice t' ht' hsilent
      . rw [Option.mem_toList, file] at ht'
        cases ht'
        exact hsilent.short.not_failed failed
    . intro _
      exact ⟨t, List.mem_append_right _ (Option.mem_toList.mpr file), .inl ⟨failed, by simp [hplace]⟩⟩
  | short t c file whole moved lt rc underflow =>
    have hplace := (hok.file t file).2.1
    have hret : exitCode v true eop = 0 ↔ c % 2 ^ 32 = 0 := by
      rw [exitCode, rc, if_pos rfl, toInt32_eq_zero_iff]
    rw [ne_eq, hret]
    constructor
    . constructor
      . rintro ⟨t', ht', hsilent⟩
        rcases List.mem_append.mp ht' with ht' | ht'
        . exact absurd hsilent (hdevice t' ht')
        . rw [Option.mem_toList, file] at ht'
          cases ht'
          obtain ⟨_, c', hc', _, hzero⟩ := hsilent
          rw [moved] at hc'
          cases hc'
          apply hzero
      . intro hzero
        exact ⟨t, List.mem_append_right _ (Option.mem_toList.mpr file), hplace, c, moved, lt, hzero⟩
    . intro hzero
      exact ⟨t, List.mem_append_right _ (Option.mem_toList.mpr file),
        .inr (.inl ⟨hplace, c, moved, lt, hzero⟩)⟩

theorem exitCode_rounds {k : Nat} {v v' : Vars} {its : List Iteration} {exited : Bool} (eop : Bool)
    (h : RoundsOk a k v v' its exited) (hunderflow : v.underflow = false)
    : ((∃ t ∈ its.flatMap Iteration.transfers, Silent t) → exitCode v' exited eop = 0)
        ∧ ((¬ ∃ t ∈ its.flatMap Iteration.transfers, Silent t) →
          (exitCode v' exited eop = 0 ↔ ¬ ∃ t ∈ its.flatMap Iteration.transfers, Reported eop t)) := by
  cases exited with
  | false =>
    obtain ⟨hsilent, hret⟩ := exitCode_of_stays eop h hunderflow
    exact ⟨fun h => absurd h hsilent, fun _ => hret⟩
  | true =>
    obtain ⟨rest, it, hits, hrest, hends⟩ := h.ends rfl
    have hit : it ∈ its := by simp [hits]
    obtain ⟨hsilent, hreported⟩ := exitCode_of_ends eop (h.ok it hit) hends
    simp only [List.mem_flatMap]
    constructor
    . rintro ⟨t, ⟨it', hit', ht⟩, hs⟩
      apply hsilent.mp
      rw [hits] at hit'
      rcases List.mem_append.mp hit' with hit' | hit'
      . exact absurd hs (not_silent_of_stays (h.ok it' (by simp [hits, hit'])) (hrest it' hit') t ht)
      . rw [List.mem_singleton.mp hit'] at ht
        exact ⟨t, ht, hs⟩
    . intro hnone
      have hret : exitCode v' true eop ≠ 0 := by
        intro hzero
        obtain ⟨t, ht, hs⟩ := hsilent.mpr hzero
        exact hnone ⟨t, ⟨it, hit, ht⟩, hs⟩
      obtain ⟨t, ht, hr⟩ := hreported hret
      exact iff_of_false hret (not_not_intro ⟨t, ⟨it, hit, ht⟩, hr⟩)

theorem rounds_iff {k : Nat} {v v' : Vars} {its : List Iteration} {exited : Bool} (eop : Bool)
    (h : RoundsOk a k v v' its exited) (hunderflow : v.underflow = false)
    : (exitCode v' exited eop = 0 → its.length = k ∧ ∀ it ∈ its, it.Complete a eop)
        ↔ (¬ ∃ t ∈ its.flatMap Iteration.transfers, Silent t)
          ∧ ((∃ t ∈ its.flatMap Iteration.transfers, Dropped eop t) →
            ∃ t ∈ its.flatMap Iteration.transfers, Reported eop t) := by
  obtain ⟨hsilent, hret⟩ := exitCode_rounds eop h hunderflow
  have hfine (t : Transfer) (ht : t ∈ its.flatMap Iteration.transfers) :=
    not_fine_iff eop (h.transfers_ok t ht).1 (h.transfers_ok t ht).2
  rw [h.complete_iff]
  constructor
  . intro himp
    have hnone : ¬ ∃ t ∈ its.flatMap Iteration.transfers, Silent t := by
      rintro ⟨t, ht, hs⟩
      exact (hfine t ht).mpr (.inl hs) (himp (hsilent ⟨t, ht, hs⟩) t ht)
    refine ⟨hnone, ?_⟩
    rintro ⟨t, ht, hdropped⟩
    by_contra hreported
    exact (hfine t ht).mpr (.inr (.inl hdropped)) (himp ((hret hnone).mpr hreported) t ht)
  . rintro ⟨hnone, himp⟩ hzero t ht
    have hreported := (hret hnone).mp hzero
    by_contra hnot
    rcases (hfine t ht).mp hnot with hs | hd | hr
    . exact hnone ⟨t, ht, hs⟩
    . exact hreported (himp ⟨t, ht, hd⟩)
    . exact hreported ⟨t, ht, hr⟩

end TestDma

section TestDma

variable (env : Env) (a : Args)

theorem zeroSound_of_error {env : Env} {a : Args} (ret : Int) (h : testDma env a = ⟨ret, none, []⟩)
    (hret : ret ≠ 0)
    : ZeroSound env a ↔ NothingLost env a := by
  simp [ZeroSound, NothingLost, h, hret, Result.transfers]

theorem zeroSound_iff
    : ZeroSound env a ↔ NothingLost env a := by
  by_cases hdevice : env.openDevice = true
  case neg =>
    apply zeroSound_of_error (-einval)
    . simp [testDma, hdevice]
    . decide
  by_cases hout : (a.ofname && !env.openOut) = true
  case pos =>
    apply zeroSound_of_error (-einval)
    . simp [testDma, hdevice, hout]
    . decide
  by_cases halloc : env.alloc = true
  case neg =>
    apply zeroSound_of_error (-enomem)
    . simp only [testDma, hdevice, hout, halloc]
      rfl
    . decide
  have hok := iterations_ok env a .fromDevice a.count.toNat ⟨0, 0, 0, false, 0⟩
  have hrounds := rounds_iff a.eopFlush hok rfl
  have h : testDma env a
      = ⟨exitCode (iterations env a .fromDevice a.count.toNat ⟨0, 0, 0, false, 0⟩).1
          (iterations env a .fromDevice a.count.toNat ⟨0, 0, 0, false, 0⟩).2.2 a.eopFlush, none,
        (iterations env a .fromDevice a.count.toNat ⟨0, 0, 0, false, 0⟩).2.1⟩ := by
    rw [testDma, if_neg (by simp [hdevice]), if_neg hout, if_neg (by simp [halloc])]
    obtain ⟨v, its, exited⟩ := iterations env a .fromDevice a.count.toNat ⟨0, 0, 0, false, 0⟩
    cases exited <;> rfl
  rw [ZeroSound, NothingLost, h]
  simp only [Result.transfers, Option.toList_none, List.nil_append]
  rw [← hrounds]
  constructor
  . intro hsound hret
    exact ⟨(hsound hret).count, (hsound hret).iterations⟩
  . intro himp hret
    refine ⟨?_, (himp hret).1, (himp hret).2⟩
    intro hin
    contradiction

end TestDma

end DmaFromDevice

/--
What 0 says of either tool is true exactly if no transfer that goes wrong is lost in the variable `rc`
of the aperture loop or in the return value, unless another one is reported.
-/
theorem testDma_zeroSound_iff (env : Env) (a : Args)
    : (DmaToDevice.ZeroSound env a ↔ DmaToDevice.NothingLost env a)
        ∧ (DmaFromDevice.ZeroSound env a ↔ DmaFromDevice.NothingLost env a) :=
  ⟨DmaToDevice.zeroSound_iff env a, DmaFromDevice.zeroSound_iff env a⟩

/-- Every read and every write fails. -/
def failingCalls : Calls where
  result
    | _, .lseek _ offset => offset.toInt
    | _, .read _ _ pos _ => -1 - pos
    | _, .write _ _ pos _ => -1 - pos
  read_le n fd buf pos bytes := by
    change -1 - (pos : Int) ≤ bytes ∧ pos + (-1 - (pos : Int)) < 2 ^ 63
    omega
  write_le n fd buf pos bytes := by
    change -1 - (pos : Int) ≤ bytes ∧ pos + (-1 - (pos : Int)) < 2 ^ 63
    omega

/-- 16 bytes through a window of 16 bytes. -/
def windowArgs : Args := ⟨0, 16, 16, 0, 1, false, false, false⟩

theorem transferLoop_failing (fd : Fd) (buf : BitVec 64)
    : transferLoop failingCalls fd (.write fd buf) 16 0 0 0#64 = (.failed 0, 1)
        ∧ transferLoop failingCalls fd (.read fd buf) 16 0 0 0#64 = (.failed 0, 1) := by
  constructor
  . unfold transferLoop
    simp [failingCalls]
  . unfold transferLoop
    simp [failingCalls]

theorem testDma_failing
    : DmaToDevice.testDma ⟨failingCalls, true, true, true, true, 0⟩ windowArgs
          = ⟨0, none, [⟨[⟨.window, 16, .failed 0⟩], none⟩]⟩
        ∧ DmaFromDevice.testDma ⟨failingCalls, true, true, true, true, 0⟩ windowArgs
          = ⟨0, none, [⟨[⟨.window, 16, .failed 0⟩], none⟩]⟩ := by
  constructor
  . simp [DmaToDevice.testDma, windowArgs, iterations, iteration, deviceTransfers, Args.aptLoop,
      windows, Tool.transfer, writeFromBuffer, transferLoop_failing, Tool.clockEnd,
      DmaToDevice.exitCode, Outcome.rc, eio]
  . simp [DmaFromDevice.testDma, windowArgs, iterations, iteration, deviceTransfers, Args.aptLoop,
      windows, Tool.transfer, readToBuffer, transferLoop_failing, Tool.clockEnd, Outcome.rc, eio]

/-- Either tool returns 0 after its only transfer failed. -/
theorem not_zeroSound_failing
    : ¬ DmaToDevice.ZeroSound ⟨failingCalls, true, true, true, true, 0⟩ windowArgs
        ∧ ¬ DmaFromDevice.ZeroSound ⟨failingCalls, true, true, true, true, 0⟩ windowArgs := by
  constructor
  . intro h
    rw [DmaToDevice.ZeroSound, testDma_failing.1] at h
    exact ((h rfl).iterations _ List.mem_cons_self).failed _ List.mem_cons_self ⟨0, rfl⟩
  . intro h
    rw [DmaFromDevice.ZeroSound, testDma_failing.2] at h
    exact ((h rfl).iterations _ List.mem_cons_self).failed _ List.mem_cons_self ⟨0, rfl⟩

end Tools
