import ReferenceProjects.Xdma.Device

/-!
This module contains that the engines of all devices and the completion threads fit together in poll mode: an
engine is on a thread that exists exactly while its device is open.
-/

namespace Xdma

section Kthreads

variable {k : Kthreads}

theorem xdmaThreadAddWork_cmplthp (k : Kthreads) (n m : Nat)
    : (xdmaThreadAddWork k n).cmplthp m = if m = n then some (addWorkIdx k) else k.cmplthp m := by
  unfold xdmaThreadAddWork Kthreads.setThp
  dsimp only
  rw [Function.update_apply]

theorem xdmaThreadRemoveWork_cmplthp (k : Kthreads) (n m : Nat)
    : (xdmaThreadRemoveWork k n).cmplthp m = if m = n then none else k.cmplthp m := by
  unfold xdmaThreadRemoveWork Kthreads.setThp
  dsimp only
  split <;> exact Function.update_apply k.cmplthp n none m

theorem xdmaThreadRemoveWork_threadCnt (k : Kthreads) (n : Nat)
    : (xdmaThreadRemoveWork k n).threadCnt = k.threadCnt := by
  unfold xdmaThreadRemoveWork Kthreads.setThp
  dsimp only
  split <;> rfl

/-- The threads are there for the engines that are attached. -/
structure Carried (k : Kthreads) : Prop extends Counted k where
  bound : ∀ n i, k.cmplthp n = some i → i < k.threadCnt

/-- Engines that were not attached are, each to a thread that exists. -/
theorem Carried.addAll (h : Carried k) (hpos : 0 < k.threadCnt) {ns : List Nat} (hnodup : ns.Nodup)
    (hnew : ∀ n ∈ ns, k.cmplthp n = none)
    : let k' := ns.foldl xdmaThreadAddWork k
      Carried k' ∧ k'.threadCnt = k.threadCnt ∧ ∀ n, k'.cmplthp n ≠ none ↔ k.cmplthp n ≠ none ∨ n ∈ ns := by
  induction ns generalizing k with
  | nil => exact ⟨h, rfl, fun n => by simp⟩
  | cons n ns ih =>
    rw [List.nodup_cons] at hnodup
    rw [List.forall_mem_cons] at hnew
    have hcmplthp := xdmaThreadAddWork_cmplthp k n
    have hidx : addWorkIdx k < k.threadCnt := (addWorkIdx_least_iff hpos).1
    have hcarried : Carried (xdmaThreadAddWork k n) := by
      refine ⟨h.toCounted.addWork hnew.1, ?_⟩
      intro m i hm
      rw [hcmplthp] at hm
      split at hm
      . rw [Option.some.injEq] at hm
        rw [← hm]
        exact hidx
      . exact h.bound m i hm
    have hrest : ∀ m ∈ ns, (xdmaThreadAddWork k n).cmplthp m = none := by
      intro m hm
      have hne : m ≠ n := fun heq => hnodup.1 (heq ▸ hm)
      rw [hcmplthp, if_neg hne]
      exact hnew.2 m hm
    obtain ⟨hcarried', hcnt, hmem⟩ := ih hcarried hpos hnodup.2 hrest
    refine ⟨hcarried', hcnt, ?_⟩
    intro m
    rw [List.foldl_cons, hmem, hcmplthp, List.mem_cons]
    by_cases heq : m = n
    . simp [heq]
    . simp [heq]

/-- Engines that are detached are on no thread, and the other ones stay where they are. -/
theorem Carried.removeAll (h : Carried k) (ns : List Nat)
    : let k' := ns.foldl xdmaThreadRemoveWork k
      Carried k' ∧ k'.threadCnt = k.threadCnt ∧ ∀ n, k'.cmplthp n ≠ none ↔ k.cmplthp n ≠ none ∧ n ∉ ns := by
  induction ns generalizing k with
  | nil => exact ⟨h, rfl, fun n => by simp⟩
  | cons n ns ih =>
    have hcmplthp := xdmaThreadRemoveWork_cmplthp k n
    have hthreads := xdmaThreadRemoveWork_threadCnt k n
    have hcarried : Carried (xdmaThreadRemoveWork k n) := by
      refine ⟨h.toCounted.removeWork n, ?_⟩
      intro m i hm
      rw [hcmplthp] at hm
      rw [hthreads]
      split at hm
      . contradiction
      . exact h.bound m i hm
    obtain ⟨hcarried', hcnt, hmem⟩ := ih hcarried
    refine ⟨hcarried', hcnt.trans hthreads, ?_⟩
    intro m
    rw [List.foldl_cons, hmem, hcmplthp, List.mem_cons]
    by_cases heq : m = n
    . simp [heq]
    . simp [heq]

/-- No engine is attached to threads that are created. -/
theorem idle_of_none (h : ∀ n, k.cmplthp n = none) (numThreads : Nat)
    : Idle { k with csThreads := some numThreads, thp := fun _ => .zero } :=
  ⟨fun _ => rfl, fun _ => rfl, h⟩

/-- A creation ends with an error and no thread, or goes on to have one more for each processor. -/
theorem threadsCreateLoop_threadCnt (numThreads : Nat) (created : Nat → Bool) (cpus : List Nat) (i : Nat)
    (k : Kthreads)
    : let r := threadsCreateLoop numThreads created cpus i k
      (r.2 < 0 ∧ r.1.threadCnt = 0)
        ∨ (r.2 = 0 ∧ k.threadCnt ≤ r.1.threadCnt ∧ (cpus ≠ [] → k.threadCnt < r.1.threadCnt)) := by
  induction cpus generalizing i k with
  | nil =>
    right
    exact ⟨rfl, Nat.le_refl _, fun h => absurd rfl h⟩
  | cons cpu cpus ih =>
    unfold threadsCreateLoop
    dsimp only
    split
    . next hrv =>
      left
      exact ⟨hrv, rfl⟩
    . next hrv =>
      have hcnt : (xdmaKthreadStart (k.setThp i { k.thp i with cpu := cpu, callbacks := true }) i
          (created i)).1.threadCnt = k.threadCnt := by
        unfold xdmaKthreadStart Kthreads.setThp
        dsimp only
        split_ifs <;> rfl
      rw [hcnt]
      split
      . right
        exact ⟨rfl, Nat.le_succ _, fun _ => Nat.lt_succ_self _⟩
      . rcases ih (i + 1) _ with h | ⟨hr, hle, _⟩
        . left
          exact h
        . right
          dsimp only at hle
          exact ⟨hr, by omega, fun _ => by omega⟩

/-- The threads that are created carry no engine; they are there unless the creation fails. -/
theorem xdmaThreadsCreate_idle (c : CreateEnv) (numThreads : Nat) (hcpus : c.cpus ≠ []) (hcnt : k.threadCnt = 0)
    (hnone : ∀ n, k.cmplthp n = none) (hcounted : Counted k)
    : let r := xdmaThreadsCreate c numThreads k
      Counted r.1 ∧ (∀ n, r.1.cmplthp n = none) ∧ (r.2 < 0 → r.1.threadCnt = 0)
        ∧ (¬ r.2 < 0 → 0 < r.1.threadCnt) := by
  unfold xdmaThreadsCreate
  rw [if_neg (by simp [hcnt])]
  split
  . exact ⟨⟨hcounted.workCnt, hcounted.nodup, hcounted.mem_iff⟩, hnone, fun _ => hcnt,
      fun h => absurd (show -enomem < 0 by decide) h⟩
  . have hidle := (idle_of_none hnone numThreads).threadsCreateLoop numThreads c.created c.cpus 0
    have hloop := threadsCreateLoop_threadCnt numThreads c.created c.cpus 0
      { k with csThreads := some numThreads, thp := fun _ => .zero }
    dsimp only at hloop ⊢
    refine ⟨hidle.counted, hidle.cmplthp, ?_, ?_⟩
    . intro hrv
      rcases hloop with ⟨_, h⟩ | ⟨h, _⟩
      . exact h
      . omega
    . intro hrv
      rcases hloop with ⟨h, _⟩ | ⟨_, _, h⟩
      . exact absurd h hrv
      . exact Nat.zero_lt_of_lt (h hcpus)

/-- What is attached to the threads is the same. -/
structure SameWork (k k' : Kthreads) : Prop where
  cmplthp : k'.cmplthp = k.cmplthp
  workCnt : ∀ i, (k'.thp i).workCnt = (k.thp i).workCnt
  workList : ∀ i, (k'.thp i).workList = (k.thp i).workList

theorem SameWork.refl (k : Kthreads)
    : SameWork k k := ⟨rfl, fun _ => rfl, fun _ => rfl⟩

theorem SameWork.trans {k' k'' : Kthreads} (h : SameWork k k') (h' : SameWork k' k'')
    : SameWork k k'' :=
  ⟨h'.cmplthp.trans h.cmplthp, fun i => (h'.workCnt i).trans (h.workCnt i),
    fun i => (h'.workList i).trans (h.workList i)⟩

theorem SameWork.setThp (k : Kthreads) (i : Nat) (thp : XdmaKthread) (hcnt : thp.workCnt = (k.thp i).workCnt)
    (hlist : thp.workList = (k.thp i).workList)
    : SameWork k (k.setThp i thp) := by
  refine ⟨rfl, ?_, ?_⟩
  . intro j
    by_cases heq : j = i
    . rw [heq, Kthreads.setThp_self, hcnt]
    . rw [Kthreads.setThp_ne k thp heq]
  . intro j
    by_cases heq : j = i
    . rw [heq, Kthreads.setThp_self, hlist]
    . rw [Kthreads.setThp_ne k thp heq]

theorem SameWork.counted {k' : Kthreads} (h : SameWork k k') (hcounted : Counted k)
    : Counted k' where
  workCnt := fun i => by rw [h.workCnt, h.workList, hcounted.workCnt]
  nodup := fun i => by rw [h.workList]; exact hcounted.nodup i
  mem_iff := fun n i => by rw [h.workList, h.cmplthp]; exact hcounted.mem_iff n i

theorem xdmaKthreadStop_same (k : Kthreads) (i : Nat) (rv : Int)
    : SameWork k (xdmaKthreadStop k i rv) := by
  unfold xdmaKthreadStop
  split
  . exact .refl k
  . have hstop : SameWork k { k.setThp i { k.thp i with schedule := true } with
        running := k.running.erase i, stops := i :: k.stops } :=
      let h := SameWork.setThp k i { k.thp i with schedule := true } rfl rfl
      ⟨h.cmplthp, h.workCnt, h.workList⟩
    dsimp only
    split
    . exact hstop
    . exact hstop.trans (.setThp _ i _ rfl rfl)

/-- To stop the threads changes nothing of what is attached to them. -/
theorem threadsDestroyLoop_same (rv : Nat → Int) (n i : Nat) (k : Kthreads)
    : SameWork k (threadsDestroyLoop rv n i k) := by
  induction n generalizing i k with
  | zero => exact .refl k
  | succ n ih =>
    unfold threadsDestroyLoop
    refine SameWork.trans ?_ (ih (i + 1) _)
    split
    . exact xdmaKthreadStop_same k i (rv i)
    . exact .refl k

theorem xdmaThreadsDestroy_same (rv : Nat → Int) (k : Kthreads)
    : SameWork k (xdmaThreadsDestroy rv k) ∧ (xdmaThreadsDestroy rv k).threadCnt = 0 := by
  unfold xdmaThreadsDestroy
  split
  . next hcnt => exact ⟨.refl k, hcnt⟩
  . have h := threadsDestroyLoop_same rv k.threadCnt 0 k
    exact ⟨⟨h.cmplthp, h.workCnt, h.workList⟩, rfl⟩

end Kthreads

section Engines

/-- The numbers of the engines of a device. -/
def Xdev.engineNos (x : Xdev) : List Nat := x.probed.engines.map (engineNo x.addr)

theorem engineNo_div {addr : Nat} {id : EngineId} (h : id.channel < xdmaChannelNumMax)
    : engineNo addr id / 8 = addr := by
  unfold xdmaChannelNumMax at h
  unfold engineNo
  cases id.dir <;> (dsimp only; omega)

theorem engineNo_inj {addr : Nat} {id id' : EngineId} (h : id.channel < xdmaChannelNumMax)
    (h' : id'.channel < xdmaChannelNumMax) (heq : engineNo addr id = engineNo addr id')
    : id = id' := by
  obtain ⟨dir, channel⟩ := id
  obtain ⟨dir', channel'⟩ := id'
  unfold xdmaChannelNumMax at h h'
  unfold engineNo at heq
  rw [EngineId.mk.injEq]
  cases dir <;> cases dir' <;> (dsimp only at h h' heq; simp; omega)

theorem mem_engines {d : ProbedDev} {id : EngineId}
    : id ∈ d.engines ↔ d.Present id := by
  obtain ⟨dir, channel⟩ := id
  unfold ProbedDev.engines ProbedDev.Present ProbedDev.channelMax
  cases dir <;> simp

theorem engines_nodup (d : ProbedDev)
    : d.engines.Nodup := by
  unfold ProbedDev.engines
  rw [List.nodup_append']
  refine ⟨?_, ?_, ?_⟩
  . exact List.nodup_range.map (fun i j h => (EngineId.mk.inj h).2)
  . exact List.nodup_range.map (fun i j h => (EngineId.mk.inj h).2)
  . intro id hid hid'
    rw [List.mem_map] at hid hid'
    obtain ⟨i, _, rfl⟩ := hid
    obtain ⟨j, _, heq⟩ := hid'
    simp at heq

/-- A device as it is probed in the one mode or the other. -/
structure ProbedIn (poll : Bool) (d : ProbedDev) : Prop where
  eq : ∃ env h2cMax c2hMax, env.pollMode = poll ∧ h2cMax ≤ xdmaChannelNumMax ∧ c2hMax ≤ xdmaChannelNumMax
    ∧ d = probedDev env h2cMax c2hMax

section Probed

variable {poll : Bool} {d : ProbedDev}

theorem ProbedIn.channel_lt (h : ProbedIn poll d) {id : EngineId} (hid : id ∈ d.engines)
    : id.channel < xdmaChannelNumMax := by
  obtain ⟨env, h2cMax, c2hMax, _, hh, hc, rfl⟩ := h.eq
  exact probedDev_channel_lt env h2cMax c2hMax hh hc (mem_engines.mp hid)

theorem ProbedIn.filter_magic (h : ProbedIn poll d)
    : d.engines.filter (fun id => (d.engine id).magic) = d.engines := by
  obtain ⟨env, h2cMax, c2hMax, _, _, _, rfl⟩ := h.eq
  rw [List.filter_eq_self]
  intro id hid
  exact (probedDev_setup env h2cMax c2hMax (mem_engines.mp hid)).1

theorem ProbedIn.nodup (h : ProbedIn poll d) (addr : Nat)
    : (d.engines.map (engineNo addr)).Nodup := by
  refine List.Nodup.map_on ?_ (engines_nodup d)
  intro id hid id' hid' heq
  exact engineNo_inj (h.channel_lt hid) (h.channel_lt hid') heq

/-- The numbers of a device tell it from the other ones. -/
theorem ProbedIn.div (h : ProbedIn poll d) {addr n : Nat} (hn : n ∈ d.engines.map (engineNo addr))
    : n / 8 = addr := by
  obtain ⟨id, hid, rfl⟩ := List.mem_map.mp hn
  exact engineNo_div (h.channel_lt hid)

theorem ProbedIn.removed (h : ProbedIn poll d) {env : ProbeEnv} (henv : env.pollMode = poll)
    : Ledger.held (d.removeEngines env).calls = [] := by
  obtain ⟨env', h2cMax, c2hMax, hmode, _, _, rfl⟩ := h.eq
  obtain ⟨_, hheld⟩ := removeEngines_held env' env h2cMax c2hMax
  rw [List.eq_nil_iff_forall_not_mem]
  intro r hr
  obtain ⟨id, _, _, hon, hoff⟩ := (hheld r).mp hr
  rw [hmode] at hon
  rw [henv, hon] at hoff
  contradiction

variable {k : Kthreads} {env : ProbeEnv} {addr : Nat}

theorem ProbedIn.addEngines (h : ProbedIn poll d) (henv : env.pollMode = poll) (hcarried : Carried k)
    (hpos : poll = true → 0 < k.threadCnt) (hnew : ∀ n, n / 8 = addr → k.cmplthp n = none)
    : let k' := k.addEngines env addr d
      Carried k' ∧ k'.threadCnt = k.threadCnt
        ∧ ∀ n, k'.cmplthp n ≠ none ↔ k.cmplthp n ≠ none ∨ poll = true ∧ n ∈ d.engines.map (engineNo addr) := by
  unfold Kthreads.addEngines
  rw [henv]
  cases poll with
  | false => exact ⟨hcarried, rfl, fun n => by simp⟩
  | true =>
    have hadd := hcarried.addAll (hpos rfl) (h.nodup addr) (fun n hn => hnew n (h.div hn))
    rw [List.foldl_map] at hadd
    simpa using hadd

theorem ProbedIn.removeEngines (h : ProbedIn poll d) (henv : env.pollMode = poll) (hcarried : Carried k)
    : let k' := k.removeEngines env addr d
      Carried k' ∧ k'.threadCnt = k.threadCnt
        ∧ ∀ n, k'.cmplthp n ≠ none
            ↔ k.cmplthp n ≠ none ∧ ¬ (poll = true ∧ n ∈ d.engines.map (engineNo addr)) := by
  unfold Kthreads.removeEngines
  rw [henv, h.filter_magic]
  cases poll with
  | false => exact ⟨hcarried, rfl, fun n => by simp⟩
  | true =>
    have hremove := hcarried.removeAll (d.engines.map (engineNo addr))
    rw [List.foldl_map] at hremove
    simpa using hremove

end Probed

end Engines

section Change

/-- The event is of a driver that is loaded in the one mode or the other, on a machine with a processor. -/
def XdevEvent.InMode (poll : Bool) : XdevEvent → Prop
  | .add _ _ _ pollMode c => pollMode = poll ∧ c.cpus ≠ []
  | .setUp e => e.probe.pollMode = poll
  | .offline => True
  | .online pollMode _ => pollMode = poll
  | .close env => env.pollMode = poll
  | .remove pollMode _ => pollMode = poll

/-- The engines of a device that is open were probed in the mode, those of one that was are all given back. -/
def Xdev.InMode (poll : Bool) (x : Xdev) : Prop :=
  match x.phase with
  | .listed => True
  | .opened => ProbedIn poll x.probed
  | .unwound => Ledger.held x.probed.calls = []

/-- The device has engine `n` attached. -/
def Xdev.Attaches (poll : Bool) (x : Xdev) (n : Nat) : Prop :=
  poll = true ∧ x.phase = .opened ∧ n ∈ x.engineNos

variable {poll : Bool} {x x' : Xdev} {k k' : Kthreads} {e : XdevEvent}

/-- The completion threads follow one device through a change. -/
structure Follows (poll : Bool) (x' : Xdev) (k k' : Kthreads) : Prop where
  carried : Carried k'
  threadCnt : k'.threadCnt = k.threadCnt
  others : ∀ n, n / 8 ≠ x'.addr → (k'.cmplthp n ≠ none ↔ k.cmplthp n ≠ none)
  own : ∀ n, n / 8 = x'.addr → (k'.cmplthp n ≠ none ↔ x'.Attaches poll n)

theorem Xdev.Fresh.follows {e : SetUpEnv} (h : x.Fresh) (hmode : e.probe.pollMode = poll)
    (hcarried : Carried k) (hpos : poll = true → 0 < k.threadCnt) (hown : ∀ n, n / 8 = x.addr → k.cmplthp n = none)
    : (Xdev.afterSetUp (x.setUp e k)).InMode poll
        ∧ Follows poll (Xdev.afterSetUp (x.setUp e k)) k (x.setUp e k).1.2 := by
  obtain ⟨h2cMax, c2hMax, hh, hc, hprobed⟩ := h.probed
  -- where the device is not open, all of its engines are off the threads again
  have hnone {y : Xdev} {k' : Kthreads} (haddr : y.addr = x.addr) (hphase' : y.phase = .unwound)
      (hcarried' : Carried k') (hcnt : k'.threadCnt = k.threadCnt)
      (hsame : ∀ n, k'.cmplthp n ≠ none ↔ k.cmplthp n ≠ none) : Follows poll y k k' := by
    refine ⟨hcarried', hcnt, fun n _ => hsame n, ?_⟩
    intro n hn
    rw [haddr] at hn
    rw [hsame, hown n hn]
    refine iff_of_false (by simp) ?_
    rintro ⟨_, hopened, _⟩
    rw [hphase'] at hopened
    contradiction
  have hends := h.setUp_ends e k
  generalize x.setUp e k = r at *
  cases hends with
  | @undone x' err returned unwound =>
    refine ⟨?_, hnone (congrArg XdevId.addr unwound.id) rfl hcarried rfl (fun _ => Iff.rfl)⟩
    show Ledger.held x'.probed.calls = []
    rw [unwound.probed, hprobed]
    rfl
  | @probed y hequipped same =>
    have haddr : y.addr = x.addr := congrArg XdevId.addr same.id
    have hprobedIn : ProbedIn poll y.probed := by
      rw [same.probed, hprobed]
      exact ⟨e.probe, h2cMax, c2hMax, hmode, hh.2, hc.2, rfl⟩
    rw [haddr]
    obtain ⟨hcarried₁, hcnt₁, hmem₁⟩ := hprobedIn.addEngines hmode hcarried hpos hown
    generalize k.addEngines e.probe x.addr y.probed = k₁ at *
    -- what is added is removed again
    have hremove : Carried (k₁.removeEngines e.probe x.addr y.probed)
        ∧ (k₁.removeEngines e.probe x.addr y.probed).threadCnt = k.threadCnt
        ∧ ∀ n, (k₁.removeEngines e.probe x.addr y.probed).cmplthp n ≠ none ↔ k.cmplthp n ≠ none := by
      obtain ⟨hcarried₂, hcnt₂, hmem₂⟩ := @ProbedIn.removeEngines _ _ _ _ x.addr hprobedIn hmode hcarried₁
      refine ⟨hcarried₂, hcnt₂.trans hcnt₁, ?_⟩
      intro n
      rw [hmem₂, hmem₁]
      constructor
      . rintro ⟨hold | hnew, hnot⟩
        . exact hold
        . exact absurd hnew hnot
      . intro hold
        refine ⟨.inl hold, ?_⟩
        rintro ⟨_, hnew⟩
        exact hold (hown n (hprobedIn.div hnew))
    have hends := setUpIrq_ends e y k₁
    generalize y.setUpIrq e k₁ = r at *
    cases hends with
    | noVectors hmsi =>
      have hunwound := errEngines_unwound e.probe (y.enableMsiMsix e.msi) k₁
      have hkthreads : ((y.enableMsiMsix e.msi).errEngines e.probe k₁).2
          = k₁.removeEngines e.probe x.addr y.probed := by
        rw [← haddr]
        rfl
      rw [← hkthreads] at hremove
      refine ⟨?_, hnone ?_ rfl hremove.1 hremove.2.1 hremove.2.2⟩
      . show Ledger.held ((y.enableMsiMsix e.msi).errEngines e.probe k₁).1.probed.calls = []
        rw [hunwound.probed]
        exact hprobedIn.removed hmode
      . exact (congrArg XdevId.addr hunwound.id).trans haddr
    | @noIrq err irq hmsi hsetup =>
      have hunwound := errMsix_unwound e.probe { y.enableMsiMsix e.msi with irq := irq } k₁
      have hkthreads : ({ y.enableMsiMsix e.msi with irq := irq }.errMsix e.probe k₁).2
          = k₁.removeEngines e.probe x.addr y.probed := by
        rw [errMsix_kthreads, ← haddr]
        rfl
      rw [← hkthreads] at hremove
      refine ⟨?_, hnone ?_ rfl hremove.1 hremove.2.1 hremove.2.2⟩
      . show Ledger.held ({ y.enableMsiMsix e.msi with irq := irq }.errMsix e.probe k₁).1.probed.calls = []
        rw [hunwound.probed]
        exact hprobedIn.removed hmode
      . exact (congrArg XdevId.addr hunwound.id).trans haddr
    | @opened irq hmsi hsetup =>
      refine ⟨hprobedIn, hcarried₁, hcnt₁, ?_, ?_⟩
      . intro n hn
        rw [hmem₁, or_iff_left]
        rintro ⟨_, hnew⟩
        exact hn ((hprobedIn.div hnew).trans haddr.symm)
      . intro n hn
        have hn' : n / 8 = x.addr := hn.trans haddr
        have hnos : Xdev.engineNos (Xdev.afterSetUp ((({ y.enableMsiMsix e.msi with
              irq := irq, phase := .opened }, k₁), none) : (Xdev × Kthreads) × Option Errno))
            = y.probed.engines.map (engineNo x.addr) := by
          rw [← haddr]
          rfl
        dsimp only
        rw [hmem₁, hown n hn']
        unfold Xdev.Attaches
        rw [hnos]
        simp [Xdev.afterSetUp]

theorem Xdev.Change.follows (h : x.Change k e x' k') (hsettled : x.Settled) (hmode : e.InMode poll)
    (hx : x.InMode poll) (hcarried : Carried k) (hpos : poll = true → 0 < k.threadCnt)
    (hown : ∀ n, n / 8 = x.addr → (k.cmplthp n ≠ none ↔ x.Attaches poll n))
    : x'.InMode poll ∧ Follows poll x' k k' := by
  cases h with
  | setUp hphase =>
    unfold Settled at hsettled
    rw [hphase] at hsettled
    refine Fresh.follows hsettled hmode hcarried hpos ?_
    intro n hn
    by_contra hattached
    obtain ⟨_, hopened, _⟩ := (hown n hn).mp hattached
    rw [hphase] at hopened
    contradiction
  | offline hphase => exact ⟨hx, hcarried, rfl, fun n _ => Iff.rfl, hown⟩
  | online hphase => exact ⟨hx, hcarried, rfl, fun n _ => Iff.rfl, hown⟩
  | @close env hphase =>
    unfold InMode at hx
    rw [hphase] at hx
    have hunwound := errMsix_unwound env { x with irq := irqTeardown x.irqConfig x.irq } k
    have haddr : (x.close env k).1.addr = x.addr := congrArg XdevId.addr hunwound.id
    have hkthreads : (x.close env k).2 = k.removeEngines env x.addr x.probed :=
      errMsix_kthreads env { x with irq := irqTeardown x.irqConfig x.irq } k
    obtain ⟨hcarried', hcnt, hmem⟩ := @ProbedIn.removeEngines _ _ _ _ x.addr hx hmode hcarried
    rw [← hkthreads] at hcarried' hcnt hmem
    refine ⟨?_, hcarried', hcnt, ?_, ?_⟩
    . show Ledger.held (x.close env k).1.probed.calls = []
      have hprobed : (x.close env k).1.probed = x.probed.removeEngines env := hunwound.probed
      rw [hprobed]
      exact hx.removed hmode
    . intro n hn
      rw [hmem, and_iff_left]
      rintro ⟨_, hmine⟩
      exact hn ((hx.div hmine).trans haddr.symm)
    . intro n hn
      rw [hmem, hown n (hn.trans haddr)]
      refine iff_of_false ?_ ?_
      . rintro ⟨⟨hpoll, _, hmine⟩, hnot⟩
        exact hnot ⟨hpoll, hmine⟩
      . rintro ⟨_, hopened, _⟩
        contradiction

end Change

/-- In the one mode or the other: which threads there are, and which engines are attached to them. -/
structure Xdevs.Threaded (poll : Bool) (s : Xdevs) : Prop where
  listed : s.Listed
  carried : Carried s.kthreads
  threads : 0 < s.kthreads.threadCnt ↔ poll = true ∧ s.xdevList ≠ []
  attached : ∀ n, s.kthreads.cmplthp n ≠ none ↔ ∃ x ∈ s.xdevList, x.Attaches poll n
  mode : ∀ x ∈ s.xdevList, x.InMode poll
  freed : ∀ x ∈ s.freed, Ledger.held x.probed.calls = []

section Steps

variable {poll : Bool} {s s' : Xdevs} {slot : Nat} {e : XdevEvent}

theorem Xdevs.Threaded.init (poll : Bool)
    : Xdevs.init.Threaded poll where
  listed := .init
  carried := by
    refine ⟨⟨fun _ => rfl, fun _ => List.nodup_nil, ?_⟩, ?_⟩
    . intro n i
      simp [Xdevs.init, Kthreads.init, XdmaKthread.zero]
    . intro n i h
      simp [Xdevs.init, Kthreads.init] at h
  threads := by simp [Xdevs.init, Kthreads.init]
  attached := by simp [Xdevs.init, Kthreads.init]
  mode := by simp [Xdevs.init]
  freed := by simp [Xdevs.init]

theorem Xdev.InMode.div {x : Xdev} (h : x.InMode poll) {n : Nat} (hn : x.Attaches poll n)
    : n / 8 = x.addr := by
  obtain ⟨_, hphase, hmem⟩ := hn
  unfold InMode at h
  rw [hphase] at h
  exact h.div hmem

theorem Xdevs.Threaded.own (h : s.Threaded poll) {x : Xdev} (hx : x ∈ s.xdevList) {n : Nat} (hn : n / 8 = x.addr)
    : s.kthreads.cmplthp n ≠ none ↔ x.Attaches poll n := by
  rw [h.attached]
  refine ⟨?_, fun hattaches => ⟨x, hx, hattaches⟩⟩
  rintro ⟨y, hy, hattaches⟩
  have haddr : y.addr = x.addr := ((h.mode y hy).div hattaches).symm.trans hn
  exact h.listed.eq_of_addr hx hy haddr ▸ hattaches

/-- With no device on the list no engine is attached. -/
theorem Xdevs.Threaded.none (h : s.Threaded poll) (hempty : s.xdevList = []) (n : Nat)
    : s.kthreads.cmplthp n = Option.none := by
  by_contra hattached
  obtain ⟨x, hx, _⟩ := (h.attached n).mp hattached
  rw [hempty] at hx
  contradiction

theorem Xdevs.Threaded.changed (h : s.Threaded poll) (hmode : e.InMode poll) {x x' : Xdev} {k : Kthreads}
    (hx : x ∈ s.xdevList) (hchange : x.Change s.kthreads e x' k)
    : ({ s with kthreads := k }.setXdev x').Threaded poll := by
  have hsettled := h.listed.settled x hx
  have hid := hchange.id hsettled
  have haddr : x'.addr = x.addr := congrArg XdevId.addr hid
  have hne : s.xdevList ≠ [] := List.ne_nil_of_mem hx
  have hmem {y : Xdev} := @Listed.mem_setXdev s x x' h.listed hx hid y
  obtain ⟨hmode', hfollows⟩ := hchange.follows hsettled hmode (h.mode x hx) h.carried
    (fun hpoll => h.threads.mpr ⟨hpoll, hne⟩) (fun n hn => h.own hx hn)
  refine ⟨?_, hfollows.carried, ?_, ?_, ?_, h.freed⟩
  . exact h.listed.steps (.changed hx rfl hchange)
  . show 0 < k.threadCnt ↔ poll = true ∧ Table.replace Xdev.addr x' s.xdevList ≠ []
    rw [hfollows.threadCnt, h.threads, ne_eq, ne_eq, Table.replace_eq_nil]
  . intro n
    show k.cmplthp n ≠ Option.none ↔ _
    by_cases hn : n / 8 = x'.addr
    . rw [hfollows.own n hn]
      refine ⟨fun hattaches => ⟨x', hmem.mpr (.inr rfl), hattaches⟩, ?_⟩
      rintro ⟨y, hy, hattaches⟩
      cases hmem.mp hy with
      | inl hy =>
        have hdiv := (h.mode y hy.1).div hattaches
        exact absurd (h.listed.eq_of_addr hx hy.1 (hdiv.symm.trans (hn.trans haddr))) hy.2
      | inr heq => exact heq ▸ hattaches
    . rw [hfollows.others n hn, h.attached]
      constructor
      . rintro ⟨y, hy, hattaches⟩
        refine ⟨y, hmem.mpr (.inl ⟨hy, ?_⟩), hattaches⟩
        rintro rfl
        exact hn (((h.mode y hy).div hattaches).trans haddr.symm)
      . rintro ⟨y, hy, hattaches⟩
        cases hmem.mp hy with
        | inl hy => exact ⟨y, hy.1, hattaches⟩
        | inr heq =>
          rw [heq] at hattaches
          exact absurd (hmode'.div hattaches) hn
  . intro y hy
    cases hmem.mp hy with
    | inl hy => exact h.mode y hy.1
    | inr heq => exact heq ▸ hmode'

/-- What the first device gets when it asks for threads: no engine is attached to them. -/
theorem Xdevs.Threaded.create (h : s.Threaded poll) (hempty : s.xdevList = []) {c : CreateEnv} (hcpus : c.cpus ≠ [])
    (a : ChannelArgs)
    : let r := threadsFor c a s.kthreads
      Carried r.1 ∧ (∀ n, r.1.cmplthp n = Option.none) ∧ (r.2 < 0 → r.1.threadCnt = 0)
        ∧ (¬ r.2 < 0 → 0 < r.1.threadCnt) := by
  have hcnt : s.kthreads.threadCnt = 0 := by
    have hthreads := h.threads
    rw [hempty] at hthreads
    simpa using hthreads
  obtain ⟨hcounted, hnone, hrest⟩ :=
    xdmaThreadsCreate_idle c _ hcpus hcnt (h.none hempty) h.carried.toCounted
  refine ⟨⟨hcounted, ?_⟩, hnone, hrest⟩
  intro n i hn
  exact absurd ((hnone n).symm.trans hn) (by simp)

theorem Xdevs.Threaded.added (h : s.Threaded poll) {c : CreateEnv} (hcpus : c.cpus ≠ []) (a : ChannelArgs)
    (hrv : poll = true → s.xdevList = [] → ¬ (threadsFor c a s.kthreads).2 < 0)
    {k : Kthreads} (hk : k = if poll && s.xdevList.isEmpty then (threadsFor c a s.kthreads).1 else s.kthreads)
    : Carried k ∧ (0 < k.threadCnt ↔ poll = true) ∧ k.cmplthp = s.kthreads.cmplthp := by
  split at hk
  . next hfirst =>
    rw [Bool.and_eq_true, List.isEmpty_iff] at hfirst
    obtain ⟨hpoll, hempty⟩ := hfirst
    obtain ⟨hcarried, hnone, _, hpos⟩ := h.create hempty hcpus a
    rw [hk]
    refine ⟨hcarried, iff_of_true (hpos (hrv hpoll hempty)) hpoll, ?_⟩
    funext n
    rw [hnone, h.none hempty]
  . next hfirst =>
    rw [hk]
    refine ⟨h.carried, h.threads.trans ?_, rfl⟩
    rw [Bool.and_eq_true, List.isEmpty_iff, not_and] at hfirst
    exact and_iff_left_of_imp hfirst

theorem Xdevs.Threaded.removed (h : s.Threaded poll) (rv : Nat → Int) {x : Xdev} (hx : x ∈ s.xdevList)
    (hphase : x.phase = .unwound)
    : (s.listRemove poll rv x).Threaded poll := by
  have hlisted : (s.listRemove poll rv x).Listed := h.listed.steps (.removed hx rfl hphase)
  have hmem {y : Xdev} : y ∈ Table.remove Xdev.addr x.addr s.xdevList ↔ y ∈ s.xdevList ∧ y ≠ x := by
    rw [Table.mem_remove]
    refine and_congr_right ?_
    intro hy
    exact not_congr ⟨fun heq => h.listed.eq_of_addr hx hy heq, fun heq => heq ▸ rfl⟩
  -- the device has no engine attached any more
  have hrest (n : Nat) : (∃ y ∈ s.xdevList, y.Attaches poll n)
      ↔ ∃ y ∈ Table.remove Xdev.addr x.addr s.xdevList, y.Attaches poll n := by
    refine exists_congr (fun y => ?_)
    rw [hmem, and_assoc]
    refine and_congr_right (fun hy => ?_)
    refine (and_iff_right_of_imp ?_).symm
    rintro ⟨_, hopened, _⟩ rfl
    rw [hphase] at hopened
    contradiction
  have hfreed : ∀ y ∈ x :: s.freed, Ledger.held y.probed.calls = [] := by
    have hmode := h.mode x hx
    unfold Xdev.InMode at hmode
    rw [hphase] at hmode
    exact List.forall_mem_cons.mpr ⟨hmode, h.freed⟩
  have hne : s.xdevList ≠ [] := List.ne_nil_of_mem hx
  unfold Xdevs.listRemove at *
  dsimp only at *
  by_cases hlast : (poll && (Table.remove Xdev.addr x.addr s.xdevList).isEmpty) = true
  . rw [if_pos hlast] at *
    rw [Bool.and_eq_true, List.isEmpty_iff] at hlast
    obtain ⟨hsame, hcnt⟩ := xdmaThreadsDestroy_same rv s.kthreads
    have hnone (n : Nat) : s.kthreads.cmplthp n = Option.none := by
      by_contra hattached
      have hattaches := (hrest n).mp ((h.attached n).mp hattached)
      rw [hlast.2] at hattaches
      obtain ⟨y, hy, _⟩ := hattaches
      contradiction
    refine ⟨hlisted, ⟨hsame.counted h.carried.toCounted, ?_⟩, ?_, ?_, fun y hy => h.mode y (hmem.mp hy).1, hfreed⟩
    . intro n i hn
      rw [hsame.cmplthp, hnone] at hn
      contradiction
    . dsimp only
      rw [hcnt, hlast.2]
      simp
    . intro n
      dsimp only
      rw [hsame.cmplthp, h.attached, hrest]
  . rw [if_neg hlast] at *
    rw [Bool.and_eq_true, List.isEmpty_iff, not_and] at hlast
    refine ⟨hlisted, h.carried, ?_, fun n => (h.attached n).trans (hrest n),
      fun y hy => h.mode y (hmem.mp hy).1, hfreed⟩
    dsimp only
    rw [h.threads]
    exact and_congr_right (fun hpoll => iff_of_true hne (hlast hpoll))

theorem Xdevs.Threaded.steps (h : s.Threaded poll) (hmode : e.InMode poll) (hstep : s.Steps slot e s')
    : s'.Threaded poll := by
  have hlisted := h.listed.steps hstep
  cases hstep with
  | noMemory => exact h
  | @noThreads pdev a c hempty hrv =>
    obtain ⟨hcarried, hnone, hzero, _⟩ := h.create hempty hmode.2 a
    refine ⟨hlisted, hcarried, ?_, ?_, h.mode, List.forall_mem_cons.mpr ⟨rfl, h.freed⟩⟩
    . dsimp only
      rw [hzero hrv, hempty]
      simp
    . intro n
      dsimp only
      rw [hnone, hempty]
      simp
  | @added pdev a pollMode c idx hslot hidx hrv =>
    obtain ⟨rfl, hcpus⟩ := hmode
    obtain ⟨hcarried, hpos, hsame⟩ := h.added hcpus a hrv rfl
    refine ⟨hlisted, hcarried, ?_, ?_, ?_, h.freed⟩
    . dsimp only
      rw [hpos]
      simp
    . intro n
      dsimp only
      rw [hsame, h.attached]
      -- a device that is just added has no engine yet
      refine exists_congr (fun y => ?_)
      rw [List.mem_append, List.mem_singleton, or_and_right]
      refine (or_iff_left ?_).symm
      rintro ⟨rfl, _, hopened, _⟩
      contradiction
    . intro y hy
      rw [List.mem_append, List.mem_singleton] at hy
      cases hy with
      | inl hy => exact h.mode y hy
      | inr heq =>
        rw [heq]
        trivial
  | changed hx hslot hchange => exact h.changed hmode hx hchange
  | @removed pollMode rv x hx hslot hphase =>
    obtain rfl := hmode
    exact h.removed rv hx hphase

end Steps

/--
The completion threads are there exactly while a device is on the list in poll mode. Only engines of open devices
are attached, to a thread that there is; in poll mode all of them are; and a device that is freed has left none.
-/
structure Xdevs.Served (poll : Bool) (s : Xdevs) : Prop where
  threads : 0 < s.kthreads.threadCnt ↔ poll = true ∧ s.xdevList ≠ []
  attached : ∀ n i, s.kthreads.cmplthp n = some i →
    i < s.kthreads.threadCnt ∧ ∃ x ∈ s.xdevList, x.phase = .opened ∧ n ∈ x.engineNos
  served : poll = true → ∀ x ∈ s.xdevList, x.phase = .opened → ∀ id, x.probed.Present id →
    ∃ i < s.kthreads.threadCnt, engineNo x.addr id ∈ (s.kthreads.thp i).workList
  freed : ∀ x ∈ s.freed, Ledger.held x.probed.calls = []

theorem Xdevs.Threaded.served {poll : Bool} {s : Xdevs} (h : s.Threaded poll)
    : s.Served poll where
  threads := h.threads
  attached := by
    intro n i hn
    obtain ⟨x, hx, _, hopened, hmem⟩ := (h.attached n).mp (by simp [hn])
    exact ⟨h.carried.bound n i hn, x, hx, hopened, hmem⟩
  served := by
    intro hpoll x hx hopened id hid
    have hmem : engineNo x.addr id ∈ x.engineNos := List.mem_map_of_mem (mem_engines.mpr hid)
    have hattached := (h.attached _).mpr ⟨x, hx, hpoll, hopened, hmem⟩
    obtain ⟨i, hi⟩ := Option.ne_none_iff_exists'.mp hattached
    exact ⟨i, h.carried.bound _ i hi, (h.carried.mem_iff _ i).mpr hi⟩
  freed := h.freed

/-- A PCI device with one BAR and one engine in each direction, in the one mode or the other. -/
def oneBar (poll : Bool) : SetUpEnv where
  enableDevice := none
  requestRegions := none
  bars := ⟨fun k => if k = 0 then 0x10000 else 0, fun _ => true, fun _ => 0x1fc20006, fun _ => 0x1fc30006⟩
  dmaMask := fun _ => true
  probe := ⟨poll, false, fun offset => if offset = 0 then 0x1fc00006 else if offset = 0x1000 then 0x1fc10006 else 0,
    fun _ => 0, fun _ _ => true⟩
  msi := ⟨0, true, false, none⟩
  requestIrq := fun _ => none

def onePdev : PciDev := ⟨11, 1, fun i => 30 + i, fun i => by omega⟩

/-- Two devices come, and go in the same order. -/
def twoDevices : List (Nat × XdevEvent) :=
  let c : CreateEnv := ⟨true, [0, 1], fun _ => true⟩
  [(0, .add onePdev ⟨1, 1, 1⟩ true true c), (0, .setUp (oneBar true)), (1, .add onePdev ⟨1, 1, 1⟩ true true c),
    (1, .setUp (oneBar true)), (0, .close (oneBar true).probe), (0, .remove true (fun _ => 0)),
    (1, .close (oneBar true).probe), (1, .remove true (fun _ => 0))]

/-- When poll mode is turned on between two devices, the engine of the second one goes to a thread that is not there. -/
example
    : let c : CreateEnv := ⟨true, [0, 1], fun _ => true⟩
      (Transition.run Xdevs.step .init [(0, .add onePdev ⟨1, 1, 1⟩ true false c), (0, .setUp (oneBar false)),
        (1, .add onePdev ⟨1, 1, 1⟩ true true c), (1, .setUp (oneBar true))]).map
          (fun s => (s.kthreads.threadCnt, s.kthreads.cmplthp (engineNo 1 ⟨.toDevice, 0⟩)))
        = some (0, some 0) := by
  decide

end Xdma
