import ReferenceProjects.Xdma.Impl.Bars

/-!
This module contains what mapping the BARs of a device comes to: when it succeeds, that it maps all of them or
leaves none mapped, and how the config, user and bypass BARs are told apart.
-/

namespace Xdma

open Ledger

/-- The BARs that the device has. -/
def PciBars.present (p : PciBars) : List Nat := (List.range xdmaBarNum).filter (fun k => p.len k != 0)

/-- A BAR that is large enough, with the identifiers of the config BAR. -/
def PciBars.candidate (p : PciBars) (k : Nat) : Bool := decide (xdmaBarSize ≤ p.len k) && isConfigBar p k

/-- The BARs that are mapped are those that the driver notes, all of them BARs of a device. -/
structure Bars.Kept (s : Bars) : Prop where
  tracks : Tracks (fun k => s.bar k = true) s.calls
  bound : ∀ k, s.bar k = true → k < xdmaBarNum

section Unmap

variable {s : Bars}

theorem unmapBarsLoop_spec (n i : Nat) (h : s.Kept)
    : let s' := unmapBarsLoop n i s
      s'.Kept ∧ ∀ k, s'.bar k = true ↔ s.bar k = true ∧ ¬ (i ≤ k ∧ k < i + n) := by
  induction n generalizing i s with
  | zero =>
    refine ⟨h, ?_⟩
    intro k
    simp [unmapBarsLoop]
  | succ n ih =>
    unfold unmapBarsLoop
    split
    . next hbar =>
      have hkept
          : Bars.Kept { s with bar := Function.update s.bar i false, calls := .release i :: s.calls } := by
        refine ⟨Tracks.release h.tracks (r := i) hbar ?_, ?_⟩
        . intro k
          by_cases heq : k = i <;> simp [heq]
        . intro k hk
          by_cases heq : k = i
          . rw [heq]
            exact h.bound i hbar
          . exact h.bound k (by simpa [heq] using hk)
      obtain ⟨hkept', hrest⟩ := ih (i + 1) hkept
      refine ⟨hkept', ?_⟩
      intro k
      rw [hrest]
      by_cases heq : k = i
      . subst heq
        simp
      . have hrange : (i + 1 ≤ k ∧ k < i + 1 + n) ↔ i ≤ k ∧ k < i + (n + 1) := by omega
        dsimp only
        rw [Function.update_of_ne heq, hrange]
    . next hbar =>
      obtain ⟨hkept', hrest⟩ := ih (i + 1) h
      refine ⟨hkept', ?_⟩
      intro k
      rw [hrest]
      by_cases heq : k = i
      . subst heq
        simp [hbar]
      . have hrange : (i + 1 ≤ k ∧ k < i + 1 + n) ↔ i ≤ k ∧ k < i + (n + 1) := by omega
        rw [hrange]

/-- Nothing is mapped any more. -/
theorem unmapBars_spec (h : s.Kept)
    : Sound (unmapBars s).calls ∧ held (unmapBars s).calls = [] := by
  obtain ⟨hkept, hrest⟩ := unmapBarsLoop_spec xdmaBarNum 0 h
  refine ⟨hkept.tracks.sound, hkept.tracks.held_eq_nil.mpr ?_⟩
  intro k hk
  obtain ⟨hold, hnot⟩ := (hrest k).mp hk
  have := h.bound k hold
  omega

end Unmap

section Map

variable {p : PciBars} {s : Bars}

/--
What mapping the BARs below `i` came to: all that are there are mapped, and the config BAR is the first
candidate among them, at its position.
-/
structure MapInv (p : PciBars) (s : Bars) (barIdList : List Nat) (configBarPos i : Nat) : Prop where
  kept : s.Kept
  list : barIdList = (List.range i).filter (fun k => p.len k != 0)
  mapped : ∀ k, s.bar k = true ↔ k ∈ barIdList
  found : ∀ c, barIdList.find? p.candidate = some c →
    s.configBarIdx = (c : Nat) ∧ barIdList[configBarPos]? = some c
  missing : barIdList.find? p.candidate = none → s.configBarIdx = -1
  others : s.userBarIdx = -1 ∧ s.bypassBarIdx = -1
  iomap : ∀ k ∈ barIdList, p.iomap k = true

theorem MapInv.init (p : PciBars)
    : MapInv p .init [] 0 0 where
  kept := by
    refine ⟨⟨trivial, ?_⟩, ?_⟩
    . intro k
      simp [held, Bars.init]
    . intro k hk
      simp [Bars.init] at hk
  list := rfl
  mapped := by simp [Bars.init]
  found := by simp
  missing := fun _ => rfl
  others := ⟨rfl, rfl⟩
  iomap := by simp

theorem MapInv.not_mem {barIdList : List Nat} {configBarPos i : Nat} (h : MapInv p s barIdList configBarPos i)
    : i ∉ barIdList := by
  rw [h.list]
  simp

theorem MapInv.bar_eq {barIdList : List Nat} {configBarPos i : Nat} (h : MapInv p s barIdList configBarPos i)
    : s.bar i = false := by
  rw [← Bool.not_eq_true, h.mapped]
  exact h.not_mem

/-- What is not mapped yet may be noted as not mapped. -/
theorem MapInv.update_false {barIdList : List Nat} {configBarPos i : Nat}
    (h : MapInv p s barIdList configBarPos i)
    : Function.update s.bar i false = s.bar := by
  rw [← h.bar_eq, Function.update_eq_self]

/-- A BAR that is not there is passed over. -/
theorem MapInv.skip {barIdList : List Nat} {configBarPos i : Nat} (h : MapInv p s barIdList configBarPos i)
    (hlen : p.len i = 0)
    : MapInv p { s with bar := Function.update s.bar i false } barIdList configBarPos (i + 1) := by
  rw [h.update_false]
  refine ⟨h.kept, ?_, h.mapped, h.found, h.missing, h.others, h.iomap⟩
  rw [h.list, List.range_succ, List.filter_append]
  simp [hlen]

/-- A BAR that cannot be mapped leaves the others as they are. -/
theorem MapInv.fails {barIdList : List Nat} {configBarPos i : Nat} (h : MapInv p s barIdList configBarPos i)
    : Bars.Kept { s with bar := Function.update s.bar i false, calls := .acquire i false :: s.calls } := by
  rw [h.update_false]
  refine ⟨Tracks.acquire h.kept.tracks (r := i) (by simp [h.bar_eq]) ?_, h.kept.bound⟩
  intro k
  simp

/-- A BAR that is there is mapped, and is the config BAR if it is the first candidate. -/
theorem MapInv.map {barIdList : List Nat} {configBarPos i : Nat} (h : MapInv p s barIdList configBarPos i)
    (hi : i < xdmaBarNum) (hlen : p.len i ≠ 0) (hok : p.iomap i = true)
    : let found := s.configBarIdx < 0 ∧ p.candidate i = true
      MapInv p { s with
          bar := Function.update s.bar i true
          calls := .acquire i true :: s.calls
          configBarIdx := if found then i else s.configBarIdx }
        (barIdList ++ [i]) (if found then barIdList.length else configBarPos) (i + 1) := by
  have hbar : ¬ s.bar i = true := by
    rw [h.mapped]
    exact h.not_mem
  have hmapped (k : Nat) : Function.update s.bar i true k = true ↔ s.bar k = true ∨ k = i := by
    by_cases heq : k = i <;> simp [heq]
  have hneg : s.configBarIdx < 0 ↔ barIdList.find? p.candidate = none := by
    constructor
    . intro hneg
      cases hfind : barIdList.find? p.candidate with
      | none => rfl
      | some c =>
        have := (h.found c hfind).1
        omega
    . intro hnone
      rw [h.missing hnone]
      decide
  dsimp only
  refine ⟨⟨?_, ?_⟩, ?_, ?_, ?_, ?_, h.others, ?_⟩
  . refine Tracks.acquire h.kept.tracks (r := i) hbar ?_
    intro k
    rw [hmapped, and_iff_left rfl]
  . intro k hk
    rw [hmapped] at hk
    cases hk with
    | inl hold => exact h.kept.bound k hold
    | inr heq => exact heq ▸ hi
  . rw [h.list, List.range_succ, List.filter_append]
    simp [hlen]
  . intro k
    rw [hmapped, h.mapped, List.mem_append, List.mem_singleton]
  . intro c hc
    rw [List.find?_append] at hc
    cases hfind : barIdList.find? p.candidate with
    | none =>
      rw [hfind, Option.none_or, List.find?_singleton] at hc
      split at hc
      . next hcand =>
        rw [Option.some.injEq] at hc
        have hfound : s.configBarIdx < 0 ∧ p.candidate i = true := ⟨hneg.mpr hfind, hcand⟩
        rw [if_pos hfound, if_pos hfound, ← hc]
        simp
      . contradiction
    | some c' =>
      rw [hfind, Option.some_or, Option.some.injEq] at hc
      obtain ⟨hidx, hpos⟩ := h.found c' hfind
      have hlt := (List.getElem?_eq_some_iff.mp hpos).1
      have hold : ¬ (s.configBarIdx < 0 ∧ p.candidate i = true) := by omega
      rw [if_neg hold, if_neg hold, ← hc]
      refine ⟨hidx, ?_⟩
      rw [List.getElem?_append_left hlt]
      exact hpos
  . intro hnone
    rw [List.find?_append, Option.or_eq_none_iff] at hnone
    have hcand : ¬ p.candidate i = true := by
      have := hnone.2
      simpa using this
    rw [if_neg (fun hfound => hcand hfound.2)]
    exact h.missing hnone.1
  . intro k hk
    rw [List.mem_append, List.mem_singleton] at hk
    cases hk with
    | inl hold => exact h.iomap k hold
    | inr heq => exact heq ▸ hok

theorem mapSingleBar_absent {i : Nat} (hlen : p.len i = 0)
    : mapSingleBar p s i = ({ s with bar := Function.update s.bar i false }, 0) := by
  simp [mapSingleBar, hlen]

theorem mapSingleBar_fails {i : Nat} (hlen : p.len i ≠ 0) (hok : p.iomap i = false)
    : mapSingleBar p s i
        =
      ({ s with bar := Function.update s.bar i false, calls := .acquire i false :: s.calls }, -1) := by
  simp [mapSingleBar, hlen, hok]

/-- The limit on what is mapped changes nothing for the test of the size. -/
theorem mapSingleBar_maps {i : Nat} (hlen : p.len i ≠ 0) (hok : p.iomap i = true)
    : ∃ barLen : Int,
        mapSingleBar p s i
          =
        ({ s with bar := Function.update s.bar i true, calls := .acquire i true :: s.calls }, barLen)
          ∧
        0 < barLen ∧ (xdmaBarSize ≤ barLen ↔ xdmaBarSize ≤ p.len i) := by
  have hmax : xdmaBarSize ≤ intMax ∧ 0 < intMax := by decide
  refine ⟨((if p.len i > intMax then intMax else p.len i : Nat) : Int), ?_, ?_, ?_⟩
  . simp [mapSingleBar, hlen, hok]
  . split <;> omega
  . split <;> omega

/-- Either all of the BARs are mapped, or one is there that cannot be. -/
theorem mapBarsLoop_spec (n i : Nat) {barIdList : List Nat} {configBarPos : Nat} (hn : i + n ≤ xdmaBarNum)
    (h : MapInv p s barIdList configBarPos i)
    : let r := mapBarsLoop p n i s barIdList configBarPos
      (∀ l pos, r.2 = some (l, pos) → MapInv p r.1 l pos (i + n))
        ∧
      (r.2 = none → r.1.Kept ∧ ∃ k < i + n, p.len k ≠ 0 ∧ p.iomap k = false) := by
  induction n generalizing s i barIdList configBarPos with
  | zero =>
    refine ⟨?_, ?_⟩
    . intro l pos hr
      simp only [mapBarsLoop, Option.some.injEq, Prod.mk.injEq] at hr
      rw [← hr.1, ← hr.2]
      exact h
    . intro hr
      simp [mapBarsLoop] at hr
  | succ n ih =>
    have hadd : i + (n + 1) = i + 1 + n := by omega
    have hi : i < xdmaBarNum := by omega
    rw [hadd]
    unfold mapBarsLoop
    by_cases hlen : p.len i = 0
    . rw [mapSingleBar_absent hlen]
      exact ih (i + 1) (by omega) (h.skip hlen)
    . cases hok : p.iomap i with
      | false =>
        rw [mapSingleBar_fails hlen hok]
        refine ⟨?_, ?_⟩
        . intro l pos hr
          simp at hr
        . intro _
          exact ⟨h.fails, i, by omega, hlen, hok⟩
      | true =>
        obtain ⟨barLen, hret, hpos, hsize⟩ := @mapSingleBar_maps p s i hlen hok
        have hmap := ih (i + 1) (by omega) (h.map hi hlen hok)
        have hcand : (xdmaBarSize ≤ barLen ∧ s.configBarIdx < 0 ∧ isConfigBar p i = true)
            ↔ s.configBarIdx < 0 ∧ p.candidate i = true := by
          rw [hsize, PciBars.candidate, Bool.and_eq_true, decide_eq_true_eq]
          tauto
        rw [hret]
        have hne : ¬ barLen = 0 := by omega
        have hnn : ¬ barLen < 0 := by omega
        simp only [if_neg hne, if_neg hnn, hcand]
        split
        . next hfound => simpa [hfound] using hmap
        . next hfound => simpa only [if_neg hfound] using hmap

end Map

section Roles

variable {p : PciBars} {s : Bars} {c : Nat} {front back : List Nat}

/-- What the BARs are told to be, with the config BAR `c` between the BARs of `front` and those of `back`. -/
structure Bars.Told (s : Bars) (front : List Nat) (c : Nat) (back : List Nat) : Prop where
  config : s.configBarIdx = c
  -- the user BAR is the first one
  user : s.userBarIdx
      =
    if (front.length = 1 ∨ front.length = 2) ∧ front.length + back.length ≤ 3 then
      (((front ++ c :: back).head (by simp) : Nat) : Int)
    else
      -1
  -- the bypass BAR is the last one
  bypass : s.bypassBarIdx
      =
    if (front.length = 0 ∧ back.length = 1) ∨
        ((front.length = 1 ∨ front.length = 2) ∧
          (front.length + back.length = 2 ∨ front.length + back.length = 3)) then
      (((front ++ c :: back).getLast (by simp) : Nat) : Int)
    else
      -1

/-- Telling what the BARs are maps and unmaps nothing. -/
theorem identifyBars_frame (s : Bars) (barIdList : List Nat) (configBarPos : Nat)
    : ∃ user bypass, identifyBars s barIdList configBarPos
        =
      { s with userBarIdx := user, bypassBarIdx := bypass } := by
  unfold identifyBars
  dsimp only
  split
  . split_ifs <;> exact ⟨_, _, rfl⟩
  . split_ifs <;> exact ⟨_, _, rfl⟩
  . split_ifs <;> exact ⟨_, _, rfl⟩
  . exact ⟨_, _, rfl⟩

theorem identifyBars_many {barIdList : List Nat} (h : 5 ≤ barIdList.length) (configBarPos : Nat)
    : identifyBars s barIdList configBarPos = s := by
  match barIdList with
  | _ :: _ :: _ :: _ :: _ :: _ => simp [identifyBars]

theorem identifyBars_told (hconfig : s.configBarIdx = c) (hothers : s.userBarIdx = -1 ∧ s.bypassBarIdx = -1)
    : (identifyBars s (front ++ c :: back) front.length).Told front c back := by
  obtain ⟨huser, hbypass⟩ := hothers
  by_cases hmany : 4 ≤ front.length + back.length
  . have hlen : 5 ≤ (front ++ c :: back).length := by
      rw [List.length_append, List.length_cons]
      omega
    rw [identifyBars_many hlen]
    refine ⟨hconfig, ?_, ?_⟩
    . rw [huser, if_neg (by omega)]
    . rw [hbypass, if_neg (by omega)]
  . match front, back with
    | [], [] => constructor <;> simp [identifyBars, hconfig, huser, hbypass]
    | [], [_] => constructor <;> simp [identifyBars, hconfig, huser]
    | [], [_, _] => constructor <;> simp [identifyBars, hconfig, huser, hbypass]
    | [], [_, _, _] => constructor <;> simp [identifyBars, hconfig, huser, hbypass]
    | [_], [] => constructor <;> simp [identifyBars, hconfig, hbypass]
    | [_], [_] => constructor <;> simp [identifyBars, hconfig]
    | [_], [_, _] => constructor <;> simp [identifyBars, hconfig]
    | [_, _], [] => constructor <;> simp [identifyBars, hconfig]
    | [_, _], [_] => constructor <;> simp [identifyBars, hconfig]
    | [_, _, _], [] => constructor <;> simp [identifyBars, hconfig, huser, hbypass]
    | [], _ :: _ :: _ :: _ :: _ | [_], _ :: _ :: _ :: _ | [_, _], _ :: _ :: _ | [_, _, _], _ :: _
    | _ :: _ :: _ :: _ :: _, _ =>
      simp only [List.length_cons, List.length_nil] at hmany
      omega

theorem lt_of_sorted (hsorted : (front ++ c :: back).Pairwise (· < ·))
    : (∀ u ∈ front, u < c) ∧ ∀ b ∈ back, c < b := by
  obtain ⟨_, hback, hfront⟩ := List.pairwise_append.mp hsorted
  exact ⟨fun u hu => hfront u hu c List.mem_cons_self, (List.pairwise_cons.mp hback).1⟩

theorem getLast_of_sorted (hsorted : (front ++ c :: back).Pairwise (· < ·))
    : let last := (front ++ c :: back).getLast (by simp)
      (back = [] ∧ last = c) ∨ (back ≠ [] ∧ c < last) := by
  obtain ⟨_, hlt⟩ := lt_of_sorted hsorted
  cases back with
  | nil => simp
  | cons b back =>
    right
    refine ⟨List.cons_ne_nil b back, ?_⟩
    have hlast : (front ++ c :: b :: back).getLast (by simp) = (b :: back).getLast (by simp) := by
      rw [List.getLast_append_of_ne_nil (by simp) (by simp), List.getLast_cons (by simp)]
    rw [hlast]
    exact hlt _ (List.getLast_mem _)

/-- The user BAR is one before the config BAR. -/
theorem Bars.Told.user_lt (h : s.Told front c back) (hsorted : (front ++ c :: back).Pairwise (· < ·))
    : s.userBarIdx = -1 ∨ (0 ≤ s.userBarIdx ∧ s.userBarIdx < s.configBarIdx) := by
  obtain ⟨hlt, _⟩ := lt_of_sorted hsorted
  rw [h.user, h.config]
  split
  . next hset =>
    right
    match front with
    | u :: front =>
      have := hlt u List.mem_cons_self
      simp only [List.cons_append, List.head_cons]
      omega
  . left
    rfl

/-- The bypass BAR is never number 0, which is taken for none. -/
theorem Bars.Told.bypass_pos (h : s.Told front c back) (hsorted : (front ++ c :: back).Pairwise (· < ·))
    : s.bypassBarIdx = -1 ∨ (0 < s.bypassBarIdx ∧ s.configBarIdx ≤ s.bypassBarIdx) := by
  obtain ⟨hlt, _⟩ := lt_of_sorted hsorted
  have hlast := getLast_of_sorted hsorted
  rw [h.bypass, h.config]
  split
  . next hset =>
    right
    have hpos : back = [] → 0 < c := by
      intro hnil
      match front with
      | [] => simp [hnil] at hset
      | u :: _ =>
        have := hlt u List.mem_cons_self
        omega
    cases hlast with
    | inl hnil =>
      have := hpos hnil.1
      omega
    | inr hcons => omega
  . left
    rfl

/-- With three BARs and the config BAR last, it is told to be the bypass BAR as well. -/
theorem Bars.Told.bypass_eq_config (h : s.Told front c back)
    (hsorted : (front ++ c :: back).Pairwise (· < ·))
    : s.bypassBarIdx = s.configBarIdx ↔ front.length = 2 ∧ back = [] := by
  have hlast := getLast_of_sorted hsorted
  have hlen : back = [] ↔ back.length = 0 := List.length_eq_zero_iff.symm
  rw [h.bypass, h.config]
  split
  . next hset =>
    rw [ne_eq, hlen] at hlast
    rw [hlen]
    omega
  . next hset =>
    rw [hlen]
    omega

end Roles

theorem mem_present {p : PciBars} {k : Nat}
    : k ∈ p.present ↔ k < xdmaBarNum ∧ p.len k ≠ 0 := by
  rw [PciBars.present, List.mem_filter, List.mem_range, bne_iff_ne]

theorem present_sorted (p : PciBars)
    : p.present.Pairwise (· < ·) :=
  List.Pairwise.filter _ List.pairwise_lt_range

/-- The config BAR is at the position that is noted for it. -/
theorem MapInv.split {p : PciBars} {s : Bars} {barIdList : List Nat} {configBarPos : Nat}
    (h : MapInv p s barIdList configBarPos xdmaBarNum) {c : Nat} (hc : barIdList.find? p.candidate = some c)
    : ∃ front back,
        barIdList = front ++ c :: back ∧ configBarPos = front.length ∧ s.configBarIdx = c
          ∧
        ∀ k ∈ front, p.candidate k = false := by
  obtain ⟨hidx, hpos⟩ := h.found c hc
  obtain ⟨_, front, back, hsplit, hfront⟩ := List.find?_eq_some_iff_append.mp hc
  refine ⟨front, back, hsplit, ?_, hidx, fun k hk => by simpa using hfront k hk⟩
  have hnodup : barIdList.Nodup := by
    rw [h.list]
    exact List.Nodup.filter _ List.nodup_range
  have hlt := (List.getElem?_eq_some_iff.mp hpos).1
  have hat : barIdList[front.length]? = some c := by simp [hsplit]
  exact (List.getElem?_inj hlt hnodup).mp (hpos.trans hat.symm)

/-- Every BAR of the device can be mapped, and one of them is a candidate. -/
def PciBars.Mappable (p : PciBars) : Prop :=
  (∀ k ∈ p.present, p.iomap k = true) ∧ ∃ k ∈ p.present, p.candidate k = true

/-- Either nothing is left mapped, or all BARs are, with the config BAR behind those that are no candidate. -/
theorem mapBars_cases (p : PciBars)
    : let r := mapBars p .init
      (r.2 = some .einval ∧ ¬ p.Mappable ∧ Sound r.1.calls ∧ held r.1.calls = [])
        ∨
      (p.Mappable ∧ ∃ s front c back,
        p.present = front ++ c :: back ∧ p.candidate c = true ∧ (∀ k ∈ front, p.candidate k = false)
          ∧
        MapInv p s p.present front.length xdmaBarNum ∧ s.configBarIdx = c
          ∧
        r = (identifyBars s p.present front.length, none)) := by
  obtain ⟨hsome, hnone⟩ := mapBarsLoop_spec xdmaBarNum 0 (by decide) (MapInv.init p)
  unfold mapBars
  cases hloop : mapBarsLoop p xdmaBarNum 0 .init [] 0 with
  | mk s r =>
    rw [hloop] at hsome hnone
    dsimp only at hsome hnone
    cases r with
    | none =>
      left
      obtain ⟨hkept, k, hk, hlen, hok⟩ := hnone rfl
      refine ⟨rfl, ?_, unmapBars_spec hkept⟩
      intro h
      rw [h.1 k (mem_present.mpr ⟨hk, hlen⟩)] at hok
      contradiction
    | some r =>
      obtain ⟨barIdList, configBarPos⟩ := r
      have hinv := hsome barIdList configBarPos rfl
      rw [Nat.zero_add] at hinv
      have hpresent : barIdList = p.present := hinv.list
      subst hpresent
      cases hfind : p.present.find? p.candidate with
      | none =>
        left
        have hneg : s.configBarIdx < 0 := by
          rw [hinv.missing hfind]
          decide
        simp only [if_pos hneg]
        refine ⟨trivial, ?_, unmapBars_spec hinv.kept⟩
        rintro ⟨_, k, hk, hcand⟩
        rw [List.find?_eq_none] at hfind
        exact hfind k hk hcand
      | some c =>
        right
        obtain ⟨front, back, hsplit, hat, hidx, hfront⟩ := hinv.split hfind
        subst hat
        have hcand := List.find?_some hfind
        have hneg : ¬ s.configBarIdx < 0 := by omega
        simp only [if_neg hneg]
        exact ⟨⟨hinv.iomap, c, List.mem_of_find?_eq_some hfind, hcand⟩, s, front, c, back, hsplit, hcand, hfront,
          hinv, hidx, rfl⟩

theorem mapBars_undone {p : PciBars} (h : (mapBars p .init).2 ≠ none)
    : Sound (mapBars p .init).1.calls ∧ held (mapBars p .init).1.calls = [] := by
  rcases mapBars_cases p with ⟨_, _, hundone⟩ | ⟨_, s, front, c, back, _, _, _, _, _, heq⟩
  . exact hundone
  . rw [heq] at h
    contradiction

theorem mapBars_kept {p : PciBars} (h : (mapBars p .init).2 = none)
    : (mapBars p .init).1.Kept
        ∧
      ∀ k, k ∈ held (mapBars p .init).1.calls ↔ k ∈ p.present := by
  rcases mapBars_cases p with ⟨hrv, _⟩ | ⟨_, s, front, c, back, _, _, _, hinv, _, heq⟩
  . rw [hrv] at h
    contradiction
  . obtain ⟨user, bypass, hframe⟩ := identifyBars_frame s p.present front.length
    rw [heq]
    dsimp only
    rw [hframe]
    refine ⟨⟨hinv.kept.tracks, hinv.kept.bound⟩, ?_⟩
    intro k
    rw [hinv.kept.tracks.mem, hinv.mapped]

theorem mapBars_config {p : PciBars} (h : (mapBars p .init).2 = none)
    : ∃ c ∈ p.present, (mapBars p .init).1.configBarIdx = c := by
  rcases mapBars_cases p with ⟨hrv, _⟩ | ⟨_, s, front, c, back, hsplit, _, _, _, hidx, heq⟩
  . rw [hrv] at h
    contradiction
  . obtain ⟨user, bypass, hframe⟩ := identifyBars_frame s p.present front.length
    refine ⟨c, by simp [hsplit], ?_⟩
    rw [heq]
    dsimp only
    rw [hframe]
    exact hidx

/--
Mapping the BARs succeeds exactly when each one that is there can be mapped and one of them is a candidate for
the config BAR. If it fails then nothing is left mapped. If it succeeds then the first candidate is the config
BAR, and by its position the first BAR is the user BAR and the last one the bypass BAR.
-/
theorem mapBars_spec (p : PciBars)
    : let s := (mapBars p .init).1
      let rv := (mapBars p .init).2
      (rv = none ↔ p.Mappable)
        ∧
      (rv ≠ none → rv = some .einval ∧ Sound s.calls ∧ held s.calls = [])
        ∧
      (rv = none →
        (∀ k, k ∈ held s.calls ↔ k ∈ p.present)
          ∧
        (∃ front c back,
          p.present = front ++ c :: back ∧ p.candidate c = true ∧ (∀ k ∈ front, p.candidate k = false)
            ∧
          s.Told front c back
            ∧
          (s.bypassBarIdx = s.configBarIdx ↔ front.length = 2 ∧ back = []))
          ∧
        (s.userBarIdx = -1 ∨ (0 ≤ s.userBarIdx ∧ s.userBarIdx < s.configBarIdx))
          ∧
        (s.bypassBarIdx = -1 ∨ (0 < s.bypassBarIdx ∧ s.configBarIdx ≤ s.bypassBarIdx))
          ∧
        Sound (unmapBars s).calls ∧ held (unmapBars s).calls = []) := by
  have hundone := @mapBars_undone p
  have hkept := @mapBars_kept p
  rcases mapBars_cases p with ⟨hrv, hnot, _⟩ | ⟨hall, s, front, c, back, hsplit, hcand, hfront, hinv, hidx, heq⟩
  . rw [hrv] at hundone hkept ⊢
    refine ⟨iff_of_false (by simp) hnot, fun h => ⟨rfl, hundone h⟩, fun h => by simp at h⟩
  . have htold : (identifyBars s p.present front.length).Told front c back := by
      rw [hsplit]
      exact identifyBars_told hidx hinv.others
    have hsorted : (front ++ c :: back).Pairwise (· < ·) := by
      rw [← hsplit]
      exact present_sorted p
    rw [heq] at hkept ⊢
    obtain ⟨hkept, hheld⟩ := hkept rfl
    refine ⟨iff_of_true rfl hall, fun h => absurd rfl h, fun _ => ⟨hheld, ?_, ?_, ?_, unmapBars_spec hkept⟩⟩
    . exact ⟨front, c, back, hsplit, hcand, hfront, htold, htold.bypass_eq_config hsorted⟩
    . exact htold.user_lt hsorted
    . exact htold.bypass_pos hsorted

/-- Three BARs, of which the last is the config BAR. -/
example
    : let p : PciBars :=
        ⟨fun k => if k < 3 then 0x10000 else 0, fun _ => true,
          fun k => if k = 2 then 0x1fc20006 else 0, fun k => if k = 2 then 0x1fc30006 else 0⟩
      let s := (mapBars p .init).1
      s.userBarIdx = 0 ∧ s.configBarIdx = 2 ∧ s.bypassBarIdx = 2 := by
  decide

end Xdma
