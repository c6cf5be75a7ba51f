import ReferenceProjects.UdpClient.Impl
import Mathlib.Algebra.BigOperators.Group.Finset.Basic

/-!
This module contains the identifiers of the datagrams that a server gets from each of the sockets of the UDP
performance client in a whole session, and that the client counts all of them.
-/

namespace UdpClient

/-- The identifiers of a socket, when `m` is the next one: in order and without a gap, each at least once. -/
structure Numbered (m : Nat) (ids : List Nat) : Prop where
  sorted : ids.Pairwise (· ≤ ·)
  le : ∀ k ∈ ids, k ≤ m
  mem : ∀ k < m, k ∈ ids

section Numbered

variable {m : Nat} {ids : List Nat} (h : Numbered m ids)
include h

theorem Numbered.sorted_append
    : (ids ++ [m]).Pairwise (· ≤ ·) := by
  rw [List.pairwise_append]
  refine ⟨h.sorted, List.pairwise_singleton _ _, ?_⟩
  intro k hk k' hk'
  rw [List.mem_singleton] at hk'
  subst hk'
  exact h.le k hk

/-- A datagram whose number is kept, since the call ends before the last socket. -/
theorem Numbered.again
    : Numbered m (ids ++ [m]) where
  sorted := h.sorted_append
  le := by
    intro k hk
    rw [List.mem_append, List.mem_singleton] at hk
    obtain hk | rfl := hk
    . exact h.le k hk
    . exact Nat.le_refl _
  mem := fun k hk => List.mem_append_left _ (h.mem k hk)

theorem Numbered.next
    : Numbered (m + 1) (ids ++ [m]) where
  sorted := h.sorted_append
  le := fun k hk => Nat.le_succ_of_le (h.again.le k hk)
  mem := by
    intro k hk
    rw [List.mem_append, List.mem_singleton]
    by_cases hm : k = m
    . exact Or.inr hm
    . exact Or.inl (h.mem k (by omega))

end Numbered

/--
What socket `j` of `num` has sent, when `m` is the next number. The last socket repeats no number, and no
socket does when the sockets are served as a `whole`.
-/
structure SocketIds (num : Nat) (whole : Prop) (j m : Nat) (ids : List Nat) : Prop where
  numbered : Numbered m ids
  eq_range : j + 1 = num ∨ whole → ids = List.range m

theorem SocketIds.nil (num : Nat) (whole : Prop) (j : Nat)
    : SocketIds num whole j 0 [] where
  numbered := by
    refine ⟨List.Pairwise.nil, ?_, ?_⟩
    . intro k hk
      contradiction
    . intro k hk
      contradiction
  eq_range := fun _ => rfl

theorem SocketIds.next {num j m : Nat} {whole : Prop} {ids : List Nat} (h : SocketIds num whole j m ids)
    : SocketIds num whole j (m + 1) (ids ++ [m]) where
  numbered := h.numbered.next
  eq_range := by
    intro hj
    rw [List.range_succ, h.eq_range hj]

/-- If there is a buffer for the first socket, there is one for each. -/
def TransferEnv.Whole (num : Nat) (env : TransferEnv) : Prop :=
  env.pbufAlloc 0 = true → ∀ j < num, env.pbufAlloc j = true

section Call

/-- The turn of one socket in `udp_packet_send()`. -/
def Client.turn (s : Client) (env : TransferEnv) (finished : Bool) (i retries : Nat) : Client × Nat :=
  let s := if finished then { s with packetId := -1 } else s
  let (s, retries) := sendRetries (env.udpSend i) i retries 0 s
  let s := if retries = 0 then s.clearPcb i else s
  (if finished then s.clearPcb i else s, retries)

theorem packetSendLoop_succ (s : Client) (env : TransferEnv) (finished : Bool) (n i retries : Nat)
    : packetSendLoop env finished (n + 1) i retries s
        =
      if env.pbufAlloc i then
        packetSendLoop env finished n (i + 1) (s.turn env finished i retries).2
          (s.turn env finished i retries).1
      else
        (s, true) := rfl

-- the sockets take their turns in order, up to the first one for which there is no buffer
theorem packetSendLoop_turns {P : Nat → Client → Prop} {env : TransferEnv} {finished : Bool} {num : Nat}
    (hturn : ∀ s i retries, i < num → P i s → P (i + 1) (s.turn env finished i retries).1)
    {n i retries : Nat} {s : Client} (hn : i + n = num) (halloc : 0 < i → env.pbufAlloc 0 = true) (h : P i s)
    : ∃ k ≤ num, P k (packetSendLoop env finished n i retries s).1
      ∧ ((packetSendLoop env finished n i retries s).2 = true ↔ k < num)
      ∧ (k < num → env.pbufAlloc k = false ∧ (0 < k → env.pbufAlloc 0 = true)) := by
  induction n generalizing i retries s with
  | zero =>
    refine ⟨i, by omega, h, ?_, by omega⟩
    simp only [packetSendLoop, Bool.false_eq_true, false_iff]
    omega
  | succ n ih =>
    rw [packetSendLoop_succ]
    split
    case isTrue hi =>
      apply ih (by omega) _ (hturn s i retries (by omega) h)
      intro _
      by_cases hzero : i = 0
      . rw [← hzero]
        exact hi
      . exact halloc (by omega)
    case isFalse hi =>
      exact ⟨i, by omega, h, iff_of_true rfl (by omega), fun _ => ⟨Bool.eq_false_iff.mpr hi, halloc⟩⟩

/-- A call takes the turns of the first sockets, and of all of them if the identifier goes on. -/
theorem udpPacketSend_turns {P : Nat → Client → Prop} {env : TransferEnv} {finished : Bool} {num : Nat}
    (hturn : ∀ s i retries, i < num → P i s → P (i + 1) (s.turn env finished i retries).1)
    {s : Client} (h : P 0 s)
    : ∃ k ≤ num, ∃ s', P k s' ∧ (env.Whole num → k < num → k = 0)
      ∧ udpPacketSend num env finished s
        = if k < num then s' else { s' with packetId := s'.packetId + 1 } := by
  obtain ⟨r, hr⟩ : ∃ r, packetSendLoop env finished num 0 maxSendRetry s = r := ⟨_, rfl⟩
  obtain ⟨k, hk, hP, hend, halloc⟩ : ∃ k ≤ num, P k r.1 ∧ (r.2 = true ↔ k < num)
      ∧ (k < num → env.pbufAlloc k = false ∧ (0 < k → env.pbufAlloc 0 = true)) := by
    rw [← hr]
    exact packetSendLoop_turns hturn (Nat.zero_add num) (fun h => absurd h (Nat.lt_irrefl 0)) h
  obtain ⟨s', early⟩ := r
  refine ⟨k, hk, s', hP, ?_, ?_⟩
  . intro hwhole hlt
    by_contra hne
    have htrue := hwhole ((halloc hlt).2 (by omega)) k hlt
    rw [(halloc hlt).1] at htrue
    contradiction
  . unfold udpPacketSend
    rw [hr]
    cases early with
    | false => rw [if_neg (fun h => Bool.false_ne_true (hend.mpr h))]
    | true => rw [if_pos (hend.mp rfl)]

/-- Either an attempt succeeds, or no retries are left. -/
theorem sendRetries_cases (udpSend : Nat → Bool) (i retries attempt : Nat) (s : Client)
    : (∃ left, sendRetries udpSend i retries attempt s = (s.sent i, left + 1))
      ∨ sendRetries udpSend i retries attempt s = (s, 0) := by
  induction retries generalizing attempt with
  | zero => exact Or.inr rfl
  | succ retries ih =>
    unfold sendRetries
    split
    . exact Or.inl ⟨retries, rfl⟩
    . exact ih (attempt + 1)

variable {num : Nat} {env : TransferEnv} {finished : Bool}

/-- The identifier that a call sends. -/
def Client.callId (s : Client) (finished : Bool) : BitVec 32 := if finished then -1 else s.packetId

/-- The client after the first `k` sockets had their turn in a call. -/
structure Client.Served (s : Client) (finished : Bool) (k : Nat) (s' : Client) : Prop where
  packetId : s'.packetId = if k = 0 then s.packetId else s.callId finished
  rest : ∀ j, k ≤ j → s'.wire j = s.wire j ∧ s'.pcb j = s.pcb j
  turned : ∀ j < k,
    s'.wire j = s.wire j ++ [s.callId finished] ∧ (finished = true → s'.pcb j = false)
      ∨ s'.wire j = s.wire j ∧ s'.pcb j = false

theorem Client.Served.refl (s : Client) (finished : Bool)
    : s.Served finished 0 s where
  packetId := rfl
  rest := fun _ _ => ⟨rfl, rfl⟩
  turned := fun _ hj => absurd hj (Nat.not_lt_zero _)

/-- The identifier of the call is set. -/
def Client.withId (s : Client) (finished : Bool) : Client := { s with packetId := s.callId finished }

theorem withId_of_finished (s : Client)
    : (if finished then { s with packetId := -1 } else s : Client) = s.withId finished := by
  cases finished with
  | false => rfl
  | true => rfl

theorem clearPcb_clearPcb (s : Client) (i : Nat)
    : (s.clearPcb i).clearPcb i = s.clearPcb i := by
  apply Client.ext
  . apply Function.update_idem
  . rfl
  . rfl
  . rfl

/-- A turn sends the identifier of the call, or it closes the socket; the last call closes it in any case. -/
theorem turn_cases (s : Client) (env : TransferEnv) (finished : Bool) (i retries : Nat)
    : finished = false ∧ (s.turn env finished i retries).1 = (s.withId finished).sent i
      ∨ finished = true ∧ (s.turn env finished i retries).1 = ((s.withId finished).sent i).clearPcb i
      ∨ (s.turn env finished i retries).1 = (s.withId finished).clearPcb i := by
  unfold Client.turn
  rw [withId_of_finished]
  dsimp only
  obtain ⟨left, hsend⟩ | hsend := sendRetries_cases (env.udpSend i) i retries 0 (s.withId finished)
  . rw [hsend]
    cases finished with
    | false => exact Or.inl ⟨rfl, rfl⟩
    | true => exact Or.inr (Or.inl ⟨rfl, rfl⟩)
  . rw [hsend]
    apply Or.inr
    apply Or.inr
    cases finished with
    | false => rfl
    | true => exact clearPcb_clearPcb _ i

theorem Client.Served.callId_eq {s s' : Client} {k : Nat} (h : s.Served finished k s')
    : s'.callId finished = s.callId finished := by
  unfold Client.callId
  rw [h.packetId]
  cases finished with
  | false => exact ite_self _
  | true => rfl

/-- What a turn of socket `k` does to the sockets makes the client served up to `k + 1`. -/
theorem Client.Served.succ {s s' t : Client} {k : Nat} (h : s.Served finished k s')
    (hid : t.packetId = s'.callId finished)
    (hrest : ∀ j ≠ k, t.wire j = s'.wire j ∧ t.pcb j = s'.pcb j)
    (hturn : t.wire k = s'.wire k ++ [s'.callId finished] ∧ (finished = true → t.pcb k = false)
      ∨ t.wire k = s'.wire k ∧ t.pcb k = false)
    : s.Served finished (k + 1) t where
  packetId := by
    rw [if_neg (Nat.succ_ne_zero k), hid, h.callId_eq]
  rest := by
    intro j hj
    rw [(hrest j (by omega)).1, (hrest j (by omega)).2]
    exact h.rest j (by omega)
  turned := by
    intro j hj
    by_cases hjk : j = k
    . subst hjk
      rw [h.callId_eq, (h.rest j (Nat.le_refl j)).1] at hturn
      exact hturn
    . rw [(hrest j hjk).1, (hrest j hjk).2]
      exact h.turned j (by omega)

theorem Client.Served.turn {s s' : Client} {k : Nat} (h : s.Served finished k s') (retries : Nat)
    : s.Served finished (k + 1) (s'.turn env finished k retries).1 := by
  obtain ⟨hfin, hturn⟩ | ⟨-, hturn⟩ | hturn := turn_cases s' env finished k retries
  . rw [hturn]
    apply h.succ rfl
    . exact fun j hj => ⟨Function.update_of_ne hj _ _, rfl⟩
    . refine Or.inl ⟨Function.update_self _ _ _, ?_⟩
      intro htrue
      rw [hfin] at htrue
      contradiction
  . rw [hturn]
    apply h.succ rfl
    . exact fun j hj => ⟨Function.update_of_ne hj _ _, Function.update_of_ne hj _ _⟩
    . exact Or.inl ⟨Function.update_self _ _ _, fun _ => Function.update_self _ _ _⟩
  . rw [hturn]
    apply h.succ rfl
    . exact fun j hj => ⟨rfl, Function.update_of_ne hj _ _⟩
    . exact Or.inr ⟨rfl, Function.update_self _ _ _⟩

theorem udpPacketSend_served (s : Client)
    : ∃ k ≤ num, ∃ s', s.Served finished k s' ∧ (env.Whole num → k < num → k = 0)
      ∧ udpPacketSend num env finished s
        = if k < num then s' else { s' with packetId := s'.packetId + 1 } :=
  udpPacketSend_turns (P := fun k s' => s.Served finished k s') (fun _ _ retries _ h => h.turn retries)
    (Client.Served.refl s finished)

end Call

section Session

variable {num : Nat} {whole : Prop}

/-- The datagrams of a socket: the numbers it has sent, and on a closed socket perhaps the last one. -/
def Client.Sent (s : Client) (num : Nat) (whole : Prop) (j : Nat) : Prop :=
  ∃ m ids, SocketIds num whole j m ids
    ∧ (s.wire j = ids.map (BitVec.ofNat 32)
      ∨ s.pcb j = false ∧ s.wire j = ids.map (BitVec.ofNat 32) ++ [-1])

/-- All sockets are open, and `m` is the next number. -/
structure Client.Running (num : Nat) (whole : Prop) (m : Nat) (s : Client) : Prop where
  pcb : ∀ j < num, s.pcb j = true
  packetId : s.packetId = BitVec.ofNat 32 m
  sent : ∀ j < num, ∃ ids, SocketIds num whole j m ids ∧ s.wire j = ids.map (BitVec.ofNat 32)

/-- A socket is closed, or was never made. -/
structure Client.Over (num : Nat) (whole : Prop) (s : Client) : Prop where
  pcb : ¬ ∀ j < num, s.pcb j = true
  sent : ∀ j < num, s.Sent num whole j

theorem map_append_ofNat {m : Nat} {ids : List Nat} {wire : List (BitVec 32)}
    (h : wire = ids.map (BitVec.ofNat 32))
    : wire ++ [BitVec.ofNat 32 m] = (ids ++ [m]).map (BitVec.ofNat 32) := by
  rw [h, List.map_append]
  rfl

section Served

variable {s s' : Client} {m k : Nat} {finished : Bool} (h : s.Running num whole m) (hs : s.Served finished k s')
include h hs

theorem Client.Running.sent_of_served {j : Nat} (hj : j < num)
    : s'.Sent num whole j := by
  obtain ⟨ids, hids, hwire⟩ := h.sent j hj
  by_cases hjk : j < k
  . obtain ⟨hsent, hclosed⟩ | ⟨hsent, -⟩ := hs.turned j hjk
    . rw [hwire] at hsent
      cases finished with
      | false =>
        refine ⟨m + 1, ids ++ [m], hids.next, Or.inl ?_⟩
        rw [hsent, ← map_append_ofNat rfl, ← h.packetId]
        rfl
      | true => exact ⟨m, ids, hids, Or.inr ⟨hclosed rfl, hsent⟩⟩
    . exact ⟨m, ids, hids, Or.inl (hsent.trans hwire)⟩
  . exact ⟨m, ids, hids, Or.inl ((hs.rest j (by omega)).1.trans hwire)⟩

omit h in
/-- A socket that stays open has sent the identifier, in a call that is not the last one. -/
theorem Client.Served.of_open {j : Nat} (hj : j < k) (hopen : s'.pcb j = true)
    : finished = false ∧ s'.wire j = s.wire j ++ [s.packetId] := by
  obtain ⟨hsent, hclosed⟩ | ⟨-, hclosed⟩ := hs.turned j hj
  . cases finished with
    | false => exact ⟨rfl, hsent⟩
    | true =>
      rw [hclosed rfl] at hopen
      contradiction
  . rw [hclosed] at hopen
    contradiction

variable (hopen : ∀ j < num, s'.pcb j = true)
include hopen

theorem Client.Running.packetId_of_open (hk : k ≤ num)
    : s'.packetId = BitVec.ofNat 32 m := by
  rw [hs.packetId, ← h.packetId]
  split
  . rfl
  . obtain ⟨hfin, -⟩ := hs.of_open (j := 0) (by omega) (hopen 0 (by omega))
    rw [hfin]
    rfl

theorem Client.Running.wire_of_open {j : Nat} (hk : k ≤ num) (hj : j < k)
    : ∃ ids, SocketIds num whole j m ids ∧ s'.wire j = (ids ++ [m]).map (BitVec.ofNat 32) := by
  obtain ⟨ids, hids, hwire⟩ := h.sent j (by omega)
  refine ⟨ids, hids, ?_⟩
  rw [(hs.of_open hj (hopen j (by omega))).2, h.packetId]
  exact map_append_ofNat hwire

/-- There is no buffer for socket `k`: the sockets before it send the number once more in the next call. -/
theorem Client.Running.again (hk : k < num) (hwhole : whole → k = 0)
    : s'.Running num whole m where
  pcb := hopen
  packetId := h.packetId_of_open hs hopen (by omega)
  sent := by
    intro j hj
    by_cases hjk : j < k
    . obtain ⟨ids, hids, hwire⟩ := h.wire_of_open hs hopen (by omega) hjk
      refine ⟨ids ++ [m], ⟨hids.numbered.again, ?_⟩, hwire⟩
      rintro (hlast | hw)
      . omega
      . have := hwhole hw
        omega
    . obtain ⟨ids, hids, hwire⟩ := h.sent j hj
      exact ⟨ids, hids, (hs.rest j (by omega)).1.trans hwire⟩

theorem Client.Running.next (hk : k = num)
    : { s' with packetId := s'.packetId + 1 }.Running num whole (m + 1) where
  pcb := hopen
  packetId := by
    rw [h.packetId_of_open hs hopen (by omega)]
    exact (BitVec.ofNat_add _ _).symm
  sent := by
    intro j hj
    obtain ⟨ids, hids, hwire⟩ := h.wire_of_open hs hopen (by omega) (by omega : j < k)
    exact ⟨ids ++ [m], hids.next, hwire⟩

end Served

/-- A session goes on, or not all sockets are open. -/
def Client.InSession (num : Nat) (whole : Prop) (s : Client) : Prop :=
  (∃ m, s.Running num whole m) ∨ s.Over num whole

theorem Client.Running.udpPacketSend {s : Client} {m : Nat} (h : s.Running num whole m) {env : TransferEnv}
    (hwhole : whole → env.Whole num) (finished : Bool)
    : (UdpClient.udpPacketSend num env finished s).InSession num whole := by
  obtain ⟨k, hk, s', hs, hzero, hcall⟩ : ∃ k ≤ num, ∃ s', _ := udpPacketSend_served s
  rw [hcall]
  by_cases hopen : ∀ j < num, s'.pcb j = true
  . apply Or.inl
    split
    case isTrue hlt => exact ⟨m, h.again hs hopen hlt (fun hw => hzero (hwhole hw) hlt)⟩
    case isFalse hlt => exact ⟨m + 1, h.next hs hopen (by omega)⟩
  . apply Or.inr
    split
    . exact ⟨hopen, fun j hj => h.sent_of_served hs hj⟩
    . exact ⟨hopen, fun j hj => h.sent_of_served hs hj⟩

theorem interimReport_eq (s : Client) (now : BitVec 64)
    : ∃ start total, s.interimReport now
        = { s with client := { s.client with reportStartTime := start, reportTotalBytes := total } } := by
  unfold Client.interimReport
  split
  . split
    . exact ⟨_, _, rfl⟩
    . exact ⟨_, _, rfl⟩
  . exact ⟨_, _, rfl⟩

theorem Client.Running.interimReport {s : Client} {m : Nat} (h : s.Running num whole m) (now : BitVec 64)
    : (s.interimReport now).Running num whole m := by
  obtain ⟨start, total, hreport⟩ := interimReport_eq s now
  rw [hreport]
  exact ⟨h.pcb, h.packetId, h.sent⟩

/-- A call reports and sends, as long as all sockets are open. -/
theorem transferData_cases (s : Client) (env : TransferEnv)
    : (∀ j < num, s.pcb j = true)
        ∧ (∃ finished, transferData num s env = udpPacketSend num env finished (s.interimReport env.now))
      ∨ (¬ ∀ j < num, s.pcb j = true) ∧ transferData num s env = s := by
  unfold transferData
  split
  case isTrue hopen =>
    rw [List.all_eq_true] at hopen
    refine Or.inl ⟨fun j hj => hopen j (List.mem_range.mpr hj), ?_⟩
    dsimp only
    split
    . exact ⟨true, rfl⟩
    . exact ⟨false, rfl⟩
  case isFalse hopen =>
    rw [List.all_eq_true] at hopen
    exact Or.inr ⟨fun h => hopen (fun j hj => h j (List.mem_range.mp hj)), rfl⟩

theorem Client.InSession.transferData {s : Client} (h : s.InSession num whole) {env : TransferEnv}
    (hwhole : whole → env.Whole num)
    : (UdpClient.transferData num s env).InSession num whole := by
  obtain ⟨hopen, finished, hcall⟩ | ⟨-, hcall⟩ := transferData_cases s env
  . rw [hcall]
    obtain ⟨m, hrun⟩ | hover := h
    . exact (hrun.interimReport env.now).udpPacketSend hwhole finished
    . exact absurd hopen hover.pcb
  . rw [hcall]
    exact h

theorem startApplication_inSession (num : Nat) (whole : Prop) (start : StartEnv)
    : (startApplication num start).InSession num whole := by
  by_cases hopen : ∀ j < num, (startApplication num start).pcb j = true
  . apply Or.inl
    refine ⟨0, hopen, rfl, ?_⟩
    intro j _
    exact ⟨[], SocketIds.nil num whole j, rfl⟩
  . apply Or.inr
    refine ⟨hopen, ?_⟩
    intro j _
    exact ⟨0, [], SocketIds.nil num whole j, Or.inl rfl⟩

end Session

section Start

variable {start : StartEnv}

/-- The loop leaves a socket set that it could not connect, so that the last one need not be connected. -/
theorem connectLoop_open_iff {n i : Nat} {pcb : Nat → Bool} (hset : ∀ j < i, pcb j = true)
    (hnone : ∀ j, i ≤ j → pcb j = false)
    : (∀ j < i + n, (connectLoop start n i pcb).1 j = true)
        ↔
      ∀ j < i + n, i ≤ j → start.udpNew j = true ∧ (start.udpConnect j = true ∨ j + 1 = i + n) := by
  induction n generalizing i pcb with
  | zero => exact iff_of_true hset (fun j hj hij => by omega)
  | succ n ih =>
    have hset' : ∀ j < i + 1, Function.update pcb i true j = true := by
      intro j hj
      by_cases hji : j = i
      . rw [hji, Function.update_self]
      . rw [Function.update_of_ne hji]
        exact hset j (by omega)
    have hnone' : ∀ j, i + 1 ≤ j → Function.update pcb i true j = false := by
      intro j hj
      rw [Function.update_of_ne (by omega)]
      exact hnone j (by omega)
    unfold connectLoop
    split
    case isTrue hnew =>
      dsimp only
      split
      case isTrue hconnect =>
        have hn : i + (n + 1) = i + 1 + n := by omega
        rw [hn, ih hset' hnone']
        constructor
        . intro h j hj hij
          by_cases hji : j = i
          . rw [hji]
            exact ⟨hnew, Or.inl hconnect⟩
          . exact h j hj (by omega)
        . exact fun h j hj hij => h j hj (by omega)
      case isFalse hconnect =>
        by_cases hn : n = 0
        . subst hn
          refine iff_of_true hset' ?_
          intro j hj hij
          have hji : j = i := by omega
          rw [hji]
          exact ⟨hnew, Or.inr rfl⟩
        . apply iff_of_false
          . intro h
            have hfalse := hnone' (i + 1) (Nat.le_refl _)
            exact Bool.false_ne_true (hfalse.symm.trans (h (i + 1) (by omega)))
          . intro h
            obtain h | h := (h i (by omega) (Nat.le_refl i)).2
            . exact hconnect h
            . omega
    case isFalse hnew =>
      apply iff_of_false
      . intro h
        have hfalse := hnone i (Nat.le_refl i)
        exact Bool.false_ne_true (hfalse.symm.trans (h i (by omega)))
      . exact fun h => hnew (h i (by omega) (Nat.le_refl i)).1

/-- All sockets can be made, and all but the last connected. -/
def StartEnv.Opens (num : Nat) (start : StartEnv) : Prop :=
  ∀ j < num, start.udpNew j = true ∧ (start.udpConnect j = true ∨ j + 1 = num)

theorem startApplication_open_iff (num : Nat) (start : StartEnv)
    : (∀ j < num, (startApplication num start).pcb j = true) ↔ start.Opens num := by
  have h : (∀ j < 0 + num, (connectLoop start num 0 (fun _ => false)).1 j = true) ↔ _ :=
    connectLoop_open_iff (fun _ hj => absurd hj (Nat.not_lt_zero _)) (fun _ _ => rfl)
  simp only [Nat.zero_add, Nat.zero_le, true_implies] at h
  exact h

/--
A session goes on exactly after a start that makes all sockets and connects all but the last, also if that one
was removed. After any other start nothing is sent.
-/
theorem startApplication_spec (num : Nat) (start : StartEnv)
    : ((∀ j < num, (startApplication num start).pcb j = true) ↔ start.Opens num)
        ∧
      (¬ start.Opens num → ∀ envs, session num start envs = startApplication num start) := by
  refine ⟨startApplication_open_iff num start, ?_⟩
  intro hfails envs
  rw [← startApplication_open_iff] at hfails
  refine List.foldlRecOn (motive := fun s => s = startApplication num start) envs _ rfl ?_
  rintro s rfl env _
  obtain ⟨hopen, -⟩ | ⟨-, hcall⟩ := transferData_cases (startApplication num start) env
  . exact absurd hopen hfails
  . exact hcall

end Start

section Count

variable {num : Nat}

/-- The datagrams that were sent on all sockets. -/
def Client.datagrams (s : Client) (num : Nat) : Nat := ∑ j ∈ Finset.range num, (s.wire j).length

/-- The client counts all datagrams and their bytes. -/
structure Client.Counted (num : Nat) (s : Client) : Prop where
  cntDatagrams : s.client.cntDatagrams = BitVec.ofNat 64 (s.datagrams num)
  totalBytes : s.client.totalBytes = BitVec.ofNat 64 (udpSendBufsize * s.datagrams num)

theorem datagrams_sent (s : Client) {i : Nat} (hi : i < num)
    : (s.sent i).datagrams num = s.datagrams num + 1 := by
  unfold Client.datagrams
  have hmem := Finset.mem_range.mpr hi
  rw [← Finset.add_sum_erase _ _ hmem, ← Finset.add_sum_erase _ (fun j => (s.wire j).length) hmem]
  have hself : ((s.sent i).wire i).length = (s.wire i).length + 1 := by
    rw [show (s.sent i).wire i = s.wire i ++ [s.packetId] from Function.update_self _ _ _]
    exact List.length_append
  have hrest : ∀ j ∈ (Finset.range num).erase i, ((s.sent i).wire j).length = (s.wire j).length := by
    intro j hj
    rw [show (s.sent i).wire j = s.wire j from Function.update_of_ne (Finset.ne_of_mem_erase hj) _ _]
  rw [hself, Finset.sum_congr rfl hrest]
  omega

theorem Client.Counted.sent {s : Client} (h : s.Counted num) {i : Nat} (hi : i < num)
    : (s.sent i).Counted num where
  cntDatagrams := by
    rw [datagrams_sent s hi, BitVec.ofNat_add, ← h.cntDatagrams]
    rfl
  totalBytes := by
    rw [datagrams_sent s hi, Nat.mul_succ, BitVec.ofNat_add, ← h.totalBytes]
    rfl

theorem Client.Counted.turn {s : Client} (h : s.Counted num) (env : TransferEnv) (finished : Bool) {i : Nat}
    (retries : Nat) (hi : i < num)
    : (s.turn env finished i retries).1.Counted num := by
  have hid : (s.withId finished).Counted num := ⟨h.cntDatagrams, h.totalBytes⟩
  obtain ⟨-, hturn⟩ | ⟨-, hturn⟩ | hturn := turn_cases s env finished i retries
  . rw [hturn]
    exact hid.sent hi
  . rw [hturn]
    exact ⟨(hid.sent hi).cntDatagrams, (hid.sent hi).totalBytes⟩
  . rw [hturn]
    exact ⟨hid.cntDatagrams, hid.totalBytes⟩

theorem Client.Counted.udpPacketSend {s : Client} (h : s.Counted num) (env : TransferEnv) (finished : Bool)
    : (UdpClient.udpPacketSend num env finished s).Counted num := by
  obtain ⟨k, -, s', hs, -, hcall⟩ := udpPacketSend_turns (P := fun _ s' => s'.Counted num)
    (fun _ _ retries hi h => h.turn env finished retries hi) h
  rw [hcall]
  split
  . exact hs
  . exact ⟨hs.cntDatagrams, hs.totalBytes⟩

theorem Client.Counted.transferData {s : Client} (h : s.Counted num) (env : TransferEnv)
    : (UdpClient.transferData num s env).Counted num := by
  obtain ⟨-, finished, hcall⟩ | ⟨-, hcall⟩ := transferData_cases s env
  . obtain ⟨start, total, hreport⟩ := interimReport_eq s env.now
    rw [hcall, hreport]
    apply Client.Counted.udpPacketSend
    exact ⟨h.cntDatagrams, h.totalBytes⟩
  . rw [hcall]
    exact h

theorem startApplication_counted (num : Nat) (start : StartEnv)
    : (startApplication num start).Counted num := by
  have hzero : (startApplication num start).datagrams num = 0 := Finset.sum_const_zero
  have hclient : (startApplication num start).client.cntDatagrams = 0
      ∧ (startApplication num start).client.totalBytes = 0 := by
    unfold startApplication
    dsimp only
    split
    . exact ⟨rfl, rfl⟩
    . exact ⟨rfl, rfl⟩
  constructor
  . rw [hzero, hclient.1]
    rfl
  . rw [hzero, hclient.2]
    rfl

end Count

/--
In every session each socket sends its numbers in order and without a gap, then perhaps -1 when it is closed.
As long as all sockets are open, they go on with the same number. The last socket repeats no number, and if a
call that finds a buffer for the first socket finds one for each, no socket does. The client counts all
datagrams.
-/
theorem session_spec (num : Nat) (start : StartEnv) (envs : List TransferEnv)
    : let s := session num start envs
      s.InSession num (∀ env ∈ envs, env.Whole num) ∧ s.Counted num := by
  refine List.foldlRecOn
    (motive := fun s : Client => s.InSession num (∀ env ∈ envs, env.Whole num) ∧ s.Counted num)
    envs _ ?_ ?_
  . exact ⟨startApplication_inSession num _ start, startApplication_counted num start⟩
  . intro s h env henv
    exact ⟨h.1.transferData (fun hwhole => hwhole env henv), h.2.transferData env⟩

/-- There is no buffer for the second socket in the first call: the first socket sends its number twice. -/
example :
    let env (second : Bool) : TransferEnv := ⟨1, fun i => i == 0 || second, fun _ _ => true⟩
    let s := session 2 ⟨1, fun _ => true, fun _ => true⟩ [env false, env true]
    s.wire 0 = [0, 0] ∧ s.wire 1 = [0] := by
  decide

end UdpClient
