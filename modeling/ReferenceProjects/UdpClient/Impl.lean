import Mathlib.Data.BitVec
import Mathlib.Logic.Function.Basic

/-!
This module contains the UDP performance client: the datagrams that `transfer_data()` sends to its server on
several sockets, call by call, and what it counts of them.
-/

namespace UdpClient

def udpSendBufsize : Nat := 1440
def maxSendRetry : Nat := 10

/-- In milliseconds. -/
def reportIntervalTime : BitVec 64 := 5000
def endTime : BitVec 64 := 300000

/-- `struct perf_stats` with its `struct interim_report`, what is counted and timed. -/
@[ext]
structure PerfStats where
  startTime : BitVec 64
  totalBytes : BitVec 64
  cntDatagrams : BitVec 64
  reportStartTime : BitVec 64
  reportTotalBytes : BitVec 32

/-- The variables of the client, and for each socket the identifiers of the datagrams that were sent. -/
@[ext]
structure Client where
  /-- `pcb[i]` is not NULL -/
  pcb : Nat → Bool
  packetId : BitVec 32
  client : PerfStats
  wire : Nat → List (BitVec 32)

/-- What a call finds: the time, for which sockets there is a buffer, and which attempts to send succeed. -/
structure TransferEnv where
  now : BitVec 64
  pbufAlloc : Nat → Bool
  udpSend : Nat → Nat → Bool

/-- A datagram is sent and counted. -/
def Client.sent (s : Client) (i : Nat) : Client :=
  { s with
    wire := Function.update s.wire i (s.wire i ++ [s.packetId])
    client := { s.client with
      totalBytes := s.client.totalBytes + BitVec.ofNat 64 udpSendBufsize
      cntDatagrams := s.client.cntDatagrams + 1
      reportTotalBytes := s.client.reportTotalBytes + BitVec.ofNat 32 udpSendBufsize } }

/-- `pcb[i] = NULL` -/
def Client.clearPcb (s : Client) (i : Nat) : Client := { s with pcb := Function.update s.pcb i false }

/-- The loop of `udp_packet_send()` over the retries that are left, with those that are left after it. -/
def sendRetries (udpSend : Nat → Bool) (i : Nat) : (retries attempt : Nat) → Client → Client × Nat
  | 0, _, s => (s, 0)
  | retries + 1, attempt, s =>
    if udpSend attempt then
      (s.sent i, retries + 1)
    else
      sendRetries udpSend i retries (attempt + 1) s

/-- The loop of `udp_packet_send()` over `n` sockets from `i` on, and whether it returns early. -/
def packetSendLoop (env : TransferEnv) (finished : Bool)
    : (n i retries : Nat) → Client → Client × Bool
  | 0, _, _, s => (s, false)
  | n + 1, i, retries, s =>
    if env.pbufAlloc i then
      let s := if finished then { s with packetId := -1 } else s
      let (s, retries) := sendRetries (env.udpSend i) i retries 0 s
      let s := if retries = 0 then s.clearPcb i else s
      let s := if finished then s.clearPcb i else s
      packetSendLoop env finished n (i + 1) retries s
    else
      (s, true)

/-- `udp_packet_send()` with `num` for `NUM_OF_PARALLEL_CLIENTS`, which a `u8_t` counts up to. -/
def udpPacketSend (num : Nat) (env : TransferEnv) (finished : Bool) (s : Client) : Client :=
  match packetSendLoop env finished num 0 maxSendRetry s with
  | (s, true) => s
  | (s, false) => { s with packetId := s.packetId + 1 }

/-- The interim report of `transfer_data()`. -/
def Client.interimReport (s : Client) (now : BitVec 64) : Client :=
  if s.client.reportStartTime ≠ 0 then
    if reportIntervalTime ≤ now - s.client.reportStartTime then
      { s with client := { s.client with reportStartTime := 0, reportTotalBytes := 0 } }
    else
      s
  else
    { s with client := { s.client with reportStartTime := now } }

/-- `transfer_data()` -/
def transferData (num : Nat) (s : Client) (env : TransferEnv) : Client :=
  if (List.range num).all s.pcb then
    let s := s.interimReport env.now
    -- the time is over
    if endTime ≤ env.now - s.client.startTime then
      udpPacketSend num env true s
    else
      udpPacketSend num env false s
  else
    s

/-- What `start_application()` finds: the time, and which sockets can be made and connected. -/
structure StartEnv where
  now : BitVec 64
  udpNew : Nat → Bool
  udpConnect : Nat → Bool

/-- The loop of `start_application()` over `n` sockets from `i` on, and whether it comes to its end. -/
def connectLoop (env : StartEnv) : (n i : Nat) → (Nat → Bool) → (Nat → Bool) × Bool
  | 0, _, pcb => (pcb, true)
  | n + 1, i, pcb =>
    if env.udpNew i then
      let pcb := Function.update pcb i true
      if env.udpConnect i then
        connectLoop env n (i + 1) pcb
      else
        -- the socket is removed, but `pcb[i]` is kept
        (pcb, false)
    else
      (pcb, false)

/-- `start_application()` after a reset; only a start that succeeds comes to `reset_stats()`. -/
def startApplication (num : Nat) (env : StartEnv) : Client :=
  let (pcb, ok) := connectLoop env num 0 (fun _ => false)
  { pcb := pcb
    packetId := 0
    client := if ok then ⟨env.now, 0, 0, 0, 0⟩ else ⟨0, 0, 0, 0, 0⟩
    wire := fun _ => [] }

/-- `main()`: `start_application()`, then one call of `transfer_data()` after the other. -/
def session (num : Nat) (start : StartEnv) (envs : List TransferEnv) : Client :=
  envs.foldl (transferData num) (startApplication num start)

end UdpClient
