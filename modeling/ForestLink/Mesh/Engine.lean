/-
Module: ForestLink.Mesh.Engine
Purpose: Starting a transfer, exit election, the periodic tick, and the engine as
  a state machine over the calls it can receive (`transfer_engine.cpp`).
Trusted boundary: none
Main exports: startFileTransfer, electionTimeoutTick, tick, Event, step, run
-/
import ForestLink.Lib.Crc32
import ForestLink.Mesh.Handlers

namespace ForestLink.Mesh

open ForestLink.Lib
open ForestLink.Protocol

/-! ## Timeouts from the hop estimate -/

/-- `sanitize_hops_to_exit` -/
def sanitizeHopsToExit (hops : Nat) : Nat :=
  if hops = 0 then 1 else if hops = 0xFF then 2 else hops

def computeElectionTimeoutMs (hops : Nat) : Nat := min (3000 + hops * 1250) 9000

def computeArqTimeoutMs (hops : Nat) : Nat := min (3000 + hops * 1000) 8000

def computeMinRtoFloorMs (hops : Nat) : Nat :=
  if hops ≤ 1 then 200 else min (2400 + (hops - 2) * 400) 4000

def computeMeshWindowCap (hops : Nat) : Nat :=
  if hops ≤ 1 then arqWindow else if hops = 2 then 24 else 16

def computeExitTimeoutMs (hops : Nat) : Nat := min (30000 + hops * 5000) 60000

namespace TransferEngine

variable {F : Type} [PathArith F]

/-! ## Starting a transfer -/

/-- `MAX_CLOUD_FRAGMENTS` -/
def maxCloudFragments : Nat := 8192

/-- Largest fragment count that stays clear of the 16-bit wrap. -/
def maxFragmentCount : Nat := 60000

/-- The data fragments of a file, in the 32-bit `size_t` and then 16 bits. -/
def dataFragCount (size : Nat) : Nat :=
  toU16 ((size + defaultTransferFragmentSize - 1) % 2 ^ 32 / defaultTransferFragmentSize)

/-- Data and parity fragments of the mesh layout. -/
def meshFragmentCount (dataFrags : Nat) : Nat :=
  toU16 (toU16 (dataFrags / fecGroupSize) * (fecGroupSize + 1) +
    toU16 (dataFrags % fecGroupSize))

/-- The CRC loop of `start_file_transfer`: reads of at most 512 bytes until the end
of the file or an empty read. -/
def crcLoop (file : Nat → Nat → List UInt8) (size : Nat) :
    (fuel offset : Nat) → UInt32 → Io → UInt32 × Io
  | 0, _, crc, io => (crc, io)
  | fuel + 1, offset, crc, io =>
      if offset < size then
        let chunk := io.readChunk (some file) offset (min (size - offset) 512)
        if chunk.1 = [] then (crc, chunk.2)
        else crcLoop file size fuel (offset + chunk.1.length) (crc32Le crc chunk.1) chunk.2
      else (crc, io)

/-- Arguments of `start_file_transfer`; `filename` holds no NUL. -/
structure StartArgs where
  filename : List UInt8
  size : Nat
  readChunk : Nat → Nat → List UInt8
  hasInternet : Bool := false
  hasMqtt : Bool := false
  hopsToInternet : Nat := 1

/-- The part of `start_file_transfer` that both paths share, up to the choice of
the path.  `fragment_count` is written afterwards. -/
def prepareTransfer (e : TransferEngine F) (args : StartArgs) : TransferEngine F :=
  let crc := crcLoop args.readChunk args.size args.size 0 0 e.io
  let clock := crc.2.nowMs
  let hops := sanitizeHopsToExit args.hopsToInternet
  let onLocalExit := args.hasInternet && args.hasMqtt
  { e with
    fecEncoder := FecEncoder.reset
    transfer :=
      { e.transfer with
        readChunk := some args.readChunk
        size := args.size
        fragmentSize := defaultTransferFragmentSize
        nextFragment := 0
        active := true
        sessionId := if toU16 e.io.env.random ≠ 0 then toU16 e.io.env.random else 1
        filename := args.filename.take 32
        crc32 := crc.1.toNat }
    lastMetaPublishMs := clock.1
    localExit := onLocalExit
    sourceHopsToExitEst := if onLocalExit then 0 else hops
    exitNodeTimeoutMs := if onLocalExit then 30000 else computeExitTimeoutMs hops
    io := clock.2 }

/-- Leave `start_file_transfer` with `false` after the record was filled in. -/
def rejectStart (e : TransferEngine F) : TransferEngine F :=
  { e with transfer := { e.transfer with active := false } }

def setFragmentCount (e : TransferEngine F) (count : Nat) : TransferEngine F :=
  { e with transfer := { e.transfer with fragmentCount := count } }

/-- The local-exit path. -/
def startLocalExit (e : TransferEngine F) (args : StartArgs) : Bool × TransferEngine F :=
  let dataFrags := dataFragCount args.size
  if dataFrags > maxCloudFragments then (false, e.rejectStart)
  else if dataFrags > maxFragmentCount then (false, (e.setFragmentCount dataFrags).rejectStart)
  else
    let clock := (e.setFragmentCount dataFrags).nowMs
    let armed : TransferEngine F :=
      { clock.2 with
        cloudAckBitmap := fun _ => false
        cloudBaseSeq := 0
        cloudNextSend := 0
        cloudRetxQueue := []
        lastCloudActivityMs := clock.1 }
    (true, armed.emit (.transferMeta e.transfer.sessionId args.filename e.myAddr
      (args.size % 2 ^ 32) dataFrags e.transfer.fragmentSize e.transfer.crc32))

/-- `send_broadcast_with_retry` with three attempts. -/
def sendBroadcastWithRetry (e : TransferEngine F) (type : PacketType) (payload : List UInt8)
    (dstAddr : Nat) : TransferEngine F :=
  if payload.length > maxMtu then e
  else
    { e with
      broadcastRetry :=
        { payload := payload
          type := type
          dstAddr := dstAddr
          active := true } }

/-- The mesh path: advertise the file and open the election. -/
def startMesh (e : TransferEngine F) (args : StartArgs) : Bool × TransferEngine F :=
  let count := meshFragmentCount (dataFragCount args.size)
  if count > maxFragmentCount then (false, (e.setFragmentCount count).rejectStart)
  else
    let hops := sanitizeHopsToExit args.hopsToInternet
    let ad : TransferAd :=
      { sessionId := e.transfer.sessionId
        fileSize := args.size % 2 ^ 32
        fragmentSizeD8 := e.transfer.fragmentSize / 8
        crc32 := e.transfer.crc32
        fragmentCount := count
        filenameLen := min args.filename.length 32
        filename := args.filename.take 32 }
    let clock := (e.setFragmentCount count).nowMs
    let announced : TransferEngine F :=
      { clock.2 with
        candidates := []
        electionActive := true
        electionStartMs := clock.1
        electionTimeoutMs := computeElectionTimeoutMs hops
        meshWindowCap := computeMeshWindowCap hops
        arq := fun i =>
          { e.arq i with
            timeoutMs := computeArqTimeoutMs hops
            minRtoFloorMs := computeMinRtoFloorMs hops } }
    (true, announced.sendBroadcastWithRetry .transferAd ad.toBytes exitAnyAddr)

/-- `start_file_transfer` -/
def startFileTransfer (e : TransferEngine F) (args : StartArgs) : Bool × TransferEngine F :=
  if e.transfer.active then (false, e)
  else if e.isExitNode then (false, e)
  else
    let prepared := e.prepareTransfer args
    if prepared.localExit then prepared.startLocalExit args else prepared.startMesh args

/-! ## Election -/

/-- Score of a candidate; higher is better. -/
def candidateScore (candidate : ExitCandidate) : Int :=
  candidate.rssiToGw - 6 * candidate.hopsToGw - 32 * candidate.activeTransfers

def bestScore (candidates : List ExitCandidate) : Int :=
  candidates.foldl (fun best candidate => max best (candidateScore candidate)) (-32000)

/-- Lowest accepted score: two thirds of the best magnitude below it, at least 6. -/
def acceptThreshold (best : Int) : Int := best - max ((best.natAbs * 2 / 3 : Nat) : Int) 6

/-- Candidates in descending order of score, equal scores in order of arrival. -/
def sortedCandidates (candidates : List ExitCandidate) : List ExitCandidate :=
  candidates.insertionSort fun a b => candidateScore b ≤ candidateScore a

/-- Candidates above the threshold, up to the configured number. -/
def acceptedExits (candidates : List ExitCandidate) (maxElectedExits : Nat) :
    List ExitCandidate :=
  ((sortedCandidates candidates).filter fun candidate =>
    decide (candidateScore candidate ≥ acceptThreshold (bestScore candidates))).take
      (min maxElectedExits maxExitNodes)

/-- The exits of `election_timeout_tick`: the accepted ones, or the best one when
none is accepted. -/
def electedExits (candidates : List ExitCandidate) (maxElectedExits : Nat) :
    List ExitCandidate :=
  let accepted := acceptedExits candidates maxElectedExits
  if accepted = [] then (sortedCandidates candidates).take 1 else accepted

/-- Set up window and statistics of one elected exit. -/
def installExit (now : Nat) (e : TransferEngine F) (elected : ExitCandidate × Nat) :
    TransferEngine F :=
  { e with
    transfer :=
      { e.transfer with
        exitNodes := Function.update e.transfer.exitNodes elected.2 elected.1.addr
        exitNodeAlive := Function.update e.transfer.exitNodeAlive elected.2 true
        lastAckMs := Function.update e.transfer.lastAckMs elected.2 now }
    arq := Function.update e.arq elected.2
      { (e.arq elected.2).resetSender with peerAddr := elected.1.addr }
    pathStats := Function.update e.pathStats elected.2
      { (ExitPathStats.initial : ExitPathStats F) with
        ewmaRttMs := PathArith.ofNat (computeArqTimeoutMs elected.1.hopsToGw) } }

/-- The clock reading the exits start with; the fallback to the best candidate
reads the clock again. -/
def electionClock (e : TransferEngine F) : TransferEngine F :=
  if acceptedExits e.candidates e.maxElectedExits = [] then e.nowMs.2 else e

/-- Close the election with the elected exits. -/
def electExits (e : TransferEngine F) : TransferEngine F :=
  let exits := electedExits e.candidates e.maxElectedExits
  let clock := e.electionClock.nowMs
  let installed := exits.zipIdx.foldl (installExit clock.1) clock.2
  { installed.emit .exitNodeElected with
    electionActive := false
    transfer :=
      { installed.transfer with
        exitNodeCount := exits.length
        nextFragment := 0 }
    weightRecomputeCounter := 0
    log := .launch (Finset.range exits.length) e.meshWindowCap e.electionClock.io.timerMs ::
      e.log }

/-- `election_timeout_tick` -/
def electionTimeoutTick (e : TransferEngine F) (now : Nat) : TransferEngine F :=
  if !e.electionActive || decide (sub32 now e.electionStartMs ≤ e.electionTimeoutMs) then e
  else if e.candidates = [] then
    ({ e with electionActive := false }).resetSenderTransferState false
  else e.electExits

/-- `broadcast_retry_tick` -/
def broadcastRetryTick (e : TransferEngine F) (now : Nat) : TransferEngine F :=
  let retry := e.broadcastRetry
  if !retry.active then e
  else if SelectiveRepeat.toInt32 (sub32 now retry.nextSendMs) < 0 then e
  else
    let sent := (e.sendPacket retry.dstAddr retry.type retry.payload 0).2
    if retry.attempt + 1 ≥ retry.maxRetries then
      { sent with broadcastRetry := { retry with attempt := retry.attempt + 1, active := false } }
    else
      { sent with
        broadcastRetry :=
          { retry with
            attempt := retry.attempt + 1
            nextSendMs := (now + retry.backoffMs) % 2 ^ 32
            backoffMs := retry.backoffMs * 2 % 2 ^ 32 } }

/-! ## The periodic tick -/

/-- Timeout retransmits of exit `index`; returns the sends used. -/
def tickArq (e : TransferEngine F) (index budget : Nat) : Nat × TransferEngine F :=
  let ticked := SelectiveRepeat.tick Io.radio e.io (e.arq index) budget
  (ticked.1, { e.setArq index ticked.2.1 with io := ticked.2.2 })

/-- Retransmits of the alive exits from one shared budget. -/
def tickAliveArqs : List Nat → (budget : Nat) → TransferEngine F → TransferEngine F
  | [], _, e => e
  | index :: rest, budget, e =>
      if budget = 0 then e
      else if !e.transfer.exitNodeAlive index then tickAliveArqs rest budget e
      else
        let ticked := e.tickArq index budget
        tickAliveArqs rest (budget - ticked.1) ticked.2

/-- `MAX_TOTAL_MESH_RETX_PER_TICK` -/
def maxTotalMeshRetxPerTick : Nat := 4

/-- The retransmit stage of `tick`. -/
def tickArqs (e : TransferEngine F) : TransferEngine F :=
  if e.transfer.active && !e.localExit then
    tickAliveArqs (List.range e.transfer.exitNodeCount) maxTotalMeshRetxPerTick e
  else (List.range maxExitNodes).foldl (fun e index => (e.tickArq index 8).2) e

/-- Some window of the running mesh transfer has given up. -/
def arqFailed (e : TransferEngine F) : Bool :=
  e.transfer.active && !e.localExit &&
    (List.range e.transfer.exitNodeCount).any fun i => (e.arq i).senderFailed

/-- Periodic meta re-publish while data is flowing. -/
def republishMeta (e : TransferEngine F) (now : Nat) : TransferEngine F :=
  if e.lastMetaPublishMs > 0 && decide (sub32 now e.lastMetaPublishMs > 10000) &&
      decide (e.lastCloudActivityMs > 0) && decide (sub32 now e.lastCloudActivityMs < 15000) &&
      ((e.localExit && e.transfer.active) || e.isExitNode) then
    let session := if e.localExit then e.transfer.sessionId else e.activeSessionId
    let srcNode := if e.localExit then e.myAddr else e.sourceAddr
    { e.publishMeta session srcNode with lastMetaPublishMs := now % 2 ^ 32 }
  else e

/-- `CLOUD_STALL_TIMEOUT_MS` -/
def cloudStallTimeoutMs : Nat := 30000

/-- No cloud activity for longer than the stall timeout. -/
def cloudStalled (e : TransferEngine F) (now : Nat) : Bool :=
  decide (e.lastCloudActivityMs > 0) &&
    decide (sub32 now e.lastCloudActivityMs > cloudStallTimeoutMs)

/-- An exit relays cloud NACKs to its source until a send fails. -/
def relayCloudNacks (now : Nat) : List Nat → TransferEngine F → TransferEngine F
  | [], e => e.setEnv { e.io.env with cloudNacks := [] }
  | seq :: rest, e =>
      let observed := e.emit (.nackObserved e.activeSessionId seq)
      let result := observed.sendPacket e.sourceAddr .nack [] seq
      if result.1 < 0 then
        (result.2.emit (.nackRequeued e.activeSessionId seq)).setEnv
          { result.2.io.env with cloudNacks := rest }
      else relayCloudNacks now rest { result.2 with lastCloudActivityMs := now % 2 ^ 32 }

/-- An exit acknowledges the fragments that MQTT accepted until a send fails. -/
def relayFragmentAcks : List Nat → TransferEngine F → TransferEngine F
  | [], e => e.setEnv { e.io.env with fragmentAcks := [] }
  | seq :: rest, e =>
      let result := e.sendPacket e.sourceAddr .ack [] seq
      if result.1 < 0 then
        (result.2.emit (.ackRequeued e.activeSessionId seq)).setEnv
          { result.2.io.env with fragmentAcks := rest }
      else relayFragmentAcks rest result.2

/-- Tell the source that the cloud has the file, once and whatever the send says,
and leave the exit role. -/
def forwardTransferDone (e : TransferEngine F) : TransferEngine F :=
  let done : TransferDone := { sessionId := e.activeSessionId, exitNodeAddr := e.myAddr }
  (e.sendPacket e.sourceAddr .transferDone done.toBytes 0).2.clearExitNodeState

def drainExitNacks (e : TransferEngine F) (now : Nat) : TransferEngine F :=
  if e.isExitNode then relayCloudNacks now e.io.env.cloudNacks e else e

def drainFragmentAcks (e : TransferEngine F) : TransferEngine F :=
  if e.isExitNode then relayFragmentAcks e.io.env.fragmentAcks e else e

def pollTransferComplete (e : TransferEngine F) : TransferEngine F :=
  if e.isExitNode && e.io.env.transferComplete then e.forwardTransferDone else e

/-- The duties of an exit: relay NACKs, acknowledge, report completion. -/
def tickExitRole (e : TransferEngine F) (now : Nat) : TransferEngine F :=
  (e.drainExitNacks now).drainFragmentAcks.pollTransferComplete

/-- The stages of `tick` between the stall check and `transfer_tick`. -/
def tickStages (e : TransferEngine F) (now : Nat) : TransferEngine F :=
  (((e.tickExitRole now).broadcastRetryTick now).electionTimeoutTick now).exitNodeHealthTick now

/-- `tick` up to `transfer_tick`; the flag is false where it returns early. -/
def tickBeforeTransfer (e : TransferEngine F) (now : Nat) : Bool × TransferEngine F :=
  let ticked := e.tickArqs
  if ticked.arqFailed then (false, ticked.resetSenderTransferState false)
  else
    let republished := ticked.republishMeta now
    if republished.cloudStalled now then
      if republished.localExit && republished.transfer.active then
        (false, republished.resetSenderTransferState true)
      else if republished.meshUploadDone && republished.transfer.active &&
          !republished.localExit then
        (false, republished.resetSenderTransferState false)
      else if republished.hasExitRole then (true, republished.clearExitNodeState.tickStages now)
      else (true, republished.tickStages now)
    else (true, republished.tickStages now)

/-- `tick`; `now` is the millisecond clock that the caller read. -/
def tick (e : TransferEngine F) (now : Nat) : TransferEngine F :=
  let before := e.tickBeforeTransfer now
  if before.1 then before.2.transferTick else before.2

/-! ## The engine as a state machine -/

/-- A call of the engine. -/
inductive Event where
  | startFileTransfer (args : StartArgs)
  | transferAd (srcAddr : Nat) (payload : List UInt8) (hasInternet : Bool)
  | transferAck (payload : List UInt8)
  | data (srcAddr seq : Nat) (payload : List UInt8)
  | ack (seq fromAddr : Nat)
  | nack (seq fromAddr : Nat)
  | exitOffline (exitAddr sessionId : Nat)
  | transferDone (sender : Nat) (payload : List UInt8)
  | congestion
  | healthTick (now : Nat)
  | tick (now : Nat)

/-- One call with the surroundings it meets. -/
structure Call where
  env : Env := {}
  event : Event

def handle (e : TransferEngine F) : Event → TransferEngine F
  | .startFileTransfer args => (e.startFileTransfer args).2
  | .transferAd srcAddr payload hasInternet => e.handleTransferAd srcAddr payload hasInternet
  | .transferAck payload => e.handleTransferAck payload
  | .data srcAddr seq payload => e.handleData srcAddr seq payload
  | .ack seq fromAddr => e.handleAck seq fromAddr
  | .nack seq fromAddr => e.handleNack seq fromAddr
  | .exitOffline exitAddr sessionId => e.handleExitOffline exitAddr sessionId
  | .transferDone sender payload => e.handleTransferDone sender payload
  | .congestion => e.signalCongestion
  | .healthTick now => e.exitNodeHealthTick now
  | .tick now => e.tick now

def step (e : TransferEngine F) (call : Call) : TransferEngine F :=
  (e.setEnv call.env).handle call.event

/-- Any sequence of calls. -/
def run (e : TransferEngine F) (calls : List Call) : TransferEngine F := calls.foldl step e

end TransferEngine

end ForestLink.Mesh
