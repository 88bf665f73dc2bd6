/-
Module: ForestLink.Mesh.Arq
Purpose: The scheduling half of the transfer engine: the reset functions, the
  local-exit window, the multi-exit feed, exit health and redistribution
  (`transfer_engine_arq.cpp`, resets from `transfer_engine.cpp`).
Trusted boundary: none
Main exports: resetSenderTransferState, clearExitNodeState, tickLocalExitArq,
  selectMeshTargetForSeq, tickMeshArq, exitNodeHealthTick, handleExitOffline,
  redistributeDeadExit, transferTick
-/
import ForestLink.Mesh.State

namespace ForestLink.Mesh.TransferEngine

open ForestLink.Lib
open ForestLink.Protocol

variable {F : Type} [PathArith F]

/-! ## Leaving a role -/

/-- `reset_sender_transfer_state`.  Clears the pending exit role too, but not
`is_exit_node_`. -/
def resetSenderTransferState (e : TransferEngine F) (signalComplete : Bool) :
    TransferEngine F :=
  let cleared : TransferEngine F :=
    { e with
      transfer := {}
      sourceHopsToExitEst := 1
      exitNodeTimeoutMs := 30000
      localExit := false
      electionActive := false
      candidates := []
      lastMeshFragSendMs := 0
      redistPending := []
      oowRetxQueue := []
      oowRecent := fun _ => (0, 0)
      oowRecentWrite := 0
      lastOowRetxMs := 0
      weightRecomputeCounter := 0
      cloudAckBitmap := fun _ => false
      cloudBaseSeq := 0
      cloudNextSend := 0
      cloudRetxQueue := []
      lastCloudActivityMs := 0
      meshUploadDone := false
      lastMetaPublishMs := 0
      exitPending := false
      pathStats := fun _ => .initial
      arq := fun i => (e.arq i).resetSender
      io := { e.io with congestionBackoffTicks := 0 }
      log := .reset :: e.log }
  let ended :=
    if e.transfer.sessionId ≠ 0 then cleared.emit (.sessionEnd e.transfer.sessionId)
    else cleared
  if signalComplete then ended.emit .transferComplete else ended

/-- `clear_exit_node_state` -/
def clearExitNodeState (e : TransferEngine F) : TransferEngine F :=
  let cleared : TransferEngine F :=
    { e with
      isExitNode := false
      exitPending := false
      activeSessionId := 0
      sourceAddr := 0
      transfer :=
        { e.transfer with
          size := 0
          crc32 := 0
          fragmentCount := 0
          fragmentSize := 0
          filename := [] }
      lastCloudActivityMs := 0
      lastMetaPublishMs := 0
      io := { e.io with congestionBackoffTicks := 0 }
      oowRetxQueue := []
      oowRecent := fun _ => (0, 0)
      oowRecentWrite := 0 }
  if e.activeSessionId ≠ 0 then cleared.emit (.sessionEnd e.activeSessionId) else cleared

/-! ## The local-exit window -/

/-- `CLOUD_WINDOW_SIZE`, also `CLOUD_RETX_QUEUE_SIZE`. -/
def cloudWindowSize : Nat := 16

def markCloudAck (e : TransferEngine F) (seq : Nat) : TransferEngine F :=
  if seq < e.transfer.fragmentCount then
    let clock := e.nowMs
    { clock.2 with
      cloudAckBitmap := Function.update e.cloudAckBitmap seq true
      lastCloudActivityMs := clock.1 }
  else e

/-- Advance the base over acknowledged fragments. -/
def advanceCloudBase : (fuel : Nat) → TransferEngine F → TransferEngine F
  | 0, e => e
  | fuel + 1, e =>
      if e.cloudBaseSeq < e.transfer.fragmentCount && e.cloudAckBitmap e.cloudBaseSeq then
        advanceCloudBase fuel { e with cloudBaseSeq := e.cloudBaseSeq + 1 }
      else e

def queueCloudNack (e : TransferEngine F) (seq : Nat) : TransferEngine F :=
  if seq ≥ e.transfer.fragmentCount then e
  else if e.cloudAckBitmap seq then e
  else
    let observed := e.emit (.nackObserved e.transfer.sessionId seq)
    if seq ∉ e.cloudRetxQueue ∧ e.cloudRetxQueue.length < cloudWindowSize then
      { observed with cloudRetxQueue := e.cloudRetxQueue ++ [seq] }
    else observed

/-- Read one fragment of the local-exit layout and hand it to MQTT. -/
def publishLocal (e : TransferEngine F) (seq : Nat) : Bool × TransferEngine F :=
  let offset := seq * e.transfer.fragmentSize
  let fragLen := min (sub32 e.transfer.size offset) e.transfer.fragmentSize
  let chunk := e.io.readChunk e.transfer.readChunk offset fragLen
  let queued := chunk.2.forwardToMqtt e.transfer.sessionId seq e.myAddr chunk.1
    e.transfer.filename
  (queued.1, { e with io := queued.2 })

/-- Retransmissions, oldest NACK first; stops at the first full queue. -/
def sendRetransmissions :
    List Nat → (sent : Nat) → TransferEngine F → Nat × TransferEngine F
  | [], sent, e => (sent, e)
  | seq :: rest, sent, e =>
      if sent ≥ cloudWindowSize then (sent, e)
      else if e.cloudAckBitmap seq then sendRetransmissions rest sent e
      else
        let published := e.publishLocal seq
        if published.1 then sendRetransmissions rest (sent + 1) published.2
        else (sent, published.2)

/-- `compact_retx_queue`: drop acknowledged entries and the first `sent` others. -/
def compactRetxQueue (e : TransferEngine F) (sent : Nat) : TransferEngine F :=
  { e with
    cloudRetxQueue := (e.cloudRetxQueue.filter fun seq => !e.cloudAckBitmap seq).drop sent }

/-- New fragments inside the window. -/
def sendNewLocal (windowEnd : Nat) : (fuel sent : Nat) → TransferEngine F → TransferEngine F
  | 0, _, e => e
  | fuel + 1, sent, e =>
      if e.cloudNextSend < e.transfer.fragmentCount ∧ e.cloudNextSend < windowEnd ∧
          sent < cloudWindowSize then
        let published := e.publishLocal e.cloudNextSend
        if published.1 then
          sendNewLocal windowEnd fuel (sent + 1)
            { published.2 with cloudNextSend := e.cloudNextSend + 1 }
        else published.2
      else e

/-- Drain cloud ACKs and NACKs, then retransmit and send new fragments. -/
def serveLocalExit (e : TransferEngine F) : TransferEngine F :=
  let acked := e.io.env.cloudAcks.foldl markCloudAck (e.setEnv { e.io.env with cloudAcks := [] })
  let advanced := advanceCloudBase (acked.transfer.fragmentCount - acked.cloudBaseSeq) acked
  let nacked := advanced.io.env.cloudNacks.foldl queueCloudNack
    (advanced.setEnv { advanced.io.env with cloudNacks := [] })
  let resent := sendRetransmissions nacked.cloudRetxQueue 0 nacked
  let compacted := resent.2.compactRetxQueue resent.1
  sendNewLocal (compacted.cloudBaseSeq + cloudWindowSize) cloudWindowSize resent.1 compacted

/-- `tick_local_exit_arq` -/
def tickLocalExitArq (e : TransferEngine F) : TransferEngine F :=
  let served := e.serveLocalExit
  if served.cloudBaseSeq ≥ served.transfer.fragmentCount then
    served.resetSenderTransferState true
  else served

/-! ## Choosing an exit -/

/-- `recompute_weights`, with `LOSS_PENALTY` 5. -/
def recomputeWeights (e : TransferEngine F) : TransferEngine F :=
  let one : F := PathArith.ofNat 1
  let inUse := fun i => decide (i < e.transfer.exitNodeCount) && e.transfer.exitNodeAlive i
  let smoothed := fun i =>
    let s := e.pathStats i
    if inUse i then
      let loss : F :=
        if s.sent > 0 then PathArith.div (PathArith.ofNat s.nacked) (PathArith.ofNat s.sent)
        else PathArith.ofNat 0
      { s with
        ewmaLoss :=
          PathArith.add (PathArith.mul PathArith.alpha loss)
            (PathArith.mul (PathArith.sub one PathArith.alpha) s.ewmaLoss) }
    else s
  let score := fun i =>
    let s := smoothed i
    let rtt := if PathArith.lt (PathArith.ofNat 10) s.ewmaRttMs then s.ewmaRttMs
      else PathArith.ofNat 10
    PathArith.div one
      (PathArith.mul rtt (PathArith.add one (PathArith.mul s.ewmaLoss (PathArith.ofNat 5))))
  let total := ((List.range e.transfer.exitNodeCount).filter inUse).foldl
    (fun sum i => PathArith.add sum (score i)) (PathArith.ofNat 0)
  let weighted := fun i =>
    if i < e.transfer.exitNodeCount then
      { smoothed i with
        weight := if inUse i then PathArith.div (score i) total else PathArith.ofNat 0 }
    else smoothed i
  { e with pathStats := if PathArith.lt (PathArith.ofNat 0) total then weighted else smoothed }

/-- Exits that may take `seq` now. -/
def eligibleExits (e : TransferEngine F) (seq : Nat) : List Nat :=
  (List.range e.transfer.exitNodeCount).filter fun i =>
    e.transfer.exitNodeAlive i && (e.arq i).canSendSequence seq &&
      decide ((e.arq i).senderWindowUsed < e.meshWindowCapPerExit)

/-- `select_mesh_target_for_seq`: the eligible exit with the best score, or the
first eligible one when no score compares above the start value. -/
def selectMeshTargetForSeq (e : TransferEngine F) (seq : Nat) : Option Nat :=
  if e.totalMeshInflight ≥ e.meshWindowCap then none
  else
    let score := fun i => PathArith.mul (e.pathStats i).weight
      (PathArith.ofNat (e.meshWindowCapPerExit - (e.arq i).senderWindowUsed))
    let best := (e.eligibleExits seq).foldl
      (fun best i => if PathArith.lt best.2 (score i) then (some i, score i) else best)
      ((none, PathArith.negOne) : Option Nat × F)
    best.1.or (e.eligibleExits seq).head?

/-! ## Reading and sending a fragment -/

/-- Read the data fragment of `seq` from the file. -/
def readFragment (e : TransferEngine F) (seq : Nat) : List UInt8 × TransferEngine F :=
  let offset := dataIdx seq * e.transfer.fragmentSize
  let fragLen := min (sub32 e.transfer.size offset) e.transfer.fragmentSize
  let chunk := e.io.readChunk e.transfer.readChunk offset fragLen
  (chunk.1, { e with io := chunk.2 })

/-- `arq_[index].send_fragment` -/
def sendFragment (e : TransferEngine F) (index seq : Nat) (data : List UInt8) :
    Int × TransferEngine F :=
  let result := SelectiveRepeat.sendFragment Io.radio e.io (e.arq index) seq data
  (result.1, { e.setArq index result.2.1 with io := result.2.2 })

/-! ## Redistribution -/

/-- Capacity of `redist_pending_`. -/
def redistCapacity : Nat := arqWindow * maxExitNodes

/-- Append to `redist_pending_`; a full queue loses the fragment. -/
def enqueueRedist (e : TransferEngine F) (seq : Nat) : TransferEngine F :=
  if e.redistPending.length < redistCapacity then
    { e with redistPending := e.redistPending ++ [seq] }
  else e.note (.lose seq)

/-- One fragment of a dead exit: to the selected exit or the first alive one. -/
def redistributeFragment (firstAlive : Nat) (e : TransferEngine F) (seq : Nat) :
    TransferEngine F :=
  -- Parity cannot be rebuilt here; the cloud recovers or asks for it.
  if isParitySlot seq then e
  else
    let target := (e.selectMeshTargetForSeq seq).getD firstAlive
    if (e.arq target).canSendSequence seq then
      let chunk := e.readFragment seq
      let sent := chunk.2.sendFragment target seq chunk.1
      if sent.1 = 0 then sent.2.note (.resume target seq chunk.2.io.timerMs)
      else sent.2.enqueueRedist seq
    else e.enqueueRedist seq

/-- Mark an exit dead and empty its window. -/
def buryExit (e : TransferEngine F) (dead : Nat) : TransferEngine F :=
  { e.setArq dead (e.arq dead).resetSender with
    transfer :=
      { e.transfer with
        exitNodeAlive := Function.update e.transfer.exitNodeAlive dead false }
    log := .fail dead :: e.log }

/-- `redistribute_dead_exit`; without a surviving exit the fragments are given up. -/
def redistributeDeadExit (e : TransferEngine F) (dead : Nat) : TransferEngine F :=
  let pending := (e.arq dead).snapshotPendingSequences arqWindow
  let buried := e.buryExit dead
  match (List.range buried.transfer.exitNodeCount).find? buried.transfer.exitNodeAlive with
  | none => buried
  | some firstAlive => pending.foldl (redistributeFragment firstAlive) buried

/-- One exit of the health check. -/
def checkExitHealth (now : Nat) (e : TransferEngine F) (index : Nat) : TransferEngine F :=
  if e.transfer.exitNodeAlive index && (e.arq index).hasPending &&
      decide (sub32 now (e.transfer.lastAckMs index) > e.exitNodeTimeoutMs) then
    (e.note (.silent index now e.exitNodeTimeoutMs)).redistributeDeadExit index
  else e

/-- `exit_node_health_tick` -/
def exitNodeHealthTick (e : TransferEngine F) (now : Nat) : TransferEngine F :=
  if !e.transfer.active || e.electionActive || e.transfer.exitNodeCount == 0 then e
  else (List.range e.transfer.exitNodeCount).foldl (checkExitHealth now) e

/-- `handle_exit_offline` -/
def handleExitOffline (e : TransferEngine F) (exitAddr sessionId : Nat) : TransferEngine F :=
  if !e.transfer.active then e
  else if sessionId ≠ 0 ∧ sessionId ≠ e.transfer.sessionId then e
  else
    match (List.range e.transfer.exitNodeCount).find? (fun i =>
        e.transfer.exitNodes i == exitAddr && e.transfer.exitNodeAlive i) with
    | none => e
    | some index => e.redistributeDeadExit index

/-! ## Out-of-window retransmits -/

/-- `OOW_RECENT_RING_SIZE` -/
def oowRecentRingSize : Nat := 128

/-- `kOowBacklogHighWater` -/
def oowBacklogHighWater : Nat := 32

/-- `kOowBacklogCriticalWater` -/
def oowBacklogCriticalWater : Nat := 96

/-- Send budget and minimum interval of the out-of-window queue. -/
def oowPolicy (e : TransferEngine F) : Nat × Nat :=
  let interval := 25 + 10 * e.sourceHopsToExitEst
  if e.oowRetxQueue.length ≥ oowBacklogCriticalWater then (4, 8)
  else if e.oowRetxQueue.length ≥ oowBacklogHighWater then (2, min interval 15)
  else (4, interval)

/-- XOR the data fragments of a group again; `none` for an incomplete group. -/
def regenerateParity (group : Nat) :
    List Nat → FecEncoder → TransferEngine F → Option FecEncoder × TransferEngine F
  | [], encoder, e => (some encoder, e)
  | position :: rest, encoder, e =>
      let offset := (group * fecGroupSize + position) * e.transfer.fragmentSize
      if offset ≥ e.transfer.size then (none, e)
      else
        let fragLen := min (e.transfer.size - offset) e.transfer.fragmentSize
        let chunk := e.io.readChunk e.transfer.readChunk offset fragLen
        regenerateParity group rest (encoder.ingest chunk.1) { e with io := chunk.2 }

/-- Payload of an out-of-window retransmit; `none` drops the entry. -/
def oowPayload (e : TransferEngine F) (seq : Nat) : Option (List UInt8) × TransferEngine F :=
  if isParitySlot seq then
    match regenerateParity (seq / (fecGroupSize + 1)) (List.range fecGroupSize) .reset e with
    | (none, after) => (none, after)
    | (some encoder, after) =>
        if encoder.parityLen = 0 then (none, after) else (some encoder.parityData, after)
  else if dataIdx seq * e.transfer.fragmentSize ≥ e.transfer.size then (none, e)
  else
    let chunk := e.readFragment seq
    (some chunk.1, chunk.2)

/-- The exit that asked for the fragment, or the first alive one. -/
def oowTarget (e : TransferEngine F) (dst : Nat) : Nat :=
  let firstAlive := (List.range e.transfer.exitNodeCount).find? e.transfer.exitNodeAlive
  let fallback := e.transfer.exitNodes (firstAlive.getD 0)
  match e.arqIndexForPeer dst with
  | none => fallback
  | some index => if e.transfer.exitNodeAlive index then dst else fallback

def keepOow (e : TransferEngine F) (entries : List (Nat × Nat)) : TransferEngine F :=
  { e with oowRetxQueue := e.oowRetxQueue ++ entries }

/-- The queue loop; kept entries are appended to the emptied queue. -/
def drainOowEntries (now budget : Nat) (allowed : Bool) :
    List (Nat × Nat) → (sent : Nat) → TransferEngine F → TransferEngine F
  | [], _, e => e
  | (seq, dst) :: rest, sent, e =>
      if !allowed || decide (sent ≥ budget) then
        drainOowEntries now budget allowed rest sent (e.keepOow [(seq, dst)])
      else
        match e.oowPayload seq with
        | (none, after) => drainOowEntries now budget allowed rest sent after
        | (some payload, after) =>
            if payload = [] then
              drainOowEntries now budget allowed rest sent (after.keepOow [(seq, dst)])
            else
              let target := after.oowTarget dst
              let result := after.sendPacket target .data payload seq
              if result.1 < 0 then result.2.keepOow ((seq, target) :: rest)
              else
                drainOowEntries now budget allowed rest (sent + 1)
                  { result.2 with
                    oowRecent :=
                      Function.update result.2.oowRecent result.2.oowRecentWrite (seq, now)
                    oowRecentWrite := (result.2.oowRecentWrite + 1) % oowRecentRingSize
                    lastOowRetxMs := now }

/-- Drain the out-of-window retransmit queue. -/
def drainOow (e : TransferEngine F) (now : Nat) : TransferEngine F :=
  if e.oowRetxQueue = [] ∨ e.transfer.readChunk.isNone then e
  else
    let policy := e.oowPolicy
    drainOowEntries now policy.1 (decide (sub32 now e.lastOowRetxMs ≥ policy.2))
      e.oowRetxQueue 0 { e with oowRetxQueue := [] }

/-! ## The multi-exit feed -/

def keepRedist (e : TransferEngine F) (seq : Nat) : TransferEngine F :=
  { e with redistPending := e.redistPending ++ [seq] }

/-- One entry of the redistribution queue. -/
def drainRedistEntry (e : TransferEngine F) (seq : Nat) : TransferEngine F :=
  match e.selectMeshTargetForSeq seq with
  | none => e.keepRedist seq
  | some target =>
      if (e.arq target).canSendSequence seq then
        let chunk := e.readFragment seq
        let sent := chunk.2.sendFragment target seq chunk.1
        if sent.1 < 0 then sent.2.keepRedist seq
        else sent.2.note (.resume target seq chunk.2.io.timerMs)
      else e.keepRedist seq

/-- Drain the redistribution queue; what cannot be sent is kept in order. -/
def drainRedist (e : TransferEngine F) : TransferEngine F :=
  e.redistPending.foldl drainRedistEntry { e with redistPending := [] }

/-- Bookkeeping after a new fragment went out. -/
def fedFragment (e : TransferEngine F) (index seq now time : Nat) : TransferEngine F :=
  { e with
    pathStats := Function.update e.pathStats index
      { e.pathStats index with sent := ((e.pathStats index).sent + 1) % 2 ^ 32 }
    weightRecomputeCounter := e.weightRecomputeCounter + 1
    transfer := { e.transfer with nextFragment := seq + 1 }
    lastMeshFragSendMs := now
    log := .assign index seq time :: e.log }

/-- `kMaxNewFragsSingleHop`, also `kMaxNewFragsMultiHop`. -/
def maxNewFragsPerTick : Nat := 1

/-- The feed loop.  Every round without a send skips one sequence number, so
`fragment_count - next_fragment` rounds are enough. -/
def feed (now : Nat) : (fuel newSent : Nat) → TransferEngine F → TransferEngine F
  | 0, _, e => e
  | fuel + 1, newSent, e =>
      let seq := e.transfer.nextFragment
      if seq < e.transfer.fragmentCount ∧ newSent < maxNewFragsPerTick then
        match e.selectMeshTargetForSeq seq with
        | none => e
        | some index =>
            if isParitySlot seq then
              let sent := e.sendFragment index seq e.fecEncoder.parityData
              if sent.1 < 0 then sent.2
              else
                feed now fuel (newSent + 1)
                  { sent.2.fedFragment index seq now e.io.timerMs with
                    fecEncoder := FecEncoder.reset }
            else if dataIdx seq * e.transfer.fragmentSize ≥ e.transfer.size then
              feed now fuel newSent
                { e with
                  transfer := { e.transfer with nextFragment := seq + 1 }
                  log := .skip seq :: e.log }
            else
              let chunk := e.readFragment seq
              let sent := chunk.2.sendFragment index seq chunk.1
              if sent.1 < 0 then sent.2
              else
                feed now fuel (newSent + 1)
                  { sent.2.fedFragment index seq now chunk.2.io.timerMs with
                    fecEncoder := e.fecEncoder.ingest chunk.1 }
      else e

/-- All sequence numbers are fed and no alive exit holds one. -/
def uploadDrained (e : TransferEngine F) : Bool :=
  decide (e.transfer.nextFragment ≥ e.transfer.fragmentCount) &&
    (List.range e.transfer.exitNodeCount).all fun i =>
      !e.transfer.exitNodeAlive i || (e.arq i).senderWindowUsed == 0

/-- The completion test at the end of `tick_mesh_arq`. -/
def checkUploadDrained (e : TransferEngine F) : TransferEngine F :=
  if e.uploadDrained then { e with meshUploadDone := true } else e

/-- `WEIGHT_RECOMPUTE_INTERVAL` -/
def weightRecomputeInterval : Nat := 16

/-- Refresh the weights after every sixteen new fragments. -/
def refreshWeights (e : TransferEngine F) : TransferEngine F :=
  if e.weightRecomputeCounter ≥ weightRecomputeInterval then
    { e.recomputeWeights with weightRecomputeCounter := 0 }
  else e

/-- Minimum interval between new fragments. -/
def pacingIntervalMs (e : TransferEngine F) : Nat := 15 + 5 * e.sourceHopsToExitEst

/-- New fragments, after the redistribution queue. -/
def feedNew (e : TransferEngine F) (now : Nat) : TransferEngine F :=
  let weighted := e.refreshWeights
  feed now (weighted.transfer.fragmentCount - weighted.transfer.nextFragment) 0 weighted

/-- `tick_mesh_arq` up to its completion test; the flag says whether the test is
reached. -/
def scheduleFragments (e : TransferEngine F) : Bool × TransferEngine F :=
  if e.transfer.exitNodeCount = 0 then (false, e)
  else if e.aliveCount = 0 then (false, e.resetSenderTransferState false)
  else
    let clock := e.nowMs
    let drained := clock.2.drainOow clock.1
    if drained.oowRetxQueue.length ≥ oowBacklogHighWater then (false, drained.signalCongestion)
    else if e.meshUploadDone then (false, drained)
    else
      let resent := drained.drainRedist
      if sub32 clock.1 resent.lastMeshFragSendMs < resent.pacingIntervalMs then (false, resent)
      else (true, resent.feedNew clock.1)

/-- `tick_mesh_arq` -/
def tickMeshArq (e : TransferEngine F) : TransferEngine F :=
  if e.scheduleFragments.1 then e.scheduleFragments.2.checkUploadDrained
  else e.scheduleFragments.2

/-- `transfer_tick` -/
def transferTick (e : TransferEngine F) : TransferEngine F :=
  if !e.transfer.active || e.electionActive then e
  else if e.io.congestionBackoffTicks > 0 then
    { e with io := { e.io with congestionBackoffTicks := e.io.congestionBackoffTicks - 1 } }
  else if e.localExit then e.tickLocalExitArq
  else e.tickMeshArq

end ForestLink.Mesh.TransferEngine
