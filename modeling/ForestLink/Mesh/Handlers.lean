/-
Module: ForestLink.Mesh.Handlers
Purpose: Packet handlers of the transfer engine
  (`transfer_engine_handlers.cpp`, `handle_transfer_done` from
  `transfer_engine.cpp`).
Trusted boundary: none
Main exports: handleTransferAd, handleTransferAck, handleData, handleAck,
  handleNack, handleTransferDone
-/
import ForestLink.Mesh.Arq

namespace ForestLink.Mesh.TransferEngine

open ForestLink.Lib
open ForestLink.Protocol

variable {F : Type} [PathArith F]

/-! ## Becoming an exit -/

/-- The node serves, or has offered to serve, as an exit. -/
def hasExitRole (e : TransferEngine F) : Bool := e.isExitNode || e.exitPending

/-- Answer an advertisement with this node's exit offer. -/
def sendTransferAck (e : TransferEngine F) (dst sessionId activeTransfers : Nat) :
    TransferEngine F :=
  let ack : TransferAck :=
    { sessionId := sessionId
      exitNodeAddr := e.myAddr
      rssiToGw := e.io.env.wifiRssi
      hopsToGw := 0
      activeTransfers := activeTransfers }
  (e.sendPacket dst .transferAck ack.toBytes 0).2

/-- The file name an advertisement carries, as a C string. -/
def adFilename (ad : TransferAd) : List UInt8 :=
  if 0 < ad.filenameLen ∧ ad.filenameLen ≤ 32 then
    (ad.filename.take ad.filenameLen).takeWhile (· ≠ 0)
  else []

/-- Take the pending exit role for the advertised session. -/
def acceptTransferAd (e : TransferEngine F) (srcAddr : Nat) (ad : TransferAd) :
    TransferEngine F :=
  let answered := e.sendTransferAck srcAddr ad.sessionId 0
  let clock := answered.nowMs
  { clock.2 with
    exitPending := true
    activeSessionId := ad.sessionId
    sourceAddr := srcAddr
    transfer :=
      { e.transfer with
        size := ad.fileSize
        fragmentCount := ad.fragmentCount
        fragmentSize := ad.fragmentSizeD8 * 8
        crc32 := ad.crc32
        filename := adFilename ad }
    lastCloudActivityMs := clock.1
    lastMetaPublishMs := clock.1
    arq := Function.update e.arq 0 { e.arq 0 with peerAddr := srcAddr } }

/-- `handle_transfer_ad` -/
def handleTransferAd (e : TransferEngine F) (srcAddr : Nat) (payload : List UInt8)
    (hasInternet : Bool) : TransferEngine F :=
  if payload.length < minTransferAdLen then e
  else
    let ad := TransferAd.ofBytes payload
    if !hasInternet then e
    else if e.transfer.active then e
    else if e.hasExitRole && e.activeSessionId != ad.sessionId then e
    else if e.hasExitRole then e.sendTransferAck srcAddr ad.sessionId 1
    else e.acceptTransferAd srcAddr ad

/-! ## Serving as an exit -/

/-- Publish the meta of the shared transfer record. -/
def publishMeta (e : TransferEngine F) (session srcNode : Nat) : TransferEngine F :=
  e.emit (.transferMeta session e.transfer.filename srcNode (e.transfer.size % 2 ^ 32)
    e.transfer.fragmentCount e.transfer.fragmentSize e.transfer.crc32)

/-- The first DATA packet turns the offer into the role. -/
def activateExit (e : TransferEngine F) : TransferEngine F :=
  if e.exitPending && !e.isExitNode && e.activeSessionId != 0 then
    ({ e with isExitNode := true, exitPending := false }).publishMeta e.activeSessionId
      e.sourceAddr
  else e

/-- Hand a fragment to MQTT under the session this node serves. -/
def forwardFragment (e : TransferEngine F) (seq : Nat) (payload : List UInt8) :
    TransferEngine F :=
  let queued := e.io.forwardToMqtt e.activeSessionId seq e.sourceAddr payload
    e.transfer.filename
  let forwarded := { e with io := queued.2 }
  if queued.1 then
    let clock := forwarded.nowMs
    { clock.2 with lastCloudActivityMs := clock.1 }
  else forwarded.signalCongestion

/-- `handle_data`.  The receiver of the legacy path is never initialised, so that
path only notes the peer. -/
def handleData (e : TransferEngine F) (srcAddr seq : Nat) (payload : List UInt8) :
    TransferEngine F :=
  if e.hasExitRole then e.activateExit.forwardFragment seq payload
  else e.setArq 0 { e.arq 0 with peerAddr := srcAddr }

/-! ## Answers at the source -/

/-- `handle_transfer_ack` -/
def handleTransferAck (e : TransferEngine F) (payload : List UInt8) : TransferEngine F :=
  if payload.length < transferAckLen then e
  else if !e.electionActive then e
  else
    let ack := TransferAck.ofBytes payload
    if e.candidates.any fun candidate => candidate.addr == ack.exitNodeAddr then e
    else if e.candidates.length < maxExitNodes then
      { e with
        candidates := e.candidates ++
          [{ addr := ack.exitNodeAddr
             rssiToGw := ack.rssiToGw
             hopsToGw := if ack.hopsToGw ≠ 0 then ack.hopsToGw else e.sourceHopsToExitEst
             activeTransfers := ack.activeTransfers }] }
    else e

/-- Path statistics after a tracked ACK. -/
def trackAck (stats : ExitPathStats F) (now sendTime : Nat) : ExitPathStats F :=
  { stats with
    ewmaRttMs :=
      if 0 < sendTime ∧ sendTime < now then
        PathArith.add (PathArith.mul PathArith.alpha (PathArith.ofNat (now - sendTime)))
          (PathArith.mul (PathArith.sub (PathArith.ofNat 1) PathArith.alpha) stats.ewmaRttMs)
      else stats.ewmaRttMs
    acked := (stats.acked + 1) % 2 ^ 32 }

/-- `handle_ack` -/
def handleAck (e : TransferEngine F) (seq fromAddr : Nat) : TransferEngine F :=
  match e.arqIndexForPeer fromAddr with
  | none => e
  | some index =>
      let clock := e.nowMs
      let tracked := (e.arq index).containsSequence seq
      let sendTime := if tracked then (e.arq index).getSendTime seq else 0
      let released := SelectiveRepeat.handleAck Io.radio clock.2.io (e.arq index) seq
      let after : TransferEngine F := { e.setArq index released.1 with io := released.2 }
      if tracked then
        { after with
          pathStats := Function.update e.pathStats index
            (trackAck (e.pathStats index) clock.1 sendTime)
          transfer :=
            { e.transfer with
              lastAckMs := Function.update e.transfer.lastAckMs index clock.1 }
          log := .finish index seq e.io.timerMs :: e.log }
      else after

/-- Retransmit a fragment that the window of exit `index` still holds. -/
def nackWindow (e : TransferEngine F) (index seq : Nat) : TransferEngine F :=
  let resent := SelectiveRepeat.handleNack Io.radio e.io (e.arq index) seq
  { e.setArq index resent.1 with
    pathStats := Function.update e.pathStats index
      { e.pathStats index with nacked := ((e.pathStats index).nacked + 1) % 2 ^ 32 }
    io := resent.2 }

/-- `OOW_RETX_QUEUE_SIZE` -/
def oowRetxQueueSize : Nat := 1024

/-- `OOW_RECENT_SUPPRESS_MS` -/
def oowRecentSuppressMs : Nat := 1500

/-- The fragment was resent out of window a moment ago. -/
def recentlyResent (e : TransferEngine F) (seq now : Nat) : Bool :=
  (List.range oowRecentRingSize).any fun i =>
    (e.oowRecent i).2 != 0 && (e.oowRecent i).1 == seq &&
      decide (sub32 now (e.oowRecent i).2 < oowRecentSuppressMs)

/-- Queue a fragment that every window has released. -/
def enqueueOow (e : TransferEngine F) (seq fromAddr : Nat) : TransferEngine F :=
  if !e.transfer.active || decide (seq ≥ e.transfer.fragmentCount) then e
  else
    match e.oowRetxQueue.findIdx? fun entry => entry.1 == seq with
    | some position =>
        { e with oowRetxQueue := e.oowRetxQueue.set position (seq, fromAddr) }
    | none =>
        let clock := e.nowMs
        if clock.2.recentlyResent seq clock.1 then clock.2
        else if e.oowRetxQueue.length < oowRetxQueueSize then
          { clock.2 with oowRetxQueue := e.oowRetxQueue ++ [(seq, fromAddr)] }
        else clock.2

/-- `handle_nack` -/
def handleNack (e : TransferEngine F) (seq fromAddr : Nat) : TransferEngine F :=
  match e.arqIndexForPeer fromAddr with
  | none =>
      -- A relay reports congestion: whichever window owns the fragment resends it.
      match e.arqIndexForSequence seq with
      | none => e
      | some owner => e.nackWindow owner seq
  | some index =>
      if (e.arq index).containsSequence seq then e.nackWindow index seq
      else if (e.arqIndexForSequence seq).isSome then e
      else e.enqueueOow seq fromAddr

/-- `handle_transfer_done` -/
def handleTransferDone (e : TransferEngine F) (sender : Nat) (payload : List UInt8) :
    TransferEngine F :=
  if !e.transfer.active then e
  else if payload.length < transferDoneLen then e
  else
    let done := TransferDone.ofBytes payload
    if done.sessionId ≠ e.transfer.sessionId then e
    else if sender ≠ done.exitNodeAddr ∨ (e.arqIndexForPeer done.exitNodeAddr).isNone then e
    else e.resetSenderTransferState true

end ForestLink.Mesh.TransferEngine
