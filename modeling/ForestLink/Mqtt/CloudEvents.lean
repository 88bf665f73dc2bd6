/-
Module: ForestLink.Mqtt.CloudEvents
Purpose: What `handle_mqtt_event` makes of a message of the cloud: admin commands,
  acknowledgements and NACKs of chunks, transfer NACKs and completions (`mqtt_client.cpp`).
Trusted boundary: none
Main exports: adminCmd, CloudInbox, CloudInbox.handleMqttEvent, seqsStep, seqsLoop
-/
import ForestLink.Lib.CText
import ForestLink.Mesh.Bridge
import ForestLink.Mqtt.SessionQueue

namespace ForestLink.Mqtt

open ForestLink.Lib
open ForestLink.Mesh.MeshManager

/-!
A message is given as the bytes of its topic and of its data.  The receive callback that may
follow gets the same bytes and is left out, as are the log lines.
-/

/-! ## Admin commands -/

/-- `sizeof(MeshCmdItem::data)` -/
def meshCmdItemData : Nat := 64

/-- A message on `flp/admin/cmd`; data that does not fit the item is cut off. -/
def adminCmd : List UInt8 → Option CloudCmd
  | low :: high :: cmdId :: data =>
      some
        { targetAddr := low.toNat + 256 * high.toNat
          cmdId := cmdId
          data := data.take meshCmdItemData }
  | _ => none

/-! ## Queues -/

/-- `MQTT_CMD_QUEUE_DEPTH` -/
def cmdQueueDepth : Nat := 8

/-- `MQTT_TRANSFER_COMPLETE_QUEUE_DEPTH` -/
def transferCompleteQueueDepth : Nat := 8

/-- The queues that the event handler fills, and the session it compares with. -/
structure CloudInbox where
  activeTransferSession : Nat := 0
  cmdQueue : List CloudCmd := []
  ackQueue : List SessionItem := []
  nackQueue : List SessionItem := []
  transferCompleteQueue : List Nat := []
deriving Repr, DecidableEq

/-! ## Numbers -/

/-- Bits of a `long`. -/
def longBits : Nat := 32

def uint16Max : Nat := 65535

/-- The session at the end of a topic: a number and nothing behind it. -/
def topicSession (text : List UInt8) : Option Nat :=
  let (sessionVal, rest) := strtol longBits text
  if rest = text ∨ rest ≠ [] ∨ sessionVal < 0 ∨ sessionVal > uint16Max then none
  else some sessionVal.toNat

/-- The number behind `"seq":`. -/
def seqField (text : List UInt8) : Option Nat :=
  let (seqVal, rest) := strtol longBits text
  if rest = text ∨ seqVal < 0 ∨ seqVal > uint16Max then none else some seqVal.toNat

/-! ## The array of a transfer NACK -/

/-- One round of the loop over `"seqs":[`: a number is queued, when it is one of 16 bits and
there is room, and the comma behind it skipped; any other byte is skipped. -/
def seqsStep (sessionId : Nat) :
    List UInt8 × List SessionItem → Option (List UInt8 × List SessionItem)
  | ([], _) => none
  | (byte :: after, nackQueue) =>
      if byte = 0x5D then none
      else
        let (val, rest) := strtol longBits (byte :: after)
        if rest = byte :: after then some (after, nackQueue)
        else
          let nackQueue :=
            if val ≥ 0 ∧ val ≤ uint16Max then
              (SessionQueue.send nackQueueDepth nackQueue
                { sessionId := sessionId, seq := val.toNat }).2
            else nackQueue
          match rest with
          | 0x2C :: rest => some (rest, nackQueue)
          | rest => some (rest, nackQueue)

/-- The loop, for at most so many rounds. -/
def seqsLoop (sessionId : Nat) :
    Nat → List UInt8 × List SessionItem → List UInt8 × List SessionItem
  | 0, state => state
  | rounds + 1, state =>
      match seqsStep sessionId state with
      | none => state
      | some next => seqsLoop sessionId rounds next

/-- The sequence numbers of a transfer NACK go to the queue. -/
def queueSeqs (sessionId : Nat) (nackBuf : List UInt8) (nackQueue : List SessionItem) :
    List SessionItem :=
  match strstr (ascii "\"seqs\":[") nackBuf with
  | none => nackQueue
  | some found =>
      let text := found.drop (ascii "\"seqs\":[").length
      (seqsLoop sessionId text.length (text, nackQueue)).2

/-! ## The handler -/

namespace CloudInbox

/-- The messages of another session, or of any while none is active, are stale. -/
def isStale (q : CloudInbox) (sessionId : Nat) : Bool :=
  q.activeTransferSession == 0 || sessionId != q.activeTransferSession

def onAdminCmd (q : CloudInbox) (data : List UInt8) : CloudInbox :=
  match adminCmd data with
  | some cmd =>
      if q.cmdQueue.length < cmdQueueDepth then { q with cmdQueue := q.cmdQueue ++ [cmd] } else q
  | none => q

/-- A message on `flp/admin/ack/<session>`. -/
def onAck (q : CloudInbox) (session data : List UInt8) : CloudInbox :=
  match topicSession session with
  | none => q
  | some sessionId =>
      if q.isStale sessionId then q
      else
        let ackBuf := cString (data.take 255)
        match strstr (ascii "\"seq\":") ackBuf with
        | none => q
        | some found =>
            match seqField (found.drop (ascii "\"seq\":").length) with
            | none => q
            | some seq =>
                let item : SessionItem := { sessionId := sessionId, seq := seq }
                if (strstr (ascii "\"ACK\"") ackBuf).isSome then
                  { q with ackQueue := (SessionQueue.send ackQueueDepth q.ackQueue item).2 }
                else if (strstr (ascii "\"NACK\"") ackBuf).isSome then
                  { q with nackQueue := (SessionQueue.send nackQueueDepth q.nackQueue item).2 }
                else q

/-- A message on `flp/admin/transfer_nack/<session>`. -/
def onTransferNack (q : CloudInbox) (session data : List UInt8) : CloudInbox :=
  match topicSession session with
  | none => q
  | some sessionId =>
      if q.isStale sessionId then q
      else { q with nackQueue := queueSeqs sessionId (cString (data.take 511)) q.nackQueue }

/-- A message on `flp/admin/complete/<session>`. -/
def onTransferComplete (q : CloudInbox) (session : List UInt8) : CloudInbox :=
  match topicSession session with
  | none => q
  | some sessionId =>
      if q.isStale sessionId then q
      else if q.transferCompleteQueue.length < transferCompleteQueueDepth then
        { q with transferCompleteQueue := q.transferCompleteQueue ++ [sessionId] }
      else q

/-- The case `MQTT_EVENT_DATA` of `handle_mqtt_event`. -/
def handleMqttEvent (q : CloudInbox) (topic data : List UInt8) : CloudInbox :=
  let topicBuf := cString (topic.take 127)
  if topicBuf = ascii "flp/admin/cmd" ∧ data.length ≥ 3 then q.onAdminCmd data
  else if (ascii "flp/admin/ack/").isPrefixOf topicBuf ∧ data ≠ [] then
    q.onAck (topicBuf.drop 14) data
  else if (ascii "flp/admin/transfer_nack/").isPrefixOf topicBuf ∧ data ≠ [] then
    q.onTransferNack (topicBuf.drop 24) data
  else if (ascii "flp/admin/complete/").isPrefixOf topicBuf then
    q.onTransferComplete (topicBuf.drop 19)
  else q

end CloudInbox

end ForestLink.Mqtt
