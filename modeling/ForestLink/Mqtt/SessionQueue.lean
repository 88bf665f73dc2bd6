/-
Module: ForestLink.Mqtt.SessionQueue
Purpose: The bounded queues of sequence numbers that the MQTT event handler fills and the
  mesh task drains by session: cloud acknowledgements and cloud NACKs (`mqtt_client.cpp`).
Trusted boundary: none
Main exports: SessionItem, SessionQueue.send, SessionQueue.sendToFront, SessionQueue.drain,
  drainCloudAck, drainCloudNack, requeueCloudNack
-/
import Mathlib.Data.List.Basic

namespace ForestLink.Mqtt

/-- `CloudAckItem` and `CloudNackItem` -/
structure SessionItem where
  sessionId : Nat
  seq : Nat
deriving Repr, DecidableEq

namespace SessionQueue

variable (depth : Nat)

/-- `xQueueSend` without waiting: a full queue refuses the item. -/
def send (queue : List SessionItem) (item : SessionItem) : Bool × List SessionItem :=
  if queue.length < depth then (true, queue ++ [item]) else (false, queue)

/-- `xQueueSendToFront` without waiting. -/
def sendToFront (queue : List SessionItem) (item : SessionItem) : Bool × List SessionItem :=
  if queue.length < depth then (true, item :: queue) else (false, queue)

/-- The loop of `drain_cloud_ack` and `drain_cloud_nack` over the items that were waiting at
its start.  Items of other sessions go back to the end, whatever `xQueueSend` returns. -/
def drainLoop (session : Nat) : Nat → List SessionItem → Option Nat × List SessionItem
  | 0, queue => (none, queue)
  | _ + 1, [] => (none, [])
  | waiting + 1, item :: rest =>
      if item.sessionId = session then (some item.seq, rest)
      else drainLoop session waiting (send depth rest item).2

def drain (session : Nat) (queue : List SessionItem) : Option Nat × List SessionItem :=
  drainLoop depth session queue.length queue

end SessionQueue

/-- `MQTT_ACK_QUEUE_DEPTH` -/
def ackQueueDepth : Nat := 32

/-- `MQTT_NACK_QUEUE_DEPTH` -/
def nackQueueDepth : Nat := 16

/-- `drain_cloud_ack` -/
def drainCloudAck : Nat → List SessionItem → Option Nat × List SessionItem :=
  SessionQueue.drain ackQueueDepth

/-- `drain_cloud_nack` -/
def drainCloudNack : Nat → List SessionItem → Option Nat × List SessionItem :=
  SessionQueue.drain nackQueueDepth

/-- `requeue_cloud_nack` -/
def requeueCloudNack (session seq : Nat) (queue : List SessionItem) :
    Bool × List SessionItem :=
  SessionQueue.sendToFront nackQueueDepth queue { sessionId := session, seq := seq }

end ForestLink.Mqtt
