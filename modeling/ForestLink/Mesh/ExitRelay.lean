/-
Module: ForestLink.Mesh.ExitRelay
Purpose: The two loops of `TransferEngine::tick` by which an exit passes cloud NACKs and
  fragment acknowledgements on to its source, with the queues they drain, the radios they
  reach and what other tasks queue in the meantime.
Trusted boundary: none
Main exports: MeshManager.radioCalls, MeshManager.sendOver, RelayQueue, ExitRelay, Relayed,
  ExitRelay.drainRounds, ExitRelay.relayNacks, ExitRelay.relayAcks
-/
import ForestLink.Mesh.Answers
import ForestLink.Mqtt.Client
import ForestLink.Mqtt.SessionQueue
import ForestLink.Transport.Radio

namespace ForestLink.Mesh

open ForestLink.Protocol
open ForestLink.Transport
open ForestLink.Mqtt (MqttClient SessionItem SessionQueue.send drainCloudNack requeueCloudNack
  nackQueueDepth fragmentQueueDepth)

/-! ## The radios below `send_packet` -/

namespace MeshManager

/-- The radio calls of `send_packet` for a packet that fits: both radios to everybody in
range, one radio to the next hop, or none without a route. -/
def radioCalls (m : MeshManager) (dst : Nat) (type : MeshPacketType) : List (Transport × Nat) :=
  if dst = broadcastAddr then [(.espnow, broadcastAddr), (.lora, broadcastAddr)]
  else if m.nextHop dst = broadcastAddr then
    if dst = exitAnyAddr then [(.espnow, broadcastAddr), (.lora, broadcastAddr)] else []
  else [(transportFor m.env type, m.nextHop dst)]

/-- The surroundings of a `send_packet` whose radio calls meet `radios`. -/
def radioEnv (m : MeshManager) (radios : Radios) (dst : Nat) (type : MeshPacketType) :
    MeshEnv :=
  { m.env with
    loraInitialized := radios.lora.initialized
    sendResults := (m.radioCalls dst type).map fun call =>
      (radios.send call.1 call.2 packetHeaderSize).1 }

/-- `send_packet` without payload: the result, and whether a radio took the packet. -/
def sendOver (m : MeshManager) (radios : Radios) (dst : Nat) (type : MeshPacketType)
    (seq : Nat) : (Int × Bool) × MeshManager :=
  let sent := (m.setEnv (m.radioEnv radios dst type)).sendPacket dst type [] seq
  ((sent.1,
    (m.radioCalls dst type).any fun call => (radios.send call.1 call.2 packetHeaderSize).2),
    sent.2)

end MeshManager

/-! ## The queues -/

/-- A queue that `tick` drains by session and to which it gives items back.  Other tasks add
`A` to it at any time. -/
structure RelayQueue (Q A : Type) where
  drain : Nat → Q → Option Nat × Q
  requeue : Nat → Nat → Q → Bool × Q
  arrive : Q → A → Q
  items : Q → List (Nat × Nat)

/-- `nack_queue_`, to which the MQTT event handler adds. -/
def cloudNackQueue : RelayQueue (List SessionItem) SessionItem where
  drain := drainCloudNack
  requeue := requeueCloudNack
  arrive queue item := (SessionQueue.send nackQueueDepth queue item).2
  items queue := queue.map fun item => (item.sessionId, item.seq)

/-- `fragment_ack_queue_`, to which the MQTT task adds while it publishes. -/
def fragmentAckQueue : RelayQueue MqttClient (Bool × List Int) where
  drain session client := client.drainFragmentAck session
  requeue session seq client := client.requeueFragmentAck session seq
  arrive client published := (client.processFragmentPublish published.1 published.2).2
  items client := client.fragmentAckQueue.map fun item => (item.sessionId, item.seq)

/-! ## The loops -/

/-- What one round of a loop meets. -/
structure RelayRound (A : Type) where
  radios : Radios := {}
  mesh : MeshEnv := {}
  congested : Bool := false
  arrivals : List A := []

/-- An exit with one of the queues. -/
structure ExitRelay (F Q : Type) where
  engine : TransferEngine F
  manager : MeshManager
  queue : Q

/-- One drained item: where it was sent and what the send met, the queue after the drain and
once the round is over, the result, and whether a radio took the packet. -/
structure Relayed (Q A : Type) where
  session : Nat
  seq : Nat
  source : Nat
  manager : MeshManager
  round : RelayRound A
  drained : Q
  left : Q
  result : Int
  handed : Bool

/-- The queue that a round finds when its send is over. -/
def Relayed.met {Q A : Type} (queue : RelayQueue Q A) (r : Relayed Q A) : Q :=
  r.round.arrivals.foldl queue.arrive r.drained

namespace ExitRelay

variable {F Q A : Type}

/-- The surroundings of the engine when its send returns `result`. -/
def engineEnv (e : TransferEngine F) (round : RelayRound A) (result : Int) : Env :=
  { e.io.env with sendResults := [result], congestion := [round.congested] }

/-- The sequence number that the send callback puts on the air. -/
def airSeq (e : TransferEngine F) (answer : FragmentAnswer) (round : RelayRound A)
    (seq : Nat) : Nat :=
  (e.setEnv (engineEnv e round 0)).io.airSeq answer.packetType seq

/-- The loop: drain an item, send it, put it back and stop when the send failed. `relay` is
the part of the engine. -/
def drainRounds (queue : RelayQueue Q A) (answer : FragmentAnswer)
    (relay : Nat → TransferEngine F → TransferEngine F) :
    List (RelayRound A) → ExitRelay F Q → List (Relayed Q A) × ExitRelay F Q
  | [], s => ([], s)
  | round :: rest, s =>
      let session := s.engine.activeSessionId
      match queue.drain session s.queue with
      | (none, drained) => ([], { s with queue := drained })
      | (some seq, drained) =>
          let manager := s.manager.setEnv round.mesh
          let sent := manager.sendOver round.radios s.engine.sourceAddr answer.meshType
            (airSeq s.engine answer round seq)
          let engine := relay seq (s.engine.setEnv (engineEnv s.engine round sent.1.1))
          let met := round.arrivals.foldl queue.arrive drained
          let item (left : Q) : Relayed Q A :=
            { session := session
              seq := seq
              source := s.engine.sourceAddr
              manager := manager
              round := round
              drained := drained
              left := left
              result := sent.1.1
              handed := sent.1.2 }
          if sent.1.1 < 0 then
            let left := (queue.requeue session seq met).2
            ([item left], { engine := engine, manager := sent.2, queue := left })
          else
            let later := drainRounds queue answer relay rest
              { engine := engine, manager := sent.2, queue := met }
            (item met :: later.1, later.2)

/-- The NACK bridge of `tick`. -/
def relayNacks [PathArith F] (now : Nat) (rounds : List (RelayRound SessionItem))
    (s : ExitRelay F (List SessionItem)) :
    List (Relayed (List SessionItem) SessionItem) × ExitRelay F (List SessionItem) :=
  if s.engine.isExitNode then
    drainRounds cloudNackQueue .nack
      (fun seq e => TransferEngine.relayCloudNacks now [seq] e) rounds s
  else ([], s)

/-- The deferred fragment ACK of `tick`. -/
def relayAcks [PathArith F] (rounds : List (RelayRound (Bool × List Int)))
    (s : ExitRelay F MqttClient) :
    List (Relayed MqttClient (Bool × List Int)) × ExitRelay F MqttClient :=
  if s.engine.isExitNode then
    drainRounds fragmentAckQueue .ack (fun seq e => TransferEngine.relayFragmentAcks [seq] e)
      rounds s
  else ([], s)

end ExitRelay

end ForestLink.Mesh
