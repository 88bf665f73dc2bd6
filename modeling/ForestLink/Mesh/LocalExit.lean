/-
Module: ForestLink.Mesh.LocalExit
Purpose: A transfer over the node's own internet connection together with everything it
  depends on: its start, `tick_local_exit_arq`, the MQTT client with its queues and its event
  handler, the cloud engine, and the messages between them.
Trusted boundary: none
Main exports: MqttNode, messageOf, LocalExit, LocalExit.start, LocalExit.Action,
  LocalExit.step, LocalExit.run
-/
import ForestLink.Cloud.Ingress
import ForestLink.Cloud.Publish
import ForestLink.Mesh.Engine
import ForestLink.Mqtt.Client
import ForestLink.Mqtt.CloudEvents
import ForestLink.Mqtt.FileMessages

namespace ForestLink.Mesh

open ForestLink.Lib
open ForestLink.Mqtt
open ForestLink.Cloud (EngineEvent FileChunk FileMeta ackPayload asciiRuntime jsonNumbers
  jsonText sourceOf)

/-!
The functions run one after the other in any order.  Messages to the cloud can be lost and
overtake each other; what the cloud publishes arrives, at any time and in any order.  Messages
of other nodes reach the cloud at any time.
-/

/-! ## The two halves of the client -/

/-- `MqttClient`: the fragments it publishes and the messages it gets. -/
structure MqttNode where
  client : MqttClient
  inbox : CloudInbox := {}

namespace MqttNode

/-- The queues of the event handler in `reset_transfer_runtime_state`. -/
def resetInbox (q : CloudInbox) (sessionId : Nat) : CloudInbox :=
  { q with
    activeTransferSession := sessionId
    ackQueue := []
    nackQueue := []
    transferCompleteQueue := [] }

/-- `activate_transfer_session` -/
def activate (n : MqttNode) (sessionId : Nat) : MqttNode where
  client := n.client.activateTransferSession sessionId
  inbox :=
    if n.inbox.activeTransferSession ≠ sessionId then resetInbox n.inbox sessionId else n.inbox

/-- `clear_transfer_session` -/
def clear (n : MqttNode) (sessionId : Nat) : MqttNode where
  client := n.client.clearTransferSession sessionId
  inbox := if n.inbox.activeTransferSession = sessionId then resetInbox n.inbox 0 else n.inbox

/-- `publish_transfer_meta`: the message it publishes, if any, and the node with the session
active. -/
def publishTransferMeta (n : MqttNode) (t : TransferMeta) (outboxSize : Nat)
    (connected : Bool) : Option (List UInt8) × MqttNode :=
  ((n.client.publishTransferMeta t outboxSize connected).1, n.activate t.sessionId)

/-- What the callbacks of `MeshManager::init` do with an output of the engine, `forward_meta`
apart; `none` where the engine was told another result of `publish_fragment`. -/
def output (n : MqttNode) : Output → Option MqttNode
  | .toMqtt session seq srcNode data filename queued =>
      let published := n.client.publishFragment session seq srcNode (some data) (some filename)
      if published.1 = queued then some { n with client := published.2 } else none
  | .nackObserved session seq =>
      some { n with client := n.client.markFragmentForRepublish session seq }
  | .sessionEnd session => some (n.clear session)
  | _ => some n

end MqttNode

/-- The arguments that the `forward_meta` callback of `MeshManager::init` passes on. -/
def forwardedMeta (myAddr : Nat) : Output → Option TransferMeta
  | .transferMeta session filename srcNode totalSize chunkCount fragmentSize crc32 =>
      some
        { sessionId := session
          filename := filename
          srcNode := srcNode
          exitNode := myAddr
          totalSize := totalSize
          chunkCount := chunkCount
          fragmentSize := fragmentSize
          crc32 := crc32 }
  | _ => none

/-- `while (drain(session, seq))`: the numbers and what stays in the queue. -/
def drainAll (drain : List SessionItem → Option Nat × List SessionItem) :
    Nat → List SessionItem → List Nat × List SessionItem
  | 0, queue => ([], queue)
  | rounds + 1, queue =>
      match drain queue with
      | (none, queue) => ([], queue)
      | (some seq, queue) =>
          let (seqs, queue) := drainAll drain rounds queue
          (seq :: seqs, queue)

/-! ## Messages of the cloud -/

structure CloudMessage where
  topic : List UInt8
  payload : List UInt8
deriving Repr, DecidableEq

/-- `PublishACK` -/
def ackMessage (sessionId : String) (msgType : List UInt8) (seq : Nat) : CloudMessage where
  topic := ascii "flp/admin/ack/" ++ ascii sessionId
  payload := ackPayload msgType seq

/-- `PublishTransferNACK` -/
def transferNackMessage (sessionId : String) (seqs : List Nat) : CloudMessage where
  topic := ascii "flp/admin/transfer_nack/" ++ ascii sessionId
  payload :=
    ascii "\x7b\"seqs\":[" ++ jsonNumbers seqs ++ ascii "],\"session_id\":" ++
      jsonText (ascii sessionId) ++ ascii "\x7d"

/-- `PublishTransferComplete` -/
def transferCompleteMessage (sessionId : String) : CloudMessage where
  topic := ascii "flp/admin/complete/" ++ ascii sessionId
  payload := ascii "\x7b\"status\":\"complete\"\x7d"

/-- The message to the nodes that an event of the engine is.  Transfer commands have a topic
that no node reads. -/
def messageOf : EngineEvent → Option CloudMessage
  | .ack sessionId seq => some (ackMessage sessionId (ascii "ACK") seq)
  | .nack sessionId seq => some (ackMessage sessionId (ascii "NACK") seq)
  | .transferNack sessionId seqs => some (transferNackMessage sessionId seqs)
  | .transferComplete sessionId => some (transferCompleteMessage sessionId)
  | _ => none

/-! ## The transfer -/

/-- The engine at the beginning of a call. -/
def TransferEngine.begin_ {F : Type} (e : TransferEngine F) (env : Env) : TransferEngine F :=
  { e with io := { e.io with env := env, outputs := [] } }

/-- The parties and the messages in transit.  `nodeId` is the node's id in the cloud, `since`
what the cloud had done when the transfer began. -/
structure LocalExit (F : Type) where
  engine : TransferEngine F
  node : MqttNode
  nodeId : String
  cloud : Cloud.Engine
  toCloud : List Cloud.Engine.Event := []
  toNode : List CloudMessage := []
  since : Nat := 0

namespace LocalExit

variable {F : Type} [PathArith F]

/-- The arguments of `publish_transfer_meta` for the running transfer. -/
def transferMeta (x : LocalExit F) : TransferMeta where
  sessionId := x.engine.transfer.sessionId
  filename := x.engine.transfer.filename
  srcNode := x.engine.myAddr
  exitNode := x.engine.myAddr
  totalSize := x.engine.transfer.size % 2 ^ 32
  chunkCount := x.engine.transfer.fragmentCount
  fragmentSize := x.engine.transfer.fragmentSize
  crc32 := x.engine.transfer.crc32

/-- The meta of the running transfer with the name that the record holds. -/
def fileMeta (x : LocalExit F) : FileMeta where
  nodeId := x.nodeId
  sessionId := toString x.engine.transfer.sessionId
  filename := String.ofList (x.engine.transfer.filename.map fun byte => Char.ofNat byte.toNat)
  totalSize := x.engine.transfer.size % 2 ^ 32
  chunkCount := x.engine.transfer.fragmentCount
  crc32 := x.engine.transfer.crc32
  fragmentSize := x.engine.transfer.fragmentSize

/-- The chunk in the message of an accepted fragment of this node. -/
def chunkOf (x : LocalExit F) (req : FragmentPublishRequest) : Option Cloud.Engine.Event :=
  if req.srcNode = x.node.client.nodeAddr then
    some (.chunk
      { nodeId := x.nodeId, sessionId := req.sessionId, seqNum := req.seq, data := req.data })
  else none

/-- What `Client.onMessage` of the cloud makes of a meta message of this node. -/
def metaOf (x : LocalExit F) (message : List UInt8) : Option Cloud.Engine.Event :=
  (asciiRuntime.unmarshal message).map fun fm =>
    .file (fm.withNode (sourceOf asciiRuntime x.nodeId fm))

/-- `publish_transfer_meta`; a message that the cloud cannot read is none. -/
def publishMeta (x : LocalExit F) (t : TransferMeta) (outboxSize : Nat) (connected : Bool) :
    LocalExit F :=
  let published := x.node.publishTransferMeta t outboxSize connected
  { x with
    node := published.2
    toCloud := x.toCloud ++ (published.1.bind x.metaOf).toList }

/-- `start_file_transfer`, which publishes the meta at once, with the name that the caller
gives. -/
def start (x : LocalExit F) (env : Env) (args : TransferEngine.StartArgs) (outboxSize : Nat)
    (connected : Bool) : Bool × LocalExit F :=
  let started := (x.engine.begin_ env).startFileTransfer args
  let told := started.2.io.outputs.reverse.filterMap (forwardedMeta x.engine.myAddr)
  let published := told.foldl (fun x t => x.publishMeta t outboxSize connected) x
  (started.1,
    { x with engine := started.2, node := published.node, toCloud := published.toCloud })

inductive Action where
  /-- `tick_local_exit_arq` -/
  | tick (env : Env)
  /-- `process_fragment_publish` -/
  | publish (connected : Bool) (msgIds : List Int)
  /-- The periodic `publish_transfer_meta` for the transfer. -/
  | announce (outboxSize : Nat) (connected : Bool)
  /-- `publish_transfer_meta` for a session that the node serves as an exit. -/
  | activate (sessionId : Nat)
  /-- `clear_transfer_session` -/
  | clear (sessionId : Nat)
  /-- One turn of `RunEngine`. -/
  | cloud (event : Cloud.Engine.Event) (now : Int)
  /-- A message does not reach the cloud. -/
  | lose (event : Cloud.Engine.Event)
  /-- `handle_mqtt_event` gets a message of the cloud. -/
  | deliver (message : CloudMessage)

/-- The engine at the start of a tick: the queues are drained for its session. -/
def drained (x : LocalExit F) (env : Env) : TransferEngine F :=
  let session := x.engine.transfer.sessionId
  let acks := drainAll (drainCloudAck session) x.node.inbox.ackQueue.length x.node.inbox.ackQueue
  let nacks :=
    drainAll (drainCloudNack session) x.node.inbox.nackQueue.length x.node.inbox.nackQueue
  { x.engine with
    io :=
      { x.engine.io with
        env := { env with cloudAcks := acks.1, cloudNacks := nacks.1 }
        outputs := [] } }

/-- The inbox behind the draining loops. -/
def drainedInbox (x : LocalExit F) : CloudInbox :=
  let session := x.engine.transfer.sessionId
  let q := x.node.inbox
  { q with
    ackQueue := (drainAll (drainCloudAck session) q.ackQueue.length q.ackQueue).2
    nackQueue := (drainAll (drainCloudNack session) q.nackQueue.length q.nackQueue).2 }

def tick (x : LocalExit F) (env : Env) : Option (LocalExit F) :=
  if x.engine.transfer.active && x.engine.localExit then
    let after := (x.drained env).tickLocalExitArq
    let node := after.io.outputs.reverse.foldlM MqttNode.output
      { x.node with inbox := x.drainedInbox }
    node.map fun node => { x with engine := after, node := node }
  else none

/-- Messages of this node reach the cloud after they were sent. -/
def canReach (x : LocalExit F) : Cloud.Engine.Event → Bool
  | .tick => true
  | .file m => m.nodeId != x.nodeId || x.toCloud.contains (.file m)
  | .chunk c => c.nodeId != x.nodeId || x.toCloud.contains (.chunk c)

/-- One turn of the cloud; what it publishes is on its way. -/
def cloudTurn (x : LocalExit F) (event : Cloud.Engine.Event) (now : Int) :
    Option (LocalExit F) :=
  if x.canReach event then
    (x.cloud.handle event now).map fun cloud =>
      { x with
        cloud := cloud
        toCloud := x.toCloud.erase event
        toNode := x.toNode ++ (cloud.trace.drop x.cloud.trace.length).filterMap messageOf }
  else none

/-- An action, unless it cannot happen. -/
def step (x : LocalExit F) : Action → Option (LocalExit F)
  | .tick env => x.tick env
  | .publish connected msgIds =>
      let published := x.node.client.processFragmentPublish connected msgIds
      some
        { x with
          node := { x.node with client := published.2 }
          toCloud := x.toCloud ++ published.1.filterMap x.chunkOf }
  | .announce outboxSize connected =>
      if x.engine.transfer.active && x.engine.localExit then
        some (x.publishMeta x.transferMeta outboxSize connected)
      else none
  | .activate sessionId => some { x with node := x.node.activate sessionId }
  | .clear sessionId => some { x with node := x.node.clear sessionId }
  | .cloud event now => x.cloudTurn event now
  | .lose event => some { x with toCloud := x.toCloud.erase event }
  | .deliver message =>
      if message ∈ x.toNode then
        some
          { x with
            node :=
              { x.node with
                inbox := x.node.inbox.handleMqttEvent message.topic message.payload }
            toNode := x.toNode.erase message }
      else none

def run (x : LocalExit F) (actions : List Action) : Option (LocalExit F) :=
  actions.foldlM step x

end LocalExit

end ForestLink.Mesh
