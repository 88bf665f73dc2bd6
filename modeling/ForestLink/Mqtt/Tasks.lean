/-
Module: ForestLink.Mqtt.Tasks
Purpose: The mesh task and the MQTT task at work on one client, interleaved at single
  queue operations, mutex sections and atomic accesses.
Trusted boundary: none
Main exports: MeshPc, MqttPc, MqttTasks, MqttTasks.step, MqttTasks.run
-/
import ForestLink.Mqtt.Client

namespace ForestLink.Mqtt

/-- Where the mesh task stands in a call, before the named access. -/
inductive MeshPc where
  | idle
  | resetPublishQueue
  | resetAckQueue
  | resetBitmaps
  | enqueue (req : FragmentPublishRequest)
  | acknowledge (sessionId seq : Nat)
  | drainReceive (sessionId left : Nat)
  | drainClear (sessionId : Nat) (item : FragmentAckItem)
  | drainPutBack (sessionId left : Nat) (item : FragmentAckItem)
  | republish (seq : Nat)
deriving Repr, DecidableEq

/-- Where the MQTT task stands in `process_fragment_publish`. -/
inductive MqttPc where
  | idle
  | readPending
  | receive
  | check (req : FragmentPublishRequest) (fromPending : Bool)
  | dropStale (req : FragmentPublishRequest) (fromPending : Bool)
  | publish (req : FragmentPublishRequest) (fromPending : Bool)
  | deferring (req : FragmentPublishRequest)
  | accept (req : FragmentPublishRequest) (fromPending : Bool)
  | acknowledge (req : FragmentPublishRequest)
deriving Repr, DecidableEq

/-- The client with its two tasks, the pair that the mesh task's last call drained, and
as a record only the fragments that `esp_mqtt_client_publish` has accepted since the
active session was entered. -/
structure MqttTasks where
  client : MqttClient
  mesh : MeshPc := .idle
  mqtt : MqttPc := .idle
  drained : Option (Nat × Nat) := none
  published : List (Nat × Nat) := []

/-- What the scheduler lets happen next: the mesh task begins a call with its first
access or takes its next access, likewise the MQTT task. -/
inductive MqttAction where
  | activateTransferSession (sessionId : Nat)
  | clearTransferSession (sessionId : Nat)
  | publishFragment (sessionId seq srcNode : Nat) (data filename : Option (List UInt8))
  | drainFragmentAck (sessionId : Nat)
  | requeueFragmentAck
  | markFragmentForRepublish (sessionId seq : Nat)
  | mesh
  | processFragmentPublish (connected : Bool)
  | mqtt (msgId : Int)
deriving Repr, DecidableEq

namespace MqttTasks

def boot (nodeAddr : Nat) : MqttTasks := { client := { nodeAddr := nodeAddr } }

/-- The atomic exchange of the active session, which begins a reset. -/
def enter (s : MqttTasks) (sessionId : Nat) : MqttTasks :=
  { s with
    client := { s.client with activeTransferSession := sessionId }
    mesh := .resetPublishQueue
    drained := none
    published := [] }

/-- The mesh task, between calls, begins one. -/
def begin (s : MqttTasks) : MqttAction → MqttTasks
  | .activateTransferSession sessionId =>
      if s.client.activeTransferSession ≠ sessionId then s.enter sessionId
      else { s with drained := none }
  | .clearTransferSession sessionId =>
      if s.client.activeTransferSession = sessionId then s.enter 0
      else { s with drained := none }
  | .publishFragment sessionId seq srcNode data filename =>
      match data, filename with
      | some data, some filename =>
          if data = [] ∨ s.client.staleFor sessionId = true then { s with drained := none }
          else { s with
            mesh := .enqueue (MqttClient.request sessionId seq srcNode data filename)
            drained := none }
      | _, _ => { s with drained := none }
  | .drainFragmentAck sessionId =>
      { s with
        mesh := .drainReceive sessionId s.client.fragmentAckQueue.length
        drained := none }
  | .requeueFragmentAck =>
      match s.drained with
      | some (sessionId, seq) =>
          { s with
            client := (s.client.requeueFragmentAck sessionId seq).2
            drained := none }
      | none => s
  | .markFragmentForRepublish sessionId seq =>
      if s.client.activeTransferSession = 0 ∨ sessionId ≠ s.client.activeTransferSession then
        { s with drained := none }
      else { s with mesh := .republish seq, drained := none }
  | _ => s

/-- The next access of the mesh task. -/
def meshStep (s : MqttTasks) : MqttTasks :=
  match s.mesh with
  | .idle => s
  | .resetPublishQueue =>
      { s with client := s.client.resetPublishQueue, mesh := .resetAckQueue }
  | .resetAckQueue => { s with client := s.client.resetAckQueue, mesh := .resetBitmaps }
  | .resetBitmaps => { s with client := s.client.resetBitmaps, mesh := .idle }
  | .enqueue req =>
      match s.client.enqueueFragment req with
      | (.duplicate alreadyAccepted, client) =>
          if client.acknowledges req alreadyAccepted = true then
            { s with client := client, mesh := .acknowledge req.sessionId req.seq }
          else { s with client := client, mesh := .idle }
      | (_, client) => { s with client := client, mesh := .idle }
  | .acknowledge sessionId seq =>
      { s with client := (s.client.queueFragmentAck sessionId seq).2, mesh := .idle }
  | .drainReceive _ 0 => { s with mesh := .idle }
  | .drainReceive sessionId (left + 1) =>
      match s.client.fragmentAckQueue with
      | [] => { s with mesh := .idle }
      | item :: rest =>
          { s with
            client := { s.client with fragmentAckQueue := rest }
            mesh :=
              if item.sessionId = sessionId then .drainClear sessionId item
              else .drainPutBack sessionId left item }
  | .drainClear sessionId item =>
      { s with
        client := s.client.drained item.seq
        mesh := .idle
        drained := some (sessionId, item.seq) }
  | .drainPutBack sessionId left item =>
      { s with client := s.client.putBack item, mesh := .drainReceive sessionId left }
  | .republish seq =>
      { s with
        client := { s.client with fragmentAccepted := s.client.fragmentAccepted.clear seq }
        mesh := .idle }

/-- The next access of the MQTT task; `msgId` is what `esp_mqtt_client_publish`
returns. -/
def mqttStep (s : MqttTasks) (msgId : Int) : MqttTasks :=
  match s.mqtt with
  | .idle => s
  | .readPending =>
      match s.client.pendingFragment with
      | some req => { s with mqtt := .check req true }
      | none => { s with mqtt := .receive }
  | .receive =>
      match s.client.fragmentPublishQueue with
      | [] => { s with mqtt := .idle }
      | req :: rest =>
          { s with
            client := { s.client with fragmentPublishQueue := rest }
            mqtt := .check req false }
  | .check req fromPending =>
      if s.client.droppable req = true then { s with mqtt := .dropStale req fromPending }
      else { s with mqtt := .publish req fromPending }
  | .dropStale req fromPending =>
      { s with client := s.client.dropStale req fromPending, mqtt := .readPending }
  | .publish req fromPending =>
      if msgId < 0 then { s with mqtt := .deferring req }
      else { s with
        mqtt := .accept req fromPending
        published := s.published ++ [(req.sessionId, req.seq)] }
  | .deferring req => { s with client := s.client.deferFragment req, mqtt := .idle }
  | .accept req fromPending =>
      { s with
        client := s.client.acceptFragment req fromPending
        mqtt := .acknowledge req }
  | .acknowledge req =>
      { s with client := s.client.acknowledge req, mqtt := .readPending }

def step (s : MqttTasks) : MqttAction → MqttTasks
  | .mesh => s.meshStep
  | .mqtt msgId => s.mqttStep msgId
  | .processFragmentPublish connected =>
      if s.mqtt = .idle ∧ connected = true then { s with mqtt := .readPending } else s
  | action => if s.mesh = .idle then s.begin action else s

def run (s : MqttTasks) (actions : List MqttAction) : MqttTasks := actions.foldl step s

end MqttTasks

end ForestLink.Mqtt
