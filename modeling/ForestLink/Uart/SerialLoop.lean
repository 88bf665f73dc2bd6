/-
Module: ForestLink.Uart.SerialLoop
Purpose: The run loop of the serial port: a byte of the host, the progress of the transfer, the
  state of the mesh and the queued downlink events, each answered with frames
  (`UartIngest::run`).
Trusted boundary: none
Main exports: UartEvent, SerialLoop, SerialLoop.Round, SerialLoop.round, SerialLoop.act,
  SerialLoop.run, SerialLoop.wire
-/
import ForestLink.Mesh.Bridge
import ForestLink.Uart.Frames
import ForestLink.Uart.Node

namespace ForestLink.Uart

open ForestLink.Mesh
open ForestLink.Protocol

/-- `EVENT_QUEUE_DEPTH` -/
def eventQueueDepth : Nat := 16

/-- `MESH_POLL_INTERVAL_MS` -/
def meshPollIntervalMs : Nat := 10000

/-- `UART_EVT_DOWNLINK_DATA` -/
def evtDownlinkData : UInt8 := 0xC2

/-- `UART_EVT_MESH_STATE` -/
def evtMeshState : UInt8 := 0xC3

/-- `UartEvent` as `handle_topic_msg` pushes it, of type `UART_EVT_DOWNLINK_DATA`. -/
structure UartEvent where
  payload : List UInt8
  fits : payload.length ≤ 64

/-- The event of a topic message; the topic buffer holds at most 31 bytes. -/
def UartEvent.downlink (topic payload : List UInt8)
    (short : topic.length < MeshManager.topicBufLen) : UartEvent where
  payload := MeshManager.downlinkEvent topic payload
  fits := by
    unfold MeshManager.topicBufLen at short
    simp only [MeshManager.downlinkEvent, List.length_cons, List.length_append, List.length_take]
    omega

def UartEvent.frame (event : UartEvent) : UartFrame where
  cmd := evtDownlinkData
  payload := event.payload

/-- The port of a node, with its engine.  `sent` holds the frames written to the port. -/
structure SerialLoop (F : Type) where
  config : UartConfig
  engine : TransferEngine F
  source : Option UartIngest.Source := none
  parser : FrameParser := {}
  ingest : UartIngest := {}
  lastMeshPollMs : Nat := 0
  lastMeshHops : UInt8 := 0xFF
  lastMeshNeighbors : UInt8 := 0
  events : List UartEvent := []
  sent : List UartFrame := []

namespace SerialLoop

variable {F : Type} [PathArith F]

/-- The bytes written to the port. -/
def wire (s : SerialLoop F) : List UInt8 := s.sent.flatMap sendFrame

/-- The engine, reading what the ingest stores now. -/
def bound (s : SerialLoop F) : TransferEngine F :=
  ({ config := s.config, engine := s.engine, ingest := s.ingest, source := s.source } :
    UartNode F).bindReader

/-- One byte of the host, and `handle_frame` if it completes a frame. -/
def receiveByte (s : SerialLoop F) (byte : UInt8) (handle : UartFrame → HandleEnv) :
    SerialLoop F :=
  let parsed := s.parser.receive byte
  match parsed.2 with
  | none => { s with parser := parsed.1 }
  | some frame =>
      let handled := handleFrame s.config s.ingest s.bound frame (handle frame)
      { s with
        parser := parsed.1
        ingest := handled.2.1
        engine := handled.2.2.1
        source := if handled.2.2.2.isSome then handled.2.2.2 else s.source
        sent := s.sent ++ [handled.1] }

/-- `poll_transfer_progress` -/
def pollTransferProgress (s : SerialLoop F) (nowMs : Nat) : SerialLoop F :=
  let polled := s.ingest.pollTransferProgress s.config s.engine nowMs
  { s with ingest := polled.2, sent := s.sent ++ polled.1.toList }

/-- The event that tells of a change in the mesh. -/
def meshStateFrame (hops neighbors : UInt8) : UartFrame where
  cmd := evtMeshState
  payload := [if hops < 0xFF then 1 else 0, hops, neighbors]

/-- `poll_mesh_state` -/
def pollMeshState (s : SerialLoop F) (nowMs : Nat) (hops neighbors : UInt8) : SerialLoop F :=
  if sub32 nowMs s.lastMeshPollMs < meshPollIntervalMs then s
  else
    let polled := { s with lastMeshPollMs := nowMs }
    if hops ≠ s.lastMeshHops ∨ neighbors ≠ s.lastMeshNeighbors then
      { polled with
        lastMeshHops := hops
        lastMeshNeighbors := neighbors
        sent := s.sent ++ [meshStateFrame hops neighbors] }
    else polled

/-- `drain_event_queue` -/
def drainEventQueue (s : SerialLoop F) : SerialLoop F :=
  { s with
    events := s.events.drop 4
    sent := s.sent ++ (s.events.take 4).map UartEvent.frame }

/-- What one round of the loop meets: at most one byte, and for a frame that it completes the
surroundings of its handler; the clock as the two polls read it, and what the mesh answers. -/
structure Round where
  byte : Option UInt8 := none
  handle : UartFrame → HandleEnv := fun _ => {}
  nowMs : Nat := 0
  meshNowMs : Nat := 0
  hops : UInt8 := 0xFF
  neighbors : UInt8 := 0

/-- One round of `run`. -/
def round (s : SerialLoop F) (r : Round) : SerialLoop F :=
  let heard :=
    match r.byte with
    | none => s
    | some byte => s.receiveByte byte r.handle
  ((heard.pollTransferProgress r.nowMs).pollMeshState r.meshNowMs r.hops
    r.neighbors).drainEventQueue

/-- A round, or what the other tasks do in between: `push_event`, which drops an event when the
queue is full, and a call of the engine. -/
inductive Action where
  | round (r : Round)
  | pushEvent (event : UartEvent)
  | call (call : TransferEngine.Call)

/-- A transfer that the application starts does not read the ingest. -/
def callEngine (s : SerialLoop F) (call : TransferEngine.Call) : SerialLoop F :=
  let after := s.bound.step call
  { s with
    engine := after
    source := if !s.bound.transfer.active && after.transfer.active then none else s.source }

def act (s : SerialLoop F) : Action → SerialLoop F
  | .round r => s.round r
  | .pushEvent event =>
      if s.events.length < eventQueueDepth then { s with events := s.events ++ [event] } else s
  | .call call => s.callEngine call

def run (s : SerialLoop F) (actions : List Action) : SerialLoop F := actions.foldl act s

/-- The bytes that an action takes from the port. -/
def Action.bytes : Action → List UInt8
  | .round r => r.byte.toList
  | _ => []

end SerialLoop

end ForestLink.Uart
