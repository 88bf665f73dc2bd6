/-
Module: ForestLink.Mesh.TransferNetwork
Purpose: All nodes of a mesh with the DATA and ACK packets between them, which may be
  delayed, duplicated, reordered and lost (`MeshManager::process_slab` for these types,
  the deferred fragment ACK of `TransferEngine::tick`).
Trusted boundary: none
Main exports: Frame, TransferNetwork, Action, TransferNetwork.act, TransferNetwork.run
-/
import ForestLink.Mesh.Engine
import ForestLink.Mqtt.Client

namespace ForestLink.Mesh

open ForestLink.Lib
open ForestLink.Protocol
open ForestLink.Mqtt (MqttCall MqttCalls)
open ForestLink.Mesh.TransferEngine (Call Event)

/-!
Every node runs a transfer engine in its mesh task and an MQTT client beside it.  DATA and
ACK packets carry a sequence number and no session; the session and the fragment number
that the sender meant are kept with a packet on the air as a record that no node reads.
All other packets are not tracked: a node may receive any of them at any time.

The MQTT client of a node makes any complete calls in any order.  The drain of its
acknowledgements, one round of the loop in `tick`, is an action of its own.
-/

/-- A DATA or ACK packet on the air. -/
structure Frame where
  src : Nat
  dst : Nat
  type : PacketType
  seq : Nat
  payload : List UInt8
  session : Nat
  fragment : Nat
deriving Repr, DecidableEq

/-- The packet of a DATA transmission that the radio took. -/
def Output.dataFrame? (src session : Nat) : Output → Option Frame
  | .sent dst type seq payload result =>
      if type = .data ∧ 0 ≤ result then
        some
          { src := src
            dst := dst
            type := .data
            seq := seq
            payload := payload
            session := session
            fragment := seq }
      else none
  | _ => none

/-- What a call added to the outputs of a node, newest first. -/
def TransferEngine.recentOutputs {F : Type} (e after : TransferEngine F) : List Output :=
  after.io.outputs.take (after.io.outputs.length - e.io.outputs.length)

structure TransferNetwork (F : Type) where
  nodes : Nat → TransferEngine F
  clients : Nat → MqttCalls
  air : List Frame := []
  /-- Exit, session and number of every fragment that an MQTT client accepted. -/
  custody : List (Nat × Nat × Nat) := []

namespace TransferNetwork

variable {F : Type} [PathArith F]

def boot (maxElectedExits : Nat) : TransferNetwork F where
  nodes addr := .boot addr maxElectedExits
  clients addr := .boot addr

/-- A call of one engine.  Its acknowledgements are drained by `acknowledge`. -/
def callNode (n : TransferNetwork F) (addr : Nat) (call : Call) : TransferNetwork F :=
  let e := n.nodes addr
  let after := e.step { call with env := { call.env with fragmentAcks := [] } }
  { n with
    nodes := Function.update n.nodes addr after
    air := (e.recentOutputs after).filterMap (Output.dataFrame? addr e.transfer.sessionId) ++
      n.air }

/-- The handler to which `process_slab` gives a packet. -/
def event (frame : Frame) : Option Event :=
  match frame.type with
  | .data => some (.data frame.src frame.seq frame.payload)
  | .ack => some (.ack (seqStripCongestion frame.seq) frame.src)
  | _ => none

/-- A packet on the air reaches its destination; it may do so again. -/
def receive (n : TransferNetwork F) (frame : Frame) (env : Env) : TransferNetwork F :=
  match event frame with
  | some event => if frame ∈ n.air then n.callNode frame.dst ⟨env, event⟩ else n
  | none => n

/-- A complete call of the MQTT client of a node. -/
def callClient (n : TransferNetwork F) (addr : Nat) (call : MqttCall) : TransferNetwork F :=
  let s := n.clients addr
  { n with
    clients := Function.update n.clients addr (s.call call)
    custody := (s.accepts call).map (fun req => (addr, req.sessionId, req.seq)) ++ n.custody }

/-- One round of the deferred fragment ACK of an exit. -/
def acknowledge (n : TransferNetwork F) (addr : Nat) (env : Env) : TransferNetwork F :=
  let e := n.nodes addr
  if e.isExitNode then
    let drained := (n.clients addr).call (.drainFragmentAck e.activeSessionId)
    match drained.drained with
    | none => { n with clients := Function.update n.clients addr drained }
    | some (session, seq) =>
        let after := TransferEngine.relayFragmentAcks [seq] (e.setEnv env)
        if env.sendResults.headD 0 < 0 then
          { n with
            nodes := Function.update n.nodes addr after
            clients := Function.update n.clients addr (drained.call .requeueFragmentAck) }
        else
          { n with
            nodes := Function.update n.nodes addr after
            clients := Function.update n.clients addr drained
            air :=
              { src := addr
                dst := e.sourceAddr
                type := .ack
                seq := (e.setEnv env).io.airSeq .ack seq
                payload := []
                session := session
                fragment := seq } :: n.air }
  else n

inductive Action where
  | call (addr : Nat) (call : Call)
  | receive (frame : Frame) (env : Env)
  | client (addr : Nat) (call : MqttCall)
  | acknowledge (addr : Nat) (env : Env)
  | lose (frame : Frame)

/-- DATA and ACK packets reach a node only over the air. -/
def act (n : TransferNetwork F) : Action → TransferNetwork F
  | .call addr call =>
      match call.event with
      | .data .. | .ack .. => n
      | _ => n.callNode addr call
  | .receive frame env => n.receive frame env
  | .client addr call => n.callClient addr call
  | .acknowledge addr env => n.acknowledge addr env
  | .lose frame => { n with air := n.air.erase frame }

def run (n : TransferNetwork F) (actions : List Action) : TransferNetwork F := actions.foldl act n

end TransferNetwork

end ForestLink.Mesh
