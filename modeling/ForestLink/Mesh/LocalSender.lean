/-
Module: ForestLink.Mesh.LocalSender
Purpose: The stages of `tick_local_exit_arq`, and a transfer over the node's own connection
  that is ticked again and again, with a record of the fragments that MQTT took and of the
  cloud's requests.
Trusted boundary: none
Main exports: TransferEngine.takeCloudAcks, takeCloudNacks, retransmit, sendLocal,
  windowEvents, LocalSender, LocalSender.tick, LocalSender.run
-/
import ForestLink.Lib.WindowSender
import ForestLink.Mesh.LocalExit

namespace ForestLink.Mesh

open ForestLink.Lib

namespace TransferEngine

variable {F : Type}

/-! ## The stages of a tick -/

/-- Drain the ACKs and advance the base. -/
def takeCloudAcks (e : TransferEngine F) : TransferEngine F :=
  let acked := e.io.env.cloudAcks.foldl markCloudAck (e.setEnv { e.io.env with cloudAcks := [] })
  advanceCloudBase (acked.transfer.fragmentCount - acked.cloudBaseSeq) acked

/-- Drain the NACKs. -/
def takeCloudNacks (e : TransferEngine F) : TransferEngine F :=
  e.io.env.cloudNacks.foldl queueCloudNack (e.setEnv { e.io.env with cloudNacks := [] })

/-- The engine when it starts to send. -/
def asked (e : TransferEngine F) : TransferEngine F := e.takeCloudAcks.takeCloudNacks

/-- The retransmission loop. -/
def retransmit (e : TransferEngine F) : Nat × TransferEngine F :=
  sendRetransmissions e.cloudRetxQueue 0 e

/-- Retransmissions first, then new fragments. -/
def sendLocal (e : TransferEngine F) : TransferEngine F :=
  let compacted := e.retransmit.2.compactRetxQueue e.retransmit.1
  sendNewLocal (compacted.cloudBaseSeq + cloudWindowSize) cloudWindowSize e.retransmit.1 compacted

end TransferEngine

/-! ## What a tick did -/

/-- A fragment that MQTT took, and a request of the cloud. -/
def windowEvent : Output → Option WindowEvent
  | .toMqtt _ seq _ _ _ true => some (.forward seq)
  | .nackObserved _ seq => some (.asked seq)
  | _ => none

def windowEvents (outputs : List Output) : List WindowEvent := outputs.filterMap windowEvent

/-- The fragments that MQTT took, the last one first. -/
def forwardedSeqs (outputs : List Output) : List Nat :=
  (windowEvents outputs).filterMap fun event =>
    match event with
    | .forward seq => some seq
    | .asked _ => none

/-! ## A transfer -/

/-- An engine and what its ticks have done so far, newest first. -/
structure LocalSender (F : Type) where
  engine : TransferEngine F
  trace : List WindowEvent := []

namespace LocalSender

variable {F : Type} [PathArith F]

/-- The transfer is running. -/
def running (s : LocalSender F) : Bool := s.engine.transfer.active && s.engine.localExit

/-- `tick_local_exit_arq`, as long as the transfer is running. -/
def tick (s : LocalSender F) (env : Env) : LocalSender F :=
  if s.running then
    let ticked := (s.engine.begin_ env).tickLocalExitArq
    { engine := ticked, trace := windowEvents ticked.io.outputs ++ s.trace }
  else s

def run (s : LocalSender F) (envs : List Env) : LocalSender F := envs.foldl tick s

end LocalSender

/-! ## The whole system -/

namespace LocalExit

variable {F : Type} [PathArith F]

/-- What a tick finds: the acknowledgements and requests are those of the queues. -/
def found (x : LocalExit F) : Action → List Env
  | .tick env => [(x.drained env).io.env]
  | _ => []

/-- What the ticks of a run find. -/
def ticks : LocalExit F → List Action → List Env
  | _, [] => []
  | x, action :: rest =>
      x.found action ++ match x.step action with
        | some y => ticks y rest
        | none => []

end LocalExit

end ForestLink.Mesh
