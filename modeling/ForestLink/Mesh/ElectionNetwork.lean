/-
Module: ForestLink.Mesh.ElectionNetwork
Purpose: All nodes of a mesh with the TRANSFER_ACK packets between them, which may be
  delayed, duplicated, reordered and lost (`MeshManager::process_slab` for this type).
Trusted boundary: none
Main exports: Answer, ElectionNetwork, ElectionNetwork.Action, ElectionNetwork.act,
  ElectionNetwork.run
-/
import ForestLink.Mesh.TransferNetwork

namespace ForestLink.Mesh

open ForestLink.Protocol
open ForestLink.Mesh.TransferEngine (Call)

/-- A TRANSFER_ACK on the air; `src` is the node that sent it. -/
structure Answer where
  src : UInt16
  dst : Nat
  payload : List UInt8
deriving Repr, DecidableEq

namespace Answer

/-- `payload->session_id` -/
def session (answer : Answer) : Nat := (TransferAck.ofBytes answer.payload).sessionId

/-- `payload->exit_node_addr` -/
def exitNodeAddr (answer : Answer) : Nat := (TransferAck.ofBytes answer.payload).exitNodeAddr

end Answer

/-- The packet of a TRANSFER_ACK transmission that the radio took. -/
def Output.answer? (src : UInt16) : Output → Option Answer
  | .sent dst .transferAck _ payload result =>
      if 0 ≤ result then some { src := src, dst := dst, payload := payload } else none
  | _ => none

/-- Every node of the mesh, and every TRANSFER_ACK that was ever sent.  All other packets are
not tracked: a node may receive any of them at any time. -/
structure ElectionNetwork (F : Type) where
  nodes : UInt16 → TransferEngine F
  answers : List Answer := []

namespace ElectionNetwork

variable {F : Type} [PathArith F]

def boot (maxElectedExits : Nat) : ElectionNetwork F where
  nodes addr := .boot addr.toNat maxElectedExits

/-- One call of a node, after which its answers are on the air. -/
def callNode (n : ElectionNetwork F) (addr : UInt16) (call : Call) : ElectionNetwork F :=
  let e := n.nodes addr
  let after := e.step call
  { nodes := Function.update n.nodes addr after
    answers := (e.recentOutputs after).filterMap (Output.answer? addr) ++ n.answers }

inductive Action where
  | call (addr : UInt16) (call : Call)
  | receive (addr : UInt16) (answer : Answer) (env : Env)

/-- A TRANSFER_ACK reaches a node only over the air: any node that it is for, at any time
and any number of times. -/
def act (n : ElectionNetwork F) : Action → ElectionNetwork F
  | .call addr call =>
      match call.event with
      | .transferAck _ => n
      | _ => n.callNode addr call
  | .receive addr answer env =>
      if answer ∈ n.answers ∧ answer.dst = addr.toNat then
        n.callNode addr ⟨env, .transferAck answer.payload⟩
      else n

def run (n : ElectionNetwork F) (actions : List Action) : ElectionNetwork F := actions.foldl act n

end ElectionNetwork

end ForestLink.Mesh
