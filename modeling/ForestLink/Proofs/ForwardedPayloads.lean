/-
Module: ForestLink.Proofs.ForwardedPayloads
Purpose: A relayed publish or a mesh command keeps its payload, its source and its
  destination on every path through relays.
Trusted boundary: none
Main exports: transmits_of_passes, Forwards, ForwardsAlong, ForwardsAlong.keeps
-/
import Mathlib.Logic.Relation
import ForestLink.Proofs.CongestionBit

namespace ForestLink.Mesh

open ForestLink.Lib
open ForestLink.Protocol

/-- Packets between a node and the cloud that relays pass on. -/
def isBridgeType : MeshPacketType → Bool
  | .meshPub | .meshCmd => true
  | _ => false

/-- A node that receives `packet` sends it on as `next`. -/
def Forwards (packet next : MeshPacket) : Prop :=
  ∃ (m : MeshManager) (env : MeshEnv), m.Transmits ⟨env, .receive packet⟩ next true

/-- Any number of relays. -/
def ForwardsAlong : MeshPacket → MeshPacket → Prop := Relation.ReflTransGen Forwards

namespace MeshManager

variable {packet : MeshPacket}

/-- What a relay sends on of a packet: the packet one hop further. -/
def Relaying (packet : MeshPacket) : MeshOutput → Prop
  | .sent _ _ next _ true => next = { packet with header := nextHeader packet.header }
  | _ => True

/-- Nothing that a handler sends is a forwarded packet. -/
theorem relaying_of_disciplined {addr : Nat} (packet : MeshPacket) (output : MeshOutput)
    (disciplined : Disciplined addr none output) : Relaying packet output := by
  cases output with
  | sent transport peer next result forwarded =>
      cases forwarded with
      | false => trivial
      | true =>
          obtain ⟨origin, received, _⟩ := disciplined
          cases received
  | _ => trivial

theorem relaying_via {m after : MeshManager} (packet : MeshPacket)
    (via : Via apply (Handling m.myAddr none) m after) :
    Extends (Relaying packet) m.outputs after.outputs := by
  refine via.keeps (fun state => Extends (Relaying packet) m.outputs state.outputs) ?_
    (.refl _ _)
  intro state change handling before
  apply before.trans
  cases change with
  | emit output => exact .cons (relaying_of_disciplined packet output handling) _
  | restart => exact .cons (by trivial) _
  | answer _ | discovery _ _ | routeError _ | note _ _ => exact .refl _ _
  | route event => exact .refl _ _
  | _ => exact handling.elim

theorem relaying_dispatch (m : MeshManager) (bridge : isBridgeType packet.header.type = true) :
    Extends (Relaying packet) m.outputs (m.dispatch packet).outputs := by
  unfold dispatch
  cases type : packet.header.type with
  | meshPub =>
      exact relaying_via packet ((handleMeshPub_spec m _ _).mono fun _ => Traffic.handling)
  | meshCmd => exact relaying_via packet (handleMeshCmd_spec rfl _)
  | _ =>
      rw [type] at bridge
      cases bridge

theorem relaying_forwardPacket (m : MeshManager)
    (bridge : isBridgeType packet.header.type = true) :
    Extends (Relaying packet) m.outputs (m.forwardPacket packet).outputs := by
  have unmarked : ∀ congested, markCongestion (nextHeader packet.header) congested =
      nextHeader packet.header := by
    intro congested
    unfold markCongestion
    rw [type_nextHeader]
    cases type : packet.header.type <;> simp_all [isBridgeType]
  have unicast : rebroadcast packet.header.type = false := by
    cases type : packet.header.type <;> simp_all [isBridgeType, rebroadcast]
  unfold forwardPacket
  dsimp only
  rw [unicast, unmarked]
  split
  · exact relaying_via packet ((dropCongested_spec rfl packet).mono fun _ => Traffic.handling)
  split
  · contradiction
  split
  · exact .refl _ _
  · exact extends_sendVia (fun _ _ _ => rfl) m _

theorem relaying_relay (m : MeshManager) (bridge : isBridgeType packet.header.type = true) :
    Extends (Relaying packet) m.outputs (m.relay packet).outputs := by
  unfold relay alreadySeen
  split
  · exact .refl _ _
  · exact relaying_forwardPacket (m.recordSeen packet m.seenNow) bridge

theorem hearOffline_of_isBridgeType (m : MeshManager)
    (bridge : isBridgeType packet.header.type = true) : m.hearOffline packet = m := by
  unfold hearOffline
  apply if_neg
  rintro ⟨type, _⟩
  rw [type] at bridge
  cases bridge

theorem relaying_processSlab (m : MeshManager)
    (bridge : isBridgeType packet.header.type = true) :
    Extends (Relaying packet) m.outputs (m.processSlab packet).outputs := by
  unfold processSlab
  split
  · exact .refl _ _
  · dsimp only
    rw [hearOffline_of_isBridgeType m bridge]
    split
    · exact .refl _ _
    split
    · exact relaying_dispatch (m.hear packet) bridge
    · exact relaying_relay (m.hear packet) bridge

/-- What passes the duplicate check of a relay and can be sent goes one hop further. -/
theorem transmits_of_passes {m : MeshManager} {env : MeshEnv}
    (bridge : isBridgeType packet.header.type = true) (pass : m.passes env packet = true)
    (can : (m.setEnv env).sendable packet = true) :
    m.Transmits ⟨env, .receive packet⟩ { packet with header := nextHeader packet.header }
      true := by
  obtain ⟨output, new, isRelayed⟩ := List.any_eq_true.mp (relays_of_passes pass can)
  have relayed := (relaying_processSlab (m.setEnv env) bridge).recent output new
  cases output with
  | sent transport peer next result forwarded =>
      obtain ⟨rfl, _⟩ := (Bool.and_eq_true _ _).mp isRelayed
      obtain rfl : next = { packet with header := nextHeader packet.header } := relayed
      exact ⟨transport, peer, result, new⟩
  | _ => contradiction

end MeshManager

/-- A relay changes the hop fields and nothing else. -/
theorem Forwards.eq {packet next : MeshPacket} (forwards : Forwards packet next)
    (bridge : isBridgeType packet.header.type = true) :
    next = { packet with header := MeshManager.nextHeader packet.header } := by
  obtain ⟨m, env, transport, peer, result, new⟩ := forwards
  exact (MeshManager.relaying_processSlab (m.setEnv env) bridge).recent _ new

/-- Along any path payload, type, source and destination stay. -/
theorem ForwardsAlong.keeps {packet last : MeshPacket} (along : ForwardsAlong packet last)
    (bridge : isBridgeType packet.header.type = true) :
    last.payload = packet.payload ∧ last.header.type = packet.header.type ∧
      last.header.srcAddr = packet.header.srcAddr ∧
      last.header.dstAddr = packet.header.dstAddr := by
  induction along with
  | refl => exact ⟨rfl, rfl, rfl, rfl⟩
  | tail before step inductionHypothesis =>
      obtain ⟨payload, type, src, dst⟩ := inductionHypothesis
      have eq := step.eq (by rw [type]; exact bridge)
      rw [eq]
      exact ⟨payload, type, src, dst⟩

end ForestLink.Mesh
