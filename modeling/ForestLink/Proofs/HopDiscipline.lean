/-
Module: ForestLink.Proofs.HopDiscipline
Purpose: Time to live and hop count of every copy on the air, and where the neighbour
  updates of a node come from.
Trusted boundary: none
Main exports: outputs_step, MeshNetwork.CopySound, MeshNetwork.HopSound, hop_discipline
-/
import ForestLink.Proofs.MeshCalls

namespace ForestLink.Mesh

open ForestLink.Lib
open ForestLink.Protocol

namespace MeshManager

variable {m : MeshManager} {addr : Nat}

/-! ## What one call sends -/

theorem outputs_apply (m : MeshManager) {event : Event} {change : MeshChange}
    (calling : Calling addr event change) :
    Extends (Disciplined addr event.received?) m.outputs (m.apply change).outputs := by
  cases change with
  | emit output =>
      have disciplined : Disciplined addr event.received? output := calling
      exact .cons disciplined _
  | restart => exact .cons (by trivial) _
  | reparent =>
      obtain ⟨parent, tracked, fields⟩ := updatePreferredParent_fields m
      change Extends _ m.outputs m.updatePreferredParent.outputs
      rw [fields]
      exact .refl _ _
  | _ => exact .refl _ _

/-- The transmissions of a call follow the hop discipline. -/
theorem outputs_step (m : MeshManager) (call : Call) :
    Extends (Disciplined m.myAddr call.event.received?) m.outputs (m.step call).outputs :=
  (step_spec m call).keeps
    (fun state => Extends (Disciplined m.myAddr call.event.received?) m.outputs state.outputs)
    (fun state _ calling before => before.trans (outputs_apply state calling)) (.refl _ _)

end MeshManager

/-! ## Every copy on the air -/

namespace MeshNetwork

variable {ι : Type} {net : MeshNetwork ι}

/-- What is known of a copy: its hop fields add up, the hop count is the number of
forwards, and a copy that was not forwarded comes from the node it names. -/
structure CopySound (net : MeshNetwork ι) (copy : AirCopy ι) : Prop where
  hops : copy.packet.header.hopCount = copy.forwards
  ttl : copy.packet.header.ttl + copy.forwards = defaultTtl
  direct : copy.forwards = 0 → copy.transmitter = copy.originator
  source : copy.packet.header.srcAddr = (net.nodes copy.originator).myAddr

def HopSound (net : MeshNetwork ι) : Prop := ∀ copy ∈ net.air, net.CopySound copy

/-- A forward takes one from the time to live and adds one to the hop count. -/
theorem CopySound.forwarded {copy : AirCopy ι} {packet : MeshPacket} (node : ι)
    (sound : net.CopySound copy) (alive : copy.packet.header.ttl ≠ 0)
    (rewritten : packet.header.ttlHops =
      (MeshManager.nextHeader copy.packet.header).ttlHops)
    (kept : packet.header.srcAddr = copy.packet.header.srcAddr) :
    net.CopySound
      { packet := packet
        originator := copy.originator
        transmitter := node
        forwards := copy.forwards + 1 } := by
  have total := sound.ttl
  have hops := sound.hops
  have bound : defaultTtl = 8 := rfl
  have ttlStep : (copy.packet.header.ttl + 255) % 2 ^ 8 = copy.packet.header.ttl - 1 := by omega
  have hopStep : (copy.packet.header.hopCount + 1) % 2 ^ 8 = copy.forwards + 1 := by omega
  have ttlAfter : packet.header.ttl = copy.packet.header.ttl - 1 := by
    unfold PacketHeader.ttl
    rw [rewritten]
    unfold MeshManager.nextHeader
    rw [ttlStep, hopStep]
    exact PacketHeader.ttl_setTtlHops copy.packet.header (by omega) (by omega)
  have hopsAfter : packet.header.hopCount = copy.forwards + 1 := by
    unfold PacketHeader.hopCount
    rw [rewritten]
    unfold MeshManager.nextHeader
    rw [ttlStep, hopStep]
    exact PacketHeader.hopCount_setTtlHops copy.packet.header (by omega) (by omega)
  refine ⟨hopsAfter, ?_, fun none => absurd none (Nat.succ_ne_zero _), kept.trans sound.source⟩
  change packet.header.ttl + (copy.forwards + 1) = defaultTtl
  omega

variable [DecidableEq ι]

theorem myAddr_callNode (net : MeshNetwork ι) (node : ι) (received : Option (AirCopy ι))
    (call : MeshManager.Call) (other : ι) :
    ((net.callNode node received call).nodes other).myAddr = (net.nodes other).myAddr := by
  unfold callNode
  dsimp only
  by_cases same : other = node
  · subst same
    rw [Function.update_self]
    exact MeshManager.myAddr_via (MeshManager.step_spec (net.nodes other) call)
  · rw [Function.update_of_ne same]

/-- One call keeps the discipline, whatever it received. -/
theorem HopSound.callNode (sound : net.HopSound) (node : ι) (call : MeshManager.Call)
    {received : Option (AirCopy ι)} (onAir : ∀ copy ∈ received, copy ∈ net.air)
    (same : received.map AirCopy.packet = call.event.received?) :
    (net.callNode node received call).HopSound := by
  have stable : ∀ copy, net.CopySound copy → (net.callNode node received call).CopySound copy :=
    fun copy known =>
      ⟨known.hops, known.ttl, known.direct,
        known.source.trans (myAddr_callNode net node received call _).symm⟩
  intro copy member
  apply stable
  unfold MeshNetwork.callNode at member
  rcases List.mem_append.mp member with new | old
  · obtain ⟨output, recent, made⟩ := List.mem_filterMap.mp new
    have disciplined := (MeshManager.outputs_step (net.nodes node) call).recent output recent
    cases output with
    | sent transport peer packet result forwarded =>
        cases forwarded with
        | false =>
            obtain ⟨ttl, hops, source⟩ := disciplined
            obtain rfl := Option.some.inj made
            exact ⟨hops, ttl, fun _ => rfl, source⟩
        | true =>
            obtain ⟨origin, from_, alive, rewritten, kept⟩ := disciplined
            cases received with
            | none => exact absurd (same.trans from_) (by simp)
            | some heard =>
                have packetEq : heard.packet = origin := Option.some.inj (same.trans from_)
                subst packetEq
                obtain rfl := Option.some.inj made
                exact (sound heard (onAir heard rfl)).forwarded node alive rewritten kept
    | _ => exact absurd made (by simp [copies])
  · exact sound copy old

theorem HopSound.step (sound : net.HopSound) (action : Action ι) :
    (net.step action).HopSound := by
  cases action with
  | receive node env copy =>
      unfold MeshNetwork.step
      dsimp only
      split
      · rename_i onAir
        exact sound.callNode node _ (fun heard here => Option.mem_some.mp here ▸ onAir) rfl
      · exact sound
  | call node call =>
      unfold MeshNetwork.step
      dsimp only
      split
      · exact sound
      · rename_i quiet
        apply sound.callNode node call (fun _ none => absurd none (by simp))
        obtain ⟨env, event⟩ := call
        cases event with
        | receive packet => exact absurd rfl (quiet packet)
        | _ => rfl

theorem HopSound.run (sound : net.HopSound) (actions : List (Action ι)) :
    (net.run actions).HopSound := by
  induction actions generalizing net with
  | nil => exact sound
  | cons action rest inductionHypothesis => exact inductionHypothesis (sound.step action)

/-- Along every forwarding path the time to live and the hop count of a copy add up to
`DEFAULT_TTL`, the hop count is the true number of forwards, at most `DEFAULT_TTL`, and a
copy with hop count zero was sent by its originator. A node that receives the copy leaves
its neighbour table alone or updates the entry of the node whose own transmission it
heard. -/
theorem hop_discipline (nodes : ι → MeshManager) (actions : List (Action ι)) :
    let net := MeshNetwork.run { nodes := nodes } actions
    ∀ copy ∈ net.air,
      (copy.packet.header.ttl + copy.packet.header.hopCount = defaultTtl ∧
        copy.packet.header.hopCount = copy.forwards ∧ copy.forwards ≤ defaultTtl ∧
        (copy.packet.header.hopCount = 0 → copy.transmitter = copy.originator)) ∧
      ∀ node env,
        let m := (net.nodes node).setEnv env
        (m.hear copy.packet).router.table = m.router.table ∨
          (copy.transmitter = copy.originator ∧ copy.forwards = 0 ∧
            (m.hear copy.packet).router.table =
              m.router.table.updateNeighbor env.nowMs (net.nodes copy.transmitter).myAddr
                { rssi := env.rssi
                  hops := 0
                  espnow := env.source == .espnow
                  lora := !(env.source == .espnow) }) := by
  intro net copy onAir
  have start : HopSound { nodes := nodes } := fun _ none => absurd none List.not_mem_nil
  obtain ⟨hops, ttl, direct, source⟩ := start.run actions copy onAir
  refine ⟨⟨hops ▸ ttl, hops, ?_, fun none => direct (hops ▸ none)⟩, ?_⟩
  · exact ttl ▸ Nat.le_add_left ..
  · intro node env m
    by_cases near : copy.packet.header.hopCount = 0
    · have first : copy.forwards = 0 := hops ▸ near
      refine .inr ⟨direct first, first, ?_⟩
      rw [direct first, ← source]
      unfold MeshManager.hear Router.hear
      rw [if_pos (show (routeFrame copy.packet).hopCount = 0 from near)]
      change m.router.table.updateNeighbor env.nowMs copy.packet.header.srcAddr
        { rssi := env.rssi
          hops := copy.packet.header.hopCount
          espnow := env.source == .espnow
          lora := !(env.source == .espnow) } = _
      rw [near]
    · refine .inl ?_
      unfold MeshManager.hear Router.hear
      rw [if_neg (show (routeFrame copy.packet).hopCount ≠ 0 from near)]

end MeshNetwork

end ForestLink.Mesh
