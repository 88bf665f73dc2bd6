/-
Module: ForestLink.Mesh.Answers
Purpose: The way of an ACK or NACK from the node that answers a fragment to the handler at
  its source: the send callback, the congestion echo of a relay, forwarding and dispatch.
Trusted boundary: none
Main exports: FragmentAnswer, FragmentAnswer.Travels, engineEvents
-/
import ForestLink.Mesh.Engine
import ForestLink.Mesh.Packets

namespace ForestLink.Mesh

open ForestLink.Protocol

/-- The two answers to a fragment. -/
inductive FragmentAnswer where
  | ack
  | nack
deriving Repr, DecidableEq

namespace FragmentAnswer

/-- The type as the transfer engine names it. -/
def packetType : FragmentAnswer → PacketType
  | .ack => .ack
  | .nack => .nack

/-- The type in the packet header. -/
def meshType : FragmentAnswer → MeshPacketType
  | .ack => .ack
  | .nack => .nack

/-- The handler call for the answer. -/
def event (seq fromAddr : Nat) : FragmentAnswer → TransferEngine.Event
  | .ack => .ack seq fromAddr
  | .nack => .nack seq fromAddr

end FragmentAnswer

/-- The calls of the transfer engine by which `process_slab` hands over a packet: the
sequence number without the congestion bit, and the signal behind it. -/
def engineEvents (packet : MeshPacket) (isExit : Bool) : List TransferEngine.Event :=
  let header := packet.header
  let signal := if seqHasCongestion header.seqNum then [TransferEngine.Event.congestion] else []
  match header.type with
  | .transferAd => [.transferAd header.srcAddr packet.payload isExit]
  | .transferAck => [.transferAck packet.payload]
  | .data | .parity => [.data header.srcAddr header.seqNum packet.payload]
  | .ack => .ack (seqStripCongestion header.seqNum) header.srcAddr :: signal
  | .nack => .nack (seqStripCongestion header.seqNum) header.srcAddr :: signal
  | .transferDone => [.transferDone header.srcAddr packet.payload]
  | _ => []

namespace MeshManager

/-- A transmission of a call. -/
def Transmits (m : MeshManager) (call : Call) (packet : MeshPacket) (forwarded : Bool) : Prop :=
  ∃ transport peer result,
    MeshOutput.sent transport peer packet result forwarded ∈ m.recentOutputs (m.step call)

/-- A call hands a packet to the transfer engine. -/
def Delivers (m : MeshManager) (call : Call) (packet : MeshPacket) (isExit : Bool) : Prop :=
  .toEngine packet isExit ∈ m.recentOutputs (m.step call)

end MeshManager

/-- A packet on its way that answers fragment `seq`; `flagged` says whether a node on the
way set the congestion flag. -/
inductive FragmentAnswer.Travels (answer : FragmentAnswer) (seq : Nat) :
    (flagged : Bool) → MeshPacket → Prop
  | answered {m : MeshManager} {env : MeshEnv} {io : Io} {dst : Nat} {packet : MeshPacket}
      (sent : m.Transmits
        ⟨env, .send dst answer.meshType [] (io.airSeq answer.packetType seq)⟩ packet false) :
      Travels answer seq (io.env.congestion.headD false) packet
  | echoed {m : MeshManager} {env : MeshEnv} {fragment packet : MeshPacket}
      (type : fragment.header.type = .data ∨ fragment.header.type = .parity)
      (number : fragment.header.seqNum = seq) (nack : answer = .nack)
      (sent : m.Transmits ⟨env, .receive fragment⟩ packet false) :
      Travels answer seq true packet
  | forwarded {m : MeshManager} {env : MeshEnv} {flagged : Bool} {packet next : MeshPacket}
      (before : Travels answer seq flagged packet)
      (sent : m.Transmits ⟨env, .receive packet⟩ next true) :
      Travels answer seq (flagged || (m.setEnv env).congested) next

end ForestLink.Mesh
