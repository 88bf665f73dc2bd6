/-
Module: ForestLink.Protocol.Header
Purpose: The packed packet header, the type codes it carries and the packets that
  nodes exchange (`packet.hpp`).
Trusted boundary: none
Main exports: MeshPacketType, PacketHeader, MeshPacket, PacketHeader.ttl_setTtlHops,
  PacketHeader.hopCount_setTtlHops
-/
import ForestLink.Protocol.Packet

namespace ForestLink.Protocol

/-- `PROTOCOL_VERSION` -/
def protocolVersion : Nat := 1

/-- `PacketType` of a received packet; six bits may hold a code without a name. -/
inductive MeshPacketType where
  | data
  | ack
  | nack
  | parity
  | discovery
  | routeReply
  | routeError
  | transferAd
  | transferAck
  | exitOffline
  | transferDone
  | meshPub
  | meshCmd
  | unnamed (code : Nat)
deriving Repr, DecidableEq

namespace MeshPacketType

/-- The value of the enumerator. -/
def code : MeshPacketType → Nat
  | .data => 0x01
  | .ack => 0x02
  | .nack => 0x03
  | .parity => 0x06
  | .discovery => 0x10
  | .routeReply => 0x12
  | .routeError => 0x13
  | .transferAd => 0x20
  | .transferAck => 0x21
  | .exitOffline => 0x22
  | .transferDone => 0x23
  | .meshPub => 0x30
  | .meshCmd => 0x31
  | .unnamed code => code

def ofCode : Nat → MeshPacketType
  | 0x01 => .data
  | 0x02 => .ack
  | 0x03 => .nack
  | 0x06 => .parity
  | 0x10 => .discovery
  | 0x12 => .routeReply
  | 0x13 => .routeError
  | 0x20 => .transferAd
  | 0x21 => .transferAck
  | 0x22 => .exitOffline
  | 0x23 => .transferDone
  | 0x30 => .meshPub
  | 0x31 => .meshCmd
  | code => .unnamed code

end MeshPacketType

/-- `PacketHeader`: version and type share a byte, and so do time to live and hop
count. -/
structure PacketHeader where
  verType : Nat := 0
  srcAddr : Nat := 0
  dstAddr : Nat := 0
  ttlHops : Nat := 0
  seqNum : Nat := 0
deriving Repr, DecidableEq

namespace PacketHeader

variable (header : PacketHeader)

def version : Nat := header.verType >>> 6

/-- The type bits as `static_cast<uint8_t>(type())`. -/
def typeCode : Nat := header.verType &&& 0x3F

def type : MeshPacketType := .ofCode header.typeCode

def ttl : Nat := header.ttlHops >>> 4

/-- `hop_count` -/
def hopCount : Nat := header.ttlHops &&& 0x0F

/-- `set_ver_type` -/
def setVerType (version : Nat) (type : MeshPacketType) : PacketHeader :=
  { header with verType := (version <<< 6 ||| type.code &&& 0x3F) % 2 ^ 8 }

/-- `set_ttl_hops` on two `uint8_t` arguments. -/
def setTtlHops (ttl hops : Nat) : PacketHeader :=
  { header with ttlHops := (ttl <<< 4 ||| hops &&& 0x0F) % 2 ^ 8 }

/-! ## Two fields in one byte -/

private theorem nibbles : ∀ ttl < 16, ∀ hops < 16,
    ((ttl <<< 4 ||| hops &&& 0x0F) % 2 ^ 8) >>> 4 = ttl ∧
      ((ttl <<< 4 ||| hops &&& 0x0F) % 2 ^ 8) &&& 0x0F = hops := by
  decide

@[simp] theorem ttl_setTtlHops {ttl hops : Nat} (ttlFits : ttl < 16) (hopsFit : hops < 16) :
    (header.setTtlHops ttl hops).ttl = ttl :=
  (nibbles ttl ttlFits hops hopsFit).1

@[simp] theorem hopCount_setTtlHops {ttl hops : Nat} (ttlFits : ttl < 16)
    (hopsFit : hops < 16) : (header.setTtlHops ttl hops).hopCount = hops :=
  (nibbles ttl ttlFits hops hopsFit).2

@[simp] theorem verType_setTtlHops (ttl hops : Nat) :
    (header.setTtlHops ttl hops).verType = header.verType := rfl

@[simp] theorem srcAddr_setTtlHops (ttl hops : Nat) :
    (header.setTtlHops ttl hops).srcAddr = header.srcAddr := rfl

@[simp] theorem dstAddr_setTtlHops (ttl hops : Nat) :
    (header.setTtlHops ttl hops).dstAddr = header.dstAddr := rfl

end PacketHeader

/-- A packet of at least the size of the header. -/
structure MeshPacket where
  header : PacketHeader
  payload : List UInt8 := []
deriving Repr, DecidableEq

/-- `slab->len` -/
def MeshPacket.length (packet : MeshPacket) : Nat := packetHeaderSize + packet.payload.length

end ForestLink.Protocol
