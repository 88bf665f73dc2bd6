/-
Module: ForestLink.Protocol.Packet
Purpose: Packet types, the packed payloads of the transfer control packets, the
  congestion bit of ACK and NACK, and 32-bit clock differences
  (`packet.hpp`).
Trusted boundary: none
Main exports: PacketType, TransferAd, TransferAck, TransferDone,
  seqWithCongestion, seqStripCongestion, sub32
-/
import Mathlib.Data.Nat.Bitwise
import ForestLink.Protocol.Fec

namespace ForestLink.Protocol

/-- The packet types of the transfer protocol. -/
inductive PacketType where
  | data
  | ack
  | nack
  | transferAd
  | transferAck
  | transferDone
deriving Repr, DecidableEq

def broadcastAddr : Nat := 0xFFFF

/-- `TRANSPORT_SEND_BACKPRESSURE` -/
def sendBackpressure : Int := -2

/-- Difference of two `uint32_t` clock readings. -/
def sub32 (now earlier : Nat) : Nat := (now + 2 ^ 32 - earlier % 2 ^ 32) % 2 ^ 32

/-! ## Packed payloads -/

/-- Little-endian field of `width` bytes at `offset`; the bytes behind the end of
a short payload read as zero, as in the zeroed struct it is copied into. -/
def readLe (bytes : List UInt8) (offset : Nat) : Nat → Nat
  | 0 => 0
  | width + 1 => (bytes.getD offset 0).toNat + 256 * readLe bytes (offset + 1) width

def writeLe (value : Nat) : Nat → List UInt8
  | 0 => []
  | width + 1 => UInt8.ofNat (value % 256) :: writeLe (value / 256) width

/-- Reading a field back gives what its bytes can hold. -/
theorem readLe_writeLe (front back : List UInt8) (value width : Nat) :
    readLe (front ++ writeLe value width ++ back) front.length width = value % 256 ^ width := by
  induction width generalizing front value with
  | zero => simp [readLe, Nat.mod_one]
  | succ width inductionHypothesis =>
      have rest := inductionHypothesis (front ++ [UInt8.ofNat (value % 256)]) (value / 256)
      have shape : front ++ writeLe value (width + 1) ++ back =
          front ++ [UInt8.ofNat (value % 256)] ++ writeLe (value / 256) width ++ back := by
        rw [writeLe, List.append_cons]
      have first : (front ++ [UInt8.ofNat (value % 256)] ++ writeLe (value / 256) width ++
          back).getD front.length 0 = UInt8.ofNat (value % 256) := by
        simp
      rw [List.length_append, List.length_singleton] at rest
      have digits : value % 256 ^ (width + 1) =
          value % 256 + 256 * (value / 256 % 256 ^ width) := by
        rw [Nat.pow_succ', Nat.mod_mul]
      rw [shape, readLe, first, rest, UInt8.toNat_ofNat', digits, Nat.mod_mod]

/-- `TransferAdPayload` -/
structure TransferAd where
  sessionId : Nat
  fileSize : Nat
  fragmentSizeD8 : Nat
  crc32 : Nat
  fragmentCount : Nat
  filenameLen : Nat
  filename : List UInt8
deriving Repr, DecidableEq

/-- `MIN_TRANSFER_AD_LEN` -/
def minTransferAdLen : Nat := 13

def TransferAd.ofBytes (bytes : List UInt8) : TransferAd where
  sessionId := readLe bytes 0 2
  fileSize := readLe bytes 2 4
  fragmentSizeD8 := readLe bytes 6 1
  crc32 := readLe bytes 7 4
  fragmentCount := readLe bytes 11 2
  filenameLen := readLe bytes 13 1
  filename := (List.range 32).map fun i => bytes.getD (14 + i) 0

def TransferAd.toBytes (ad : TransferAd) : List UInt8 :=
  writeLe ad.sessionId 2 ++ writeLe ad.fileSize 4 ++ writeLe ad.fragmentSizeD8 1 ++
    writeLe ad.crc32 4 ++ writeLe ad.fragmentCount 2 ++ writeLe ad.filenameLen 1 ++
    (List.range 32).map fun i => ad.filename.getD i 0

/-- `TransferAckPayload`; `rssi` is the signed byte. -/
structure TransferAck where
  sessionId : Nat
  exitNodeAddr : Nat
  rssiToGw : Int
  hopsToGw : Nat
  activeTransfers : Nat
deriving Repr, DecidableEq

/-- `sizeof(TransferAckPayload)` -/
def transferAckLen : Nat := 7

/-- `static_cast<int8_t>` of a byte. -/
def toInt8 (byte : Nat) : Int := if byte < 128 then byte else (byte : Int) - 256

def TransferAck.ofBytes (bytes : List UInt8) : TransferAck where
  sessionId := readLe bytes 0 2
  exitNodeAddr := readLe bytes 2 2
  rssiToGw := toInt8 (readLe bytes 4 1)
  hopsToGw := readLe bytes 5 1
  activeTransfers := readLe bytes 6 1

def TransferAck.toBytes (ack : TransferAck) : List UInt8 :=
  writeLe ack.sessionId 2 ++ writeLe ack.exitNodeAddr 2 ++
    writeLe (ack.rssiToGw % 256).toNat 1 ++ writeLe ack.hopsToGw 1 ++
    writeLe ack.activeTransfers 1

theorem TransferAck.exitNodeAddr_ofBytes (ack : TransferAck) :
    (TransferAck.ofBytes ack.toBytes).exitNodeAddr = ack.exitNodeAddr % 2 ^ 16 := by
  have read := readLe_writeLe (writeLe ack.sessionId 2)
    (writeLe (ack.rssiToGw % 256).toNat 1 ++ (writeLe ack.hopsToGw 1 ++
      writeLe ack.activeTransfers 1)) ack.exitNodeAddr 2
  simpa [ofBytes, toBytes, List.append_assoc, writeLe] using read

/-- `TransferDonePayload` -/
structure TransferDone where
  sessionId : Nat
  exitNodeAddr : Nat
deriving Repr, DecidableEq

/-- `sizeof(TransferDonePayload)` -/
def transferDoneLen : Nat := 4

def TransferDone.ofBytes (bytes : List UInt8) : TransferDone where
  sessionId := readLe bytes 0 2
  exitNodeAddr := readLe bytes 2 2

def TransferDone.toBytes (done : TransferDone) : List UInt8 :=
  writeLe done.sessionId 2 ++ writeLe done.exitNodeAddr 2

/-! ## The congestion bit -/

/-- `CONGESTION_FLAG` -/
def congestionFlag : Nat := 0x8000

/-- `seq_with_congestion` -/
def seqWithCongestion (seq : Nat) (congested : Bool) : Nat :=
  if congested then seq ||| congestionFlag else seq

/-- `seq_has_congestion` -/
def seqHasCongestion (raw : Nat) : Bool := raw &&& congestionFlag != 0

/-- `seq_strip_congestion` on 16-bit values. -/
def seqStripCongestion (raw : Nat) : Nat := raw &&& 0x7FFF

/-- A sequence number that leaves the high bit free survives the flag. -/
theorem seqStripCongestion_withCongestion {seq : Nat} (small : seq < 2 ^ 15)
    (congested : Bool) : seqStripCongestion (seqWithCongestion seq congested) = seq := by
  have mask : (0x7FFF : Nat) = 2 ^ 15 - 1 := rfl
  have flag : congestionFlag = 2 ^ 15 := rfl
  unfold seqStripCongestion seqWithCongestion
  rw [mask, Nat.and_two_pow_sub_one_eq_mod, flag]
  cases congested with
  | false => exact Nat.mod_eq_of_lt small
  | true =>
      rw [if_pos rfl, Nat.or_mod_two_pow, Nat.mod_self, Nat.or_zero]
      exact Nat.mod_eq_of_lt small

theorem sub32_eq {now earlier : Nat} (ordered : earlier ≤ now) :
    sub32 now earlier = (now - earlier) % 2 ^ 32 := by
  unfold sub32
  omega

end ForestLink.Protocol
