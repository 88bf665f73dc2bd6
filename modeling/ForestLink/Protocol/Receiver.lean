/-
Module: ForestLink.Protocol.Receiver
Purpose: The receiver half of the firmware's selective-repeat ARQ: the bitmap, the reassembly
  buffer, the cumulative pointer and the NACKs (`selective_repeat.cpp`).
Trusted boundary: none
Main exports: Receiver, Allocations, Receiver.initReceiver, Receiver.receiveFragment,
  Receiver.isComplete, Receiver.run
-/
import ForestLink.Lib.Bitmap
import ForestLink.Protocol.FecDecoder
import ForestLink.Protocol.Packet

namespace ForestLink.Protocol

open ForestLink.Lib

/-!
`none` is an access outside an array: of the bitmap, of the NACK times, or a `memcpy` past the
end of the reassembly buffer.  Buffer sizes do not come near the end of `size_t`.
-/

/-- The receiver's members of `SelectiveRepeat`; the arrays are as long as allocated. -/
structure Receiver where
  windowSize : Nat := 0
  timeoutMs : Nat := 0
  reassemblyBuf : List UInt8 := []
  recvBitmap : Bitmap := []
  nackSentMs : List Nat := []
  totalFragments : Nat := 0
  fragmentsReceived : Nat := 0
  expectedSeq : Nat := 0
  fragmentSize : Nat := 0
  fileSize : Nat := 0
  receiverActive : Bool := false
  fecDecoder : FecDecoder := {}

/-- What the heap answers to `init_receiver`; the reassembly buffer comes with whatever its
bytes were. -/
structure Allocations where
  largestFreeBlock : Nat
  reassemblyBuf : Option (Nat → UInt8)
  recvBitmap : Bool
  nackSentMs : Bool
  fecDecoder : Bool

/-- A packet that the receiver sends to its peer. -/
structure Reply where
  type : PacketType
  seq : Nat
deriving Repr, DecidableEq

namespace Receiver

/-! ## Sessions -/

/-- `init` -/
def init (windowSize timeoutMs : Nat) : Receiver where
  windowSize := min windowSize arqWindow
  timeoutMs := timeoutMs

/-- `cleanup_receiver` -/
def cleanupReceiver (r : Receiver) : Receiver :=
  { r with
    reassemblyBuf := []
    recvBitmap := []
    nackSentMs := []
    totalFragments := 0
    fragmentsReceived := 0
    expectedSeq := 0
    receiverActive := false }

/-- `init_receiver`: whether the session started. -/
def initReceiver (r : Receiver) (totalFragments fragmentSize fileSize : Nat)
    (heap : Allocations) : Bool × Receiver :=
  let sized :=
    { r.cleanupReceiver with
      totalFragments := totalFragments
      fragmentSize := fragmentSize
      fileSize := fileSize }
  if heap.largestFreeBlock < fileSize then (false, sized)
  else
    match heap.reassemblyBuf with
    | none => (false, sized)
    | some stale =>
        if !heap.recvBitmap || !heap.nackSentMs then (false, sized)
        else
          (true,
            { sized with
              reassemblyBuf := (List.range fileSize).map stale
              recvBitmap := Bitmap.zeros totalFragments
              nackSentMs := List.replicate totalFragments 0
              receiverActive := true
              fecDecoder := r.fecDecoder.reset heap.fecDecoder })

/-- `is_complete` -/
def isComplete (r : Receiver) : Bool :=
  r.receiverActive && r.fragmentsReceived == r.totalFragments

/-! ## Marking and storing -/

/-- A further mark, counted. -/
def withMark (r : Receiver) (bits : Bitmap) : Receiver :=
  { r with recvBitmap := bits, fragmentsReceived := (r.fragmentsReceived + 1) % 2 ^ 16 }

def withBuffer (r : Receiver) (buffer : List UInt8) : Receiver :=
  { r with reassemblyBuf := buffer }

def markReceived (r : Receiver) (seq : Nat) : Option Receiver :=
  (r.recvBitmap.set? seq).map r.withMark

/-- `max_data_fragments` -/
def maxDataFragments (r : Receiver) : Nat :=
  if r.fragmentSize > 0 then (r.fileSize + r.fragmentSize - 1) / r.fragmentSize else 0

/-- The `memcpy` into the reassembly buffer, cut at the end of the file. -/
def store (r : Receiver) (dataIndex : Nat) (data : List UInt8) : Option Receiver :=
  let offset := dataIndex * r.fragmentSize
  let copyLen := if offset + data.length > r.fileSize then r.fileSize - offset else data.length
  if offset + copyLen ≤ r.reassemblyBuf.length then
    some (r.withBuffer (copyAt r.reassemblyBuf offset (data.take copyLen)))
  else none

/-- The inline handling of a fragment that the erasure decoder has recovered. -/
def storeRecovered (r : Receiver) : Option (Receiver × List Reply) :=
  let recSeq := r.fecDecoder.recoveredSeq
  if recSeq < r.totalFragments ∧ recSeq / 8 < (r.totalFragments + 7) / 8 then do
    let received ← r.recvBitmap.test? recSeq
    if received then some (r, [])
    else
      let marked ← r.markReceived recSeq
      let stored ←
        if dataIdx recSeq < r.maxDataFragments then
          marked.store (dataIdx recSeq) r.fecDecoder.recoveredData
        else some marked
      some (stored, [{ type := .ack, seq := recSeq }])
  else some (r, [])

/-! ## The cumulative pointer and the NACKs -/

/-- The bit that a byte index held in a `uint8_t` leads to. -/
def narrowBit (seq : Nat) : Nat := seq / 8 % 2 ^ 8 * 8 + seq % 8

/-- The loop that advances `expected_seq_`, with a bound on its rounds. -/
def advance (r : Receiver) : Nat → Option Receiver
  | 0 => some r
  | rounds + 1 =>
      if r.expectedSeq < r.totalFragments then do
        let received ← r.recvBitmap.test? (narrowBit r.expectedSeq)
        if received then advance { r with expectedSeq := r.expectedSeq + 1 } rounds
        else some r
      else some r

/-- `nack_cooldown` -/
def nackCooldown (r : Receiver) : Nat := if r.timeoutMs > 1000 then r.timeoutMs / 3 else r.timeoutMs

/-- The NACK loop over the remaining sequence numbers. -/
def nackGaps (r : Receiver) (now : Nat) : List Nat → Option (Receiver × List Reply)
  | [] => some (r, [])
  | seq :: rest => do
      let received ← r.recvBitmap.test? (narrowBit seq)
      if received then nackGaps r now rest
      else
        let sentMs ← r.nackSentMs[seq]?
        if sub32 now sentMs ≥ r.nackCooldown then
          let (after, replies) ← nackGaps { r with nackSentMs := r.nackSentMs.set seq now } now rest
          some (after, { type := .nack, seq := seq } :: replies)
        else nackGaps r now rest

/-- `nack_end` -/
def nackEnd (r : Receiver) (seq : Nat) : Nat :=
  if r.expectedSeq + r.windowSize < seq then r.expectedSeq + r.windowSize else seq

/-- The end of `receive_fragment`: the pointer moves, then the gaps in front of the fragment are
NACKed. -/
def finish (r : Receiver) (now seq : Nat) : Option (Receiver × List Reply) := do
  let advanced ← r.advance (r.totalFragments - r.expectedSeq)
  if advanced.expectedSeq < seq then
    advanced.nackGaps now
      (List.range' advanced.expectedSeq (advanced.nackEnd seq - advanced.expectedSeq))
  else some (advanced, [])

/-! ## Receiving -/

/-- `receive_fragment` behind the erasure decoder. -/
def accept (r : Receiver) (now seq : Nat) (data : List UInt8) :
    Option (Bool × Receiver × List Reply) :=
  if (r.totalFragments + 7) / 8 ≤ seq / 8 then some (false, r, [])
  else do
    let received ← r.recvBitmap.test? seq
    if received then some (false, r, [{ type := .ack, seq := seq }])
    else
      let marked ← r.markReceived seq
      if isParitySlot seq then
        let (after, nacks) ← marked.finish now seq
        some (true, after, { type := .ack, seq := seq } :: nacks)
      else if r.maxDataFragments ≤ dataIdx seq then
        some (false, marked, [{ type := .ack, seq := seq }])
      else
        let stored ← marked.store (dataIdx seq) data
        let (after, nacks) ← stored.finish now seq
        some (true, after, { type := .ack, seq := seq } :: nacks)

/-- `receive_fragment`; `now` is the reading of the clock, should it be read. -/
def receiveFragment (r : Receiver) (now seq : Nat) (data : List UInt8) :
    Option (Bool × Receiver × List Reply) :=
  if !r.receiverActive || r.totalFragments ≤ seq then some (false, r, [])
  else do
    let ingested := r.fecDecoder.ingest seq data (isParitySlot seq)
    let fed := { r with fecDecoder := ingested.2 }
    let (recovered, acks) ← if ingested.1 then fed.storeRecovered else some (fed, [])
    let (accepted, after, replies) ← recovered.accept now seq data
    some (accepted, after, acks ++ replies)

/-! ## Runs -/

/-- One call of `receive_fragment`. -/
structure Arrival where
  now : Nat
  seq : Nat
  data : List UInt8

/-- Several calls of `receive_fragment`. -/
def run (r : Receiver) : List Arrival → Option Receiver
  | [] => some r
  | arrival :: rest => do
      let (_, after, _) ← r.receiveFragment arrival.now arrival.seq arrival.data
      after.run rest

end Receiver

end ForestLink.Protocol
