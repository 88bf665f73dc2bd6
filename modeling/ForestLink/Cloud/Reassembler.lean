/-
Module: ForestLink.Cloud.Reassembler
Purpose: The cloud's file reassembler and its single-erasure decoder
  (`cloud-admin/internal/transfer/reassembler.go`).
Trusted boundary: none
Main exports: FecDecoder.ingest, FecDecoder.tryRecover, FileReassembler,
  newFileReassembler, FileReassembler.writeChunk, FileReassembler.isComplete,
  FileReassembler.verifyCrc
-/
import ForestLink.Lib.Bitmap
import ForestLink.Lib.Crc32
import ForestLink.Protocol.Fec

namespace ForestLink.Cloud

open ForestLink.Lib
open ForestLink.Protocol

/-!
A Go slice or index expression that is out of range stops the process.  Such an
expression is modelled by `none`, so "no call panics" is the statement that the
result is `some`.  Sequence numbers reach this code as the zero extension of an
unsigned 16-bit field, hence the guard `seq < 0` of the source has nothing to
reject and the model counts in `Nat`.  `int` has 64 bits; the products and sums that
can leave its range are wrapped.
-/

/-- The value of an `int` expression on 64 bits. -/
def wrap64 (value : Int) : Int := value.bmod (2 ^ 64)

theorem wrap64_eq_self {value : Int} (lower : -2 ^ 63 ≤ value) (upper : value < 2 ^ 63) :
    wrap64 value = value := by
  apply Int.bmod_eq_of_le
  · omega
  · omega

/-! ## FEC decoder -/

/-- `fecSlot` -/
structure FecSlot where
  data : List UInt8 := []
  present : Bool := false
  isParity : Bool := false
deriving Repr, DecidableEq

/-- `fecGroup`: seven data slots followed by the parity slot. -/
structure FecGroup where
  slots : List FecSlot := List.replicate (fecGroupSize + 1) {}
  count : Nat := 0
deriving Repr, DecidableEq

/-- `fecRecovery`: the one fragment an arrival can reconstruct. -/
structure FecRecovery where
  seq : Nat
  data : List UInt8
deriving Repr, DecidableEq

/-- `FecDecoder`; the Go map is the partial function it denotes. -/
structure FecDecoder where
  groups : Nat → Option FecGroup := fun _ => none

namespace FecGroup

/-- Slot `i`, an absent slot when the index is outside the group. -/
def slot (group : FecGroup) (i : Nat) : FecSlot := group.slots.getD i {}

/-- The positions the scan of `tryRecover` finds absent, in order. -/
def missing (group : FecGroup) : List Nat :=
  (List.range (fecGroupSize + 1)).filter fun i => !(group.slot i).present

/-- The longest fragment held. -/
def maxLen (group : FecGroup) : Nat :=
  (List.range (fecGroupSize + 1)).foldl
    (fun longest i =>
      if (group.slot i).present ∧ longest < (group.slot i).data.length
      then (group.slot i).data.length else longest) 0

/-- XOR of every slot but the missing one, padded to the longest fragment. -/
def recovered (group : FecGroup) (missing : Nat) : List UInt8 :=
  ((List.range (fecGroupSize + 1)).filter fun i => i ≠ missing).foldl
    (fun acc i => xorInto acc (group.slot i).data) (List.replicate group.maxLen 0)

/-- `g.slots[i] = slot; g.count++` -/
def put (group : FecGroup) (i : Nat) (slot : FecSlot) : FecGroup where
  slots := group.slots.set i slot
  count := group.count + 1

end FecGroup

namespace FecDecoder

/-- `NewFecDecoder` -/
def new : FecDecoder := {}

/-- `FecDecoder.tryRecover`: only a group that misses exactly one data slot is
completed.  Returns the group as the call leaves it and the recovery. -/
def tryRecover (group : FecGroup) (groupId : Nat) : FecGroup × Option FecRecovery :=
  match group.missing with
  | [missing] =>
      if missing = fecGroupSize then (group, none)
      else
        let data := group.recovered missing
        (group.put missing { data := data, present := true },
          some { seq := groupId * (fecGroupSize + 1) + missing, data := data })
  | _ => (group, none)

/-- `FecDecoder.Ingest` -/
def ingest (decoder : FecDecoder) (seq : Nat) (data : List UInt8) (isParity : Bool) :
    FecDecoder × Option FecRecovery :=
  let groupId := seq / (fecGroupSize + 1)
  let idx := seq % (fecGroupSize + 1)
  let group := (decoder.groups groupId).getD {}
  if (group.slot idx).present then
    ({ groups := Function.update decoder.groups groupId (some group) }, none)
  else
    let filled := group.put idx { data := data, present := true, isParity := isParity }
    let (after, recovery) :=
      if filled.count = fecGroupSize then tryRecover filled groupId else (filled, none)
    ({ groups := Function.update decoder.groups groupId (some after) }, recovery)

end FecDecoder

/-! ## FileReassembler -/

/-- `FileReassembler` -/
structure FileReassembler where
  sessionId : String
  filename : String
  totalSize : Nat
  chunkCount : Nat
  chunkSize : Nat
  expectedCrc : Nat
  buffer : List UInt8
  bitmap : Bitmap
  chunksReceived : Nat := 0
  dataChunksReceived : Nat := 0
  fec : FecDecoder := FecDecoder.new

/-- `DefaultChunkSize` -/
def defaultChunkSize : Nat := 500

/-- `NewFileReassembler` -/
def newFileReassembler (sessionId filename : String) (totalSize chunkCount : Nat)
    (expectedCrc : Nat) (fragmentSize : Int) : FileReassembler where
  sessionId := sessionId
  filename := filename
  totalSize := totalSize
  chunkCount := chunkCount
  chunkSize := if fragmentSize ≤ 0 then defaultChunkSize else fragmentSize.toNat
  expectedCrc := expectedCrc
  buffer := List.replicate totalSize 0
  bitmap := Bitmap.zeros chunkCount

namespace FileReassembler

/-- `(r.TotalSize + r.ChunkSize - 1) / r.ChunkSize` -/
def dataChunkCount (r : FileReassembler) : Int :=
  (wrap64 ((r.totalSize : Int) + r.chunkSize - 1)).tdiv r.chunkSize

/-- The guess of `WriteChunk`: more chunks than data chunks means parity. -/
def fecActive (r : FileReassembler) : Bool := decide (r.dataChunkCount < r.chunkCount)

/-- `dataIdx * r.ChunkSize` -/
def offsetOf (r : FileReassembler) (dataIdx : Nat) : Int := wrap64 ((dataIdx : Int) * r.chunkSize)

/-- `FileReassembler.writeToBufferAt`; `none` is the slice `Buffer[offset:end]`
with a negative bound or with its bounds the wrong way round. -/
def writeToBufferAt (r : FileReassembler) (dataIdx : Nat) (data : List UInt8) :
    Option FileReassembler :=
  let offset := r.offsetOf dataIdx
  let stop := min (wrap64 (offset + data.length)) r.totalSize
  if offset < 0 ∨ stop < offset then none
  else
    let source := data.take (stop - offset).toNat
    some { r with buffer := copyAt r.buffer offset.toNat source }

/-- A write whose offset lies in the file, of data that fits into memory beside it. -/
theorem writeToBufferAt_eq_some {r : FileReassembler} {dataIdx offset : Nat}
    {data : List UInt8} (here : r.offsetOf dataIdx = offset) (inside : offset ≤ r.totalSize)
    (room : r.totalSize + data.length < 2 ^ 63) :
    r.writeToBufferAt dataIdx data = some { r with
      buffer := copyAt r.buffer offset
        (data.take (min (offset + data.length) r.totalSize - offset)) } := by
  have sum : wrap64 ((offset : Int) + data.length) = offset + data.length := by
    apply wrap64_eq_self
    · omega
    · omega
  have forwards : ¬ ((offset : Int) < 0 ∨
      min ((offset : Int) + data.length) r.totalSize < offset) := by omega
  have length : (min ((offset : Int) + data.length) r.totalSize - offset).toNat =
      min (offset + data.length) r.totalSize - offset := by omega
  unfold writeToBufferAt
  simp only [here, sum]
  rw [if_neg forwards, length, Int.toNat_natCast]

/-- The decoder has no part in the write. -/
theorem writeToBufferAt_withFec (r : FileReassembler) (fec : FecDecoder) (dataIdx : Nat)
    (data : List UInt8) : { r with fec := fec }.writeToBufferAt dataIdx data =
      (r.writeToBufferAt dataIdx data).map fun r => { r with fec := fec } := by
  unfold writeToBufferAt offsetOf
  dsimp only
  split <;> rfl

/-- `r.Bitmap[seq/8] |= 1 << uint(seq%8); r.ChunksReceived++` -/
def markChunk (r : FileReassembler) (seq : Nat) : Option FileReassembler := do
  let bitmap ← r.bitmap.set? seq
  pure { r with bitmap := bitmap, chunksReceived := r.chunksReceived + 1 }

/-- `r.DataChunksReceived++` -/
def countData (r : FileReassembler) : FileReassembler :=
  { r with dataChunksReceived := r.dataChunksReceived + 1 }

/-- A parity chunk is only remembered by the decoder; a data chunk goes to the
buffer and is counted. -/
def writeArrived (r : FileReassembler) (seq : Nat) (data : List UInt8) :
    Option FileReassembler :=
  if isParitySlot seq then some r
  else (r.writeToBufferAt (dataIdx seq) data).map countData

/-- The inline handling of a recovered fragment at the end of `WriteChunk`. -/
def writeRecovered (r : FileReassembler) : Option FecRecovery → Option FileReassembler
  | none => some r
  | some recovery => do
      if ← r.bitmap.test? recovery.seq then pure r
      else
        let r ← r.writeToBufferAt (dataIdx recovery.seq) recovery.data
        (r.markChunk recovery.seq).map countData

/-- The branch of `WriteChunk` with FEC on. -/
def writeFecChunk (r : FileReassembler) (seq : Nat) (data : List UInt8) :
    Option FileReassembler := do
  let (fec, recovery) := r.fec.ingest seq data (isParitySlot seq)
  let r ← { r with fec := fec }.writeArrived seq data
  let r ← r.markChunk seq
  r.writeRecovered recovery

/-- The branch of `WriteChunk` with FEC off: every chunk is data. -/
def writePlainChunk (r : FileReassembler) (seq : Nat) (data : List UInt8) :
    Option FileReassembler := do
  let r ← r.writeToBufferAt seq data
  (r.markChunk seq).map countData

/-- `FileReassembler.WriteChunk`: whether the chunk was new, and the reassembler
after the call. -/
def writeChunk (r : FileReassembler) (seq : Nat) (data : List UInt8) :
    Option (Bool × FileReassembler) :=
  if r.chunkCount ≤ seq then some (false, r)
  else do
    if ← r.bitmap.test? seq then pure (false, r)
    else
      let r ← if r.fecActive then r.writeFecChunk seq data else r.writePlainChunk seq data
      pure (true, r)

/-- `FileReassembler.IsComplete` -/
def isComplete (r : FileReassembler) : Bool := decide (r.dataChunkCount ≤ r.dataChunksReceived)

/-- `FileReassembler.VerifyCRC` -/
def verifyCrc (r : FileReassembler) : Bool :=
  (crc32ChecksumIeee (r.buffer.take r.totalSize)).toNat == r.expectedCrc

/-- `Progress() >= 0.95`, the tail phase of the stall NACKs. -/
def inTailPhase (r : FileReassembler) : Bool :=
  decide (0 < r.dataChunkCount) && decide (19 * r.dataChunkCount ≤ 20 * r.dataChunksReceived)

/-- A sequence of `WriteChunk` calls on one reassembler. -/
def writeChunks (r : FileReassembler) : List (Nat × List UInt8) → Option FileReassembler
  | [] => some r
  | (seq, data) :: rest => do
      let (_, r) ← r.writeChunk seq data
      r.writeChunks rest

end FileReassembler

end ForestLink.Cloud
