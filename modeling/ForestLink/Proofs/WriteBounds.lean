/-
Module: ForestLink.Proofs.WriteBounds
Purpose: For which file descriptions no sequence of chunks, whatever their numbers and bytes,
  makes the reassembler slice or index out of range.
Trusted boundary: none
Main exports: FileReassembler.InBounds, OnWire, Guarded, Guarded.writeChunk,
  no_write_panics_iff, chunk_behind_end_panics
-/
import ForestLink.Proofs.BitmapAgreement

namespace ForestLink.Cloud

open ForestLink.Lib
open ForestLink.Protocol

/-! ## Lengths in the decoder -/

namespace FecDecoder

/-- Every fragment that the decoder holds is shorter than this. -/
def Short (decoder : FecDecoder) (bound : Nat) : Prop :=
  ∀ groupId, ∀ i < 8, ((decoder.group groupId).slot i).data.length < bound

theorem short_new {bound : Nat} (positive : 0 < bound) : new.Short bound := by
  intro groupId i inside
  have empty : ((new.group groupId).slot i).data = [] := by
    change ((List.replicate (fecGroupSize + 1) ({} : FecSlot)).getD i {}).data = []
    rw [List.getD_eq_getElem?_getD, List.getElem?_replicate]
    split <;> rfl
  rw [empty]
  exact positive

theorem short_put {group : FecGroup} (eight : group.slots.length = 8) {bound position : Nat}
    (inside : position < 8) (short : ∀ i < 8, (group.slot i).data.length < bound)
    {slot : FecSlot} (fits : slot.data.length < bound) :
    ∀ i < 8, ((group.put position slot).slot i).data.length < bound := by
  intro i below
  rw [FecGroup.slot_put eight inside]
  split
  · exact fits
  · exact short i below

/-- The arrival and the fragment that it lets the decoder reconstruct are no longer than what
has arrived so far. -/
theorem short_ingest {decoder : FecDecoder} (wf : decoder.Wf) {seq : Nat}
    (absent : ¬ decoder.Present seq) {data : List UInt8} {bound : Nat}
    (short : decoder.Short bound) (fits : data.length < bound) (isParity : Bool) :
    (decoder.ingest seq data isParity).1.Short bound ∧
      ∀ recovery, (decoder.ingest seq data isParity).2 = some recovery →
        recovery.data.length < bound := by
  have inside : seq % 8 < 8 := Nat.mod_lt _ (by decide)
  have arrivedFits : (arrived data isParity).data.length < bound := fits
  have stored := short_put (wf (seq / 8)).slots inside (short (seq / 8)) arrivedFits
  obtain ⟨filled, filledEq⟩ : ∃ filled,
      filled = (decoder.group (seq / 8)).put (seq % 8) (arrived data isParity) := ⟨_, rfl⟩
  have eight : filled.slots.length = 8 := by
    rw [filledEq]
    exact (List.length_set ..).trans (wf (seq / 8)).slots
  have updated : ∀ after : FecGroup, (∀ i < 8, (after.slot i).data.length < bound) →
      Short { groups := Function.update decoder.groups (seq / 8) (some after) } bound := by
    intro after afterShort groupId i below
    rw [group_update]
    split
    · exact afterShort i below
    · exact short groupId i below
  rw [ingest_eq wf absent, ← filledEq]
  rw [← filledEq] at stored
  cases completed : decoder.completes seq with
  | none => exact ⟨updated filled stored, fun recovery none => absurd none (by simp)⟩
  | some position =>
      have recovered : (filled.recovered position).length < bound := by
        have least := (FecGroup.maxLen_spec filled).2 (bound - 1)
          fun i below _ => Nat.le_sub_one_of_lt (stored i below)
        rw [FecGroup.length_recovered]
        omega
      have isData : position < 8 := Nat.lt_succ_of_lt (completes_iff.mp completed).1
      refine ⟨updated _ (short_put eight isData stored recovered), ?_⟩
      intro recovery found
      rw [← Option.some.inj found]
      exact recovered

end FecDecoder

/-! ## Offsets -/

namespace FileReassembler

/-- The offset of every data chunk that can arrive lies in the file. -/
def InBounds (r : FileReassembler) : Prop :=
  ∀ seq < 2 ^ 16, seq < r.chunkCount → isParitySlot seq = false →
    0 ≤ r.offsetOf (dataIdx seq) ∧ r.offsetOf (dataIdx seq) ≤ r.totalSize

/-- Without parity there is a data chunk for every number below the advertised count. -/
theorem offsetOf_of_not_fecActive {r : FileReassembler} (size : r.totalSize < 2 ^ 63)
    (chunk : r.chunkSize < 2 ^ 63) (positive : 0 < r.chunkSize) (inactive : r.fecActive = false)
    {seq : Nat} (inRange : seq < r.chunkCount) :
    ∃ offset, r.offsetOf seq = ((offset : Nat) : Int) ∧ offset ≤ r.totalSize := by
  have few : (r.chunkCount : Int) ≤ r.dataChunkCount := by simpa [fecActive] using inactive
  have below : (seq : Int) < r.dataChunkCount := by omega
  have exactSum : (r.totalSize : Int) + r.chunkSize - 1 < 2 ^ 63 := by
    by_contra large
    have wrapped : wrap64 ((r.totalSize : Int) + r.chunkSize - 1) ≤ 0 := by
      unfold wrap64 Int.bmod
      dsimp only
      split <;> omega
    have none := Int.tdiv_nonneg (Int.neg_nonneg_of_nonpos wrapped)
      (Int.natCast_nonneg r.chunkSize)
    rw [Int.neg_tdiv] at none
    change 0 ≤ -r.dataChunkCount at none
    omega
  have sum : wrap64 ((r.totalSize : Int) + r.chunkSize - 1) =
      ((r.totalSize + r.chunkSize - 1 : Nat) : Int) := by
    rw [wrap64_eq_self] <;> omega
  have quotient : r.dataChunkCount = ((r.totalSize + r.chunkSize - 1) / r.chunkSize : Nat) := by
    unfold dataChunkCount
    rw [sum]
    exact (Int.ofNat_tdiv ..).symm
  rw [quotient, Int.ofNat_lt] at below
  have inFile : (seq + 1) * r.chunkSize ≤ r.totalSize + r.chunkSize - 1 :=
    (Nat.le_div_iff_mul_le positive).mp below
  rw [Nat.succ_mul] at inFile
  refine ⟨seq * r.chunkSize, ?_, by omega⟩
  unfold offsetOf
  rw [← Int.natCast_mul]
  apply wrap64_eq_self
  · omega
  · omega

/-- The fields that decide where a chunk is written. -/
def SameLayout (r after : FileReassembler) : Prop :=
  after.totalSize = r.totalSize ∧ after.chunkSize = r.chunkSize ∧
    after.chunkCount = r.chunkCount

/-- A chunk that the index of its data places in the file is written and marked. -/
theorem place_data {r : FileReassembler} (sized : r.bitmap.length = (r.chunkCount + 7) / 8)
    {seq index offset : Nat} {data : List UInt8} (inRange : seq < r.chunkCount)
    (here : r.offsetOf index = offset) (inside : offset ≤ r.totalSize)
    (room : r.totalSize + data.length < 2 ^ 63) :
    ∃ after, (do
      let r ← r.writeToBufferAt index data
      (r.markChunk seq).map countData) = some after := by
  obtain ⟨bitmap, marked, _⟩ := Bitmap.set?_spec (Bitmap.div_lt_length sized inRange)
  apply Option.isSome_iff_exists.mp
  rw [writeToBufferAt_eq_some here inside room]
  simp [markChunk, marked]

theorem SameLayout.fecActive {r after : FileReassembler} (same : r.SameLayout after) :
    after.fecActive = r.fecActive := by
  obtain ⟨total, chunk, count⟩ := same
  unfold FileReassembler.fecActive dataChunkCount
  rw [total, chunk, count]

theorem SameLayout.inBounds {r after : FileReassembler} (same : r.SameLayout after)
    (bounds : r.InBounds) : after.InBounds := by
  obtain ⟨total, chunk, count⟩ := same
  unfold InBounds offsetOf
  rw [total, chunk, count]
  exact bounds

theorem SameLayout.trans {first second third : FileReassembler} (left : first.SameLayout second)
    (right : second.SameLayout third) : first.SameLayout third :=
  ⟨right.1.trans left.1, right.2.1.trans left.2.1, right.2.2.trans left.2.2⟩

/-- Where a fragment may be written without a panic. -/
def Placeable (r : FileReassembler) (index : Nat) (data : List UInt8) : Prop :=
  ∃ offset : Nat, r.offsetOf index = offset ∧ offset ≤ r.totalSize ∧
    r.totalSize + data.length < 2 ^ 63

theorem placed_exists {r : FileReassembler} (sized : r.bitmap.length = (r.chunkCount + 7) / 8)
    {seq index : Nat} {data : List UInt8} (inRange : seq < r.chunkCount)
    (placeable : r.Placeable index data) :
    ∃ after, (do
      let r ← r.writeToBufferAt index data
      (r.markChunk seq).map countData) = some after ∧ r.SameLayout after ∧ after.fec = r.fec := by
  obtain ⟨offset, here, inside, room⟩ := placeable
  obtain ⟨after, placed⟩ := place_data sized inRange here inside room
  refine ⟨after, placed, ?_⟩
  obtain ⟨_, _, _, _, _, rfl⟩ := placed_frame placed
  exact ⟨⟨rfl, rfl, rfl⟩, rfl⟩

theorem writeRecovered_exists {r : FileReassembler}
    (sized : r.bitmap.length = (r.chunkCount + 7) / 8) {recovered : Option FecRecovery}
    (each : ∀ recovery, recovered = some recovery → recovery.seq < r.chunkCount ∧
      r.Placeable (dataIdx recovery.seq) recovery.data) :
    ∃ after, r.writeRecovered recovered = some after ∧ r.SameLayout after ∧
      after.fec = r.fec := by
  cases recovered with
  | none => exact ⟨r, rfl, ⟨rfl, rfl, rfl⟩, rfl⟩
  | some recovery =>
      obtain ⟨inRange, placeable⟩ := each recovery rfl
      obtain ⟨flag, tested⟩ := Bitmap.test?_isSome (Bitmap.div_lt_length sized inRange)
      cases flag with
      | true => exact ⟨r, Option.bind_eq_some_iff.mpr ⟨true, tested, rfl⟩, ⟨rfl, rfl, rfl⟩, rfl⟩
      | false =>
          obtain ⟨after, placed, kept⟩ := placed_exists sized inRange placeable
          refine ⟨after, Option.bind_eq_some_iff.mpr ⟨false, tested, ?_⟩, kept⟩
          rw [if_neg Bool.false_ne_true]
          exact placed

theorem writeArrived_exists {r : FileReassembler} {seq : Nat} {data : List UInt8}
    (placeable : isParitySlot seq = false → r.Placeable (dataIdx seq) data) :
    ∃ after, r.writeArrived seq data = some after := by
  unfold writeArrived
  split
  · exact ⟨r, rfl⟩
  · rename_i isData
    obtain ⟨offset, here, inside, room⟩ := placeable (eq_false_of_ne_true isData)
    rw [writeToBufferAt_eq_some here inside room]
    exact ⟨_, rfl⟩

end FileReassembler

/-- The bookkeeping of a reassembler, and a common bound of everything its decoder holds that
fits into memory beside the file. -/
structure Guarded (r : FileReassembler) : Prop where
  tracked : Tracked r
  short : r.fec.Short (2 ^ 63 - r.totalSize)

namespace Guarded

open FileReassembler

variable {r after : FileReassembler} {seq : Nat} {data : List UInt8}

theorem placeable (bounds : r.InBounds) (small : seq < 2 ^ 16) (inRange : seq < r.chunkCount)
    (isData : isParitySlot seq = false) (room : r.totalSize + data.length < 2 ^ 63) :
    r.Placeable (dataIdx seq) data := by
  obtain ⟨positive, inside⟩ := bounds seq small inRange isData
  obtain ⟨offset, here⟩ := Int.eq_ofNat_of_zero_le positive
  exact ⟨offset, here, by omega, room⟩

/-- With FEC on: the chunk, and the one that it lets the decoder reconstruct. -/
theorem writeFecChunk (guarded : Guarded r) (bounds : r.InBounds) (active : r.fecActive = true)
    (small : seq < 2 ^ 16) (inRange : seq < r.chunkCount) (unmarked : ¬ r.bitmap.Marked seq)
    (room : r.totalSize + data.length < 2 ^ 63) :
    ∃ after, r.writeFecChunk seq data = some after ∧ r.SameLayout after ∧
      after.fec = (r.fec.ingest seq data (isParitySlot seq)).1 := by
  obtain ⟨wf, _, present⟩ := guarded.tracked.decoder active
  have absent : ¬ r.fec.Present seq := by rwa [present]
  obtain ⟨_, recoveryEq, _⟩ := FecDecoder.ingest_spec wf absent data (isParitySlot seq)
  have fits : data.length < 2 ^ 63 - r.totalSize := by omega
  obtain ⟨_, recoveredShort⟩ := FecDecoder.short_ingest wf absent guarded.short fits
    (isParitySlot seq)
  obtain ⟨⟨fec, recovery⟩, ingested⟩ :
      ∃ result, result = r.fec.ingest seq data (isParitySlot seq) := ⟨_, rfl⟩
  rw [← ingested] at recoveryEq recoveredShort ⊢
  have stays : { r with fec := fec }.InBounds := bounds
  obtain ⟨first, stored⟩ := writeArrived_exists (r := { r with fec := fec })
    fun isData => placeable stays small inRange isData room
  obtain ⟨buffer, count, rfl⟩ := writeArrived_frame stored
  obtain ⟨bitmap, written, length, _⟩ :=
    Bitmap.set?_spec (Bitmap.div_lt_length guarded.tracked.sized inRange)
  obtain ⟨marked, markedEq⟩ : ∃ marked : FileReassembler, marked = { r with
      fec := fec, buffer := buffer, dataChunksReceived := count, bitmap := bitmap
      chunksReceived := r.chunksReceived + 1 } := ⟨_, rfl⟩
  have sized : marked.bitmap.length = (marked.chunkCount + 7) / 8 := by
    rw [markedEq]
    exact length.trans guarded.tracked.sized
  have recovers : ∀ found, recovery = some found → found.seq < marked.chunkCount ∧
      marked.Placeable (dataIdx found.seq) found.data := by
    intro found same
    rw [same] at recoveryEq
    obtain ⟨position, completed, seqEq⟩ := Option.map_eq_some_iff.mp recoveryEq.symm
    have foundEq : seq / 8 * 8 + position = found.seq := seqEq
    have isData := (FecDecoder.completes_iff.mp completed).1
    have advertised := guarded.tracked.recovered_lt active inRange completed
    have notParity : isParitySlot found.seq = false := by
      rw [← Bool.not_eq_true, isParitySlot_iff]
      omega
    have still : marked.InBounds := markedEq ▸ bounds
    have fits : marked.totalSize + found.data.length < 2 ^ 63 := by
      have short := recoveredShort found same
      rw [markedEq]
      change r.totalSize + found.data.length < 2 ^ 63
      omega
    rw [foundEq] at advertised
    have count : marked.chunkCount = r.chunkCount := by rw [markedEq]
    rw [← count] at advertised
    exact ⟨advertised, placeable still (by omega) advertised notParity fits⟩
  obtain ⟨after, finished, layout, decoder⟩ := writeRecovered_exists sized recovers
  refine ⟨after, ?_, ?_, ?_⟩
  · unfold FileReassembler.writeFecChunk
    rw [← ingested]
    refine Option.bind_eq_some_iff.mpr ⟨_, stored, Option.bind_eq_some_iff.mpr ⟨marked, ?_, ?_⟩⟩
    · rw [markedEq]
      exact Option.bind_eq_some_iff.mpr ⟨bitmap, written, rfl⟩
    · exact finished
  · rw [markedEq] at layout
    exact layout
  · rw [decoder, markedEq]

/-- With FEC off: the chunk, which is data. -/
theorem writePlainChunk (guarded : Guarded r) (size : r.chunkSize < 2 ^ 63)
    (positive : 0 < r.chunkSize) (inactive : r.fecActive = false) (inRange : seq < r.chunkCount)
    (room : r.totalSize + data.length < 2 ^ 63) :
    ∃ after, r.writePlainChunk seq data = some after ∧ r.SameLayout after ∧
      after.fec = r.fec := by
  have total : r.totalSize < 2 ^ 63 := Nat.lt_of_le_of_lt (Nat.le_add_right _ _) room
  obtain ⟨offset, here, inside⟩ := offsetOf_of_not_fecActive total size positive inactive inRange
  exact placed_exists guarded.tracked.sized inRange ⟨offset, here, inside, room⟩

/-- One chunk of any number below 2^16 and any contents. -/
theorem writeChunk (guarded : Guarded r) (size : r.chunkSize < 2 ^ 63)
    (positive : 0 < r.chunkSize) (safe : r.fecActive = false ∨ r.InBounds)
    (small : seq < 2 ^ 16) (room : r.totalSize + data.length < 2 ^ 63) :
    ∃ result, r.writeChunk seq data = some result ∧ Guarded result.2 ∧
      r.SameLayout result.2 := by
  by_cases outside : r.chunkCount ≤ seq
  · refine ⟨(false, r), ?_, guarded, rfl, rfl, rfl⟩
    unfold FileReassembler.writeChunk
    rw [if_pos outside]
  have inRange : seq < r.chunkCount := Nat.lt_of_not_le outside
  obtain ⟨flag, tested⟩ := Bitmap.test?_isSome (Bitmap.div_lt_length guarded.tracked.sized inRange)
  cases flag with
  | true =>
      refine ⟨(false, r), ?_, guarded, rfl, rfl, rfl⟩
      unfold FileReassembler.writeChunk
      rw [if_neg outside]
      exact Option.bind_eq_some_iff.mpr ⟨true, tested, rfl⟩
  | false =>
      have unmarked : ¬ r.bitmap.Marked seq := by
        rw [Bitmap.Marked, tested]
        simp
      have stored : ∃ after, r.writeChunk seq data = some (true, after) ∧
          r.SameLayout after ∧ after.fec.Short (2 ^ 63 - r.totalSize) := by
        unfold FileReassembler.writeChunk
        rw [if_neg outside]
        cases active : r.fecActive with
        | true =>
            have bounds : r.InBounds := safe.resolve_left (by rw [active]; exact Bool.noConfusion)
            obtain ⟨after, wrote, layout, decoder⟩ :=
              guarded.writeFecChunk bounds active small inRange unmarked room
            obtain ⟨wf, _, present⟩ := guarded.tracked.decoder active
            have absent : ¬ r.fec.Present seq := by rwa [present]
            refine ⟨after, Option.bind_eq_some_iff.mpr ⟨false, tested, ?_⟩, layout, ?_⟩
            · rw [if_neg Bool.false_ne_true]
              dsimp only
              rw [if_pos rfl]
              exact Option.bind_eq_some_iff.mpr ⟨after, wrote, rfl⟩
            · rw [decoder]
              exact (FecDecoder.short_ingest wf absent guarded.short (by omega) _).1
        | false =>
            obtain ⟨after, wrote, layout, decoder⟩ :=
              guarded.writePlainChunk size positive active inRange room
            refine ⟨after, Option.bind_eq_some_iff.mpr ⟨false, tested, ?_⟩, layout, ?_⟩
            · rw [if_neg Bool.false_ne_true]
              dsimp only
              rw [if_neg Bool.false_ne_true]
              exact Option.bind_eq_some_iff.mpr ⟨after, wrote, rfl⟩
            · rw [decoder]
              exact guarded.short
      obtain ⟨after, called, layout, short⟩ := stored
      refine ⟨(true, after), called, ⟨?_, ?_⟩, layout⟩
      · rcases guarded.tracked.writeChunk called with ⟨impossible, _⟩ | ⟨_, _, _, tracked, _⟩
        · exact absurd impossible (by decide)
        · exact tracked
      · rw [layout.1]
        exact short

end Guarded

/-- A chunk as it can come off the wire: a 16-bit number, and bytes that fit into memory
beside the file. -/
structure OnWire (totalSize : Nat) (chunk : Nat × List UInt8) : Prop where
  seq : chunk.1 < 2 ^ 16
  room : totalSize + chunk.2.length < 2 ^ 63

theorem Guarded.writeChunks {r : FileReassembler} (guarded : Guarded r)
    (size : r.chunkSize < 2 ^ 63) (positive : 0 < r.chunkSize)
    (safe : r.fecActive = false ∨ r.InBounds) (chunks : List (Nat × List UInt8))
    (wire : ∀ chunk ∈ chunks, OnWire r.totalSize chunk) :
    ∃ after, r.writeChunks chunks = some after := by
  induction chunks generalizing r with
  | nil => exact ⟨r, rfl⟩
  | cons chunk rest inductionHypothesis =>
      have first := wire chunk List.mem_cons_self
      obtain ⟨⟨isNew, next⟩, wrote, kept, layout⟩ :=
        guarded.writeChunk size positive safe first.seq first.room
      have stillSafe : next.fecActive = false ∨ next.InBounds := by
        rcases safe with inactive | bounds
        · exact .inl (layout.fecActive.trans inactive)
        · exact .inr (layout.inBounds bounds)
      have later : ∀ chunk ∈ rest, OnWire next.totalSize chunk := fun chunk member =>
        layout.1 ▸ wire chunk (List.mem_cons_of_mem _ member)
      obtain ⟨after, ran⟩ := inductionHypothesis kept (layout.2.1 ▸ size)
        (layout.2.1 ▸ positive) stillSafe later
      exact ⟨after, Option.bind_eq_some_iff.mpr ⟨(isNew, next), wrote, ran⟩⟩

theorem guarded_new (sessionId filename : String) {totalSize : Nat} (chunkCount expectedCrc : Nat)
    (fragmentSize : Int) (size : totalSize < 2 ^ 63) :
    Guarded (newFileReassembler sessionId filename totalSize chunkCount expectedCrc
      fragmentSize) where
  tracked :=
    { sized := Bitmap.length_zeros chunkCount
      inRange := fun seq marked => absurd marked (Bitmap.not_marked_zeros _ seq)
      decoder := fun _ =>
        ⟨FecDecoder.wf_new,
          fun groupId _ isData others =>
            absurd (others 7 (by decide) (by omega)) (FecDecoder.not_present_new _),
          fun seq => iff_of_false (FecDecoder.not_present_new seq)
            (Bitmap.not_marked_zeros _ seq)⟩ }
  short := FecDecoder.short_new (Nat.sub_pos_of_lt size)

/-- A chunk whose place lies outside the file stops the process. -/
theorem writeChunk_panics {r : FileReassembler} (guarded : Guarded r)
    (active : r.fecActive = true) {seq : Nat} (inRange : seq < r.chunkCount)
    (unmarked : ¬ r.bitmap.Marked seq) (isData : isParitySlot seq = false)
    (outside : ¬ (0 ≤ r.offsetOf (dataIdx seq) ∧ r.offsetOf (dataIdx seq) ≤ r.totalSize)) :
    r.writeChunk seq [] = none := by
  have tested : r.bitmap.test? seq = some false :=
    Bitmap.test?_eq_false_of_not_marked (Bitmap.div_lt_length guarded.tracked.sized inRange)
      unmarked
  have missed : ∀ fec, { r with fec := fec }.writeArrived seq [] = none := by
    intro fec
    have backwards : r.offsetOf (dataIdx seq) < 0 ∨
        min (wrap64 (r.offsetOf (dataIdx seq) + ([] : List UInt8).length)) r.totalSize <
          r.offsetOf (dataIdx seq) := by
      rcases not_and_or.mp outside with negative | behind
      · exact .inl (Int.lt_of_not_ge negative)
      · exact .inr (Int.lt_of_le_of_lt (Int.min_le_right _ _) (Int.lt_of_not_ge behind))
    have none : r.writeToBufferAt (dataIdx seq) [] = none := by
      unfold FileReassembler.writeToBufferAt
      dsimp only
      rw [if_pos backwards]
    unfold FileReassembler.writeArrived
    rw [if_neg (Bool.eq_false_iff.mp isData), FileReassembler.writeToBufferAt_withFec, none]
    rfl
  unfold FileReassembler.writeChunk
  rw [if_neg (Nat.not_le_of_lt inRange), active]
  refine Option.bind_eq_none_iff.mpr fun flag same => ?_
  obtain rfl := Option.some.inj (tested.symm.trans same)
  refine Option.bind_eq_none_iff.mpr fun after wrote => ?_
  unfold FileReassembler.writeFecChunk at wrote
  obtain ⟨first, stored, _⟩ := Option.bind_eq_some_iff.mp wrote
  exact absurd ((missed _).symm.trans stored) (by simp)

/-- No sequence of chunks makes the reassembler of a file description panic if and only if it
does not expect parity, or the numbers that it advertises map into the file. -/
theorem no_write_panics_iff (sessionId filename : String) (totalSize chunkCount expectedCrc : Nat)
    (fragmentSize : Int) (size : totalSize < 2 ^ 63) (chunk : fragmentSize < 2 ^ 63) :
    let r := newFileReassembler sessionId filename totalSize chunkCount expectedCrc fragmentSize
    (∀ chunks, (∀ chunk ∈ chunks, OnWire totalSize chunk) → (r.writeChunks chunks).isSome = true) ↔
      r.fecActive = false ∨ r.InBounds := by
  intro r
  have guarded : Guarded r :=
    guarded_new sessionId filename chunkCount expectedCrc fragmentSize size
  have positive : 0 < r.chunkSize ∧ r.chunkSize < 2 ^ 63 := by
    change 0 < (if fragmentSize ≤ 0 then defaultChunkSize else fragmentSize.toNat) ∧
      (if fragmentSize ≤ 0 then defaultChunkSize else fragmentSize.toNat) < 2 ^ 63
    unfold defaultChunkSize
    split <;> omega
  constructor
  · intro runs
    cases active : r.fecActive with
    | false => exact .inl rfl
    | true =>
        refine .inr fun seq small inRange isData => ?_
        by_contra outside
        have wire : ∀ chunk ∈ [(seq, ([] : List UInt8))], OnWire totalSize chunk := by
          intro chunk member
          rw [List.mem_singleton.mp member]
          exact ⟨small, size⟩
        have panics := writeChunk_panics guarded active inRange
          (Bitmap.not_marked_zeros chunkCount seq) isData outside
        have some := runs [(seq, [])] wire
        unfold FileReassembler.writeChunks at some
        rw [panics] at some
        exact absurd some Bool.false_ne_true
  · intro safe chunks wire
    exact Option.isSome_iff_exists.mpr
      (guarded.writeChunks positive.2 positive.1 safe chunks wire)

/-- Seven full fragments and their parity: chunks of the wrong length and with a number that
was not advertised do no harm. -/
theorem full_group_never_panics :
    ((newFileReassembler "7" "f" 10192 8 0 1456).writeChunks
      [(7, [1]), (6, [2, 2]), (65535, []), (0, [3])]).isSome = true := by
  have inside : ∀ seq < 8, isParitySlot seq = false →
      0 ≤ (newFileReassembler "7" "f" 10192 8 0 1456).offsetOf (dataIdx seq) ∧
        (newFileReassembler "7" "f" 10192 8 0 1456).offsetOf (dataIdx seq) ≤ (10192 : Nat) := by
    decide +kernel
  have bounds : (newFileReassembler "7" "f" 10192 8 0 1456).InBounds :=
    fun seq _ inRange isData => inside seq inRange isData
  apply (no_write_panics_iff "7" "f" 10192 8 0 1456 (by decide) (by decide)).2 (.inr bounds)
  intro chunk member
  simp only [List.mem_cons, List.not_mem_nil, or_false] at member
  rcases member with rfl | rfl | rfl | rfl
  · exact ⟨by decide, by decide⟩
  · exact ⟨by decide, by decide⟩
  · exact ⟨by decide, by decide⟩
  · exact ⟨by decide, by decide⟩

/-- Ten bytes in fragments of 500, of which a meta message advertises two: the second one
would start at byte 500. -/
theorem chunk_behind_end_panics :
    (newFileReassembler "7" "f" 10 2 0 500).writeChunk 1 [1, 2, 3] = none := by
  decide +kernel

end ForestLink.Cloud
