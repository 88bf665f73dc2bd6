/-
Module: ForestLink.Proofs.BitmapAgreement
Purpose: The reassembler and the selective-repeat receiver of one session each
  keep a bitmap of the chunks they have.  The two agree exactly as long as no
  parity group is completed by reconstruction, because a reconstructed chunk is
  marked by the reassembler only.
Trusted boundary: none
Main exports: Receiver.run, Receiver.Agrees, OneShort, Tracked.writeChunk,
  bitmaps_agree_iff
-/
import ForestLink.Proofs.FecDecoding
import ForestLink.Cloud.Engine

namespace ForestLink.Cloud

open ForestLink.Lib
open ForestLink.Protocol

/-! ## Runs of one receiver -/

/-- What happens to the receiver of a session while it is active: chunks are
processed, and the ticker runs the two NACK scans. -/
inductive ReceiverEvent where
  | chunk (seq : Nat) (data : List UInt8)
  | checkTimeouts (maxPerTick now : Int)
  | stallNacks (maxGaps maxProbeAhead cooldown now : Int)

namespace Receiver

/-- One event. -/
def step (receiver : Receiver) : ReceiverEvent → Option Receiver
  | .chunk seq data => (receiver.processChunk seq data).map Prod.fst
  | .checkTimeouts maxPerTick now =>
      some { receiver with sr := (receiver.sr.checkTimeouts maxPerTick now).1 }
  | .stallNacks maxGaps maxProbeAhead cooldown now =>
      some { receiver with
        sr := (receiver.sr.buildFilteredStallNacks maxGaps maxProbeAhead cooldown now).1 }

/-- A sequence of events; `none` if one of them panics. -/
def run (receiver : Receiver) : List ReceiverEvent → Option Receiver
  | [] => some receiver
  | event :: rest => do
      let receiver ← receiver.step event
      receiver.run rest

/-- The two bitmaps hold the same chunks, the base is the least chunk the
reassembler lacks, and neither NACK scan, whatever its parameters and whenever
it runs, asks for a chunk the reassembler has. -/
structure Agrees (receiver : Receiver) : Prop where
  marks : ∀ seq, receiver.sr.Received seq ↔ receiver.reassembler.bitmap.Marked seq
  belowBase : ∀ seq < receiver.sr.expectedBase, receiver.reassembler.bitmap.Marked seq
  atBase : ¬ receiver.reassembler.bitmap.Marked receiver.sr.expectedBase
  timeouts : ∀ maxPerTick now, ∀ seq ∈ (receiver.sr.checkTimeouts maxPerTick now).2,
    ¬ receiver.reassembler.bitmap.Marked seq
  stalls : ∀ maxGaps maxProbeAhead cooldown now,
    ∀ seq ∈ (receiver.sr.buildFilteredStallNacks maxGaps maxProbeAhead cooldown now).2,
      ¬ receiver.reassembler.bitmap.Marked seq

end Receiver

/-- The sequence numbers of the processed chunks. -/
def arrivedSeqs (events : List ReceiverEvent) : List Nat :=
  events.filterMap fun
    | .chunk seq _ => some seq
    | _ => none

/-- Some advertised parity group has received all of its eight chunks but one
data chunk. -/
def OneShort (chunkCount : Nat) (arrived : List Nat) : Prop :=
  ∃ groupId, ∃ position < 7, groupId * 8 + 7 < chunkCount ∧
    groupId * 8 + position ∉ arrived ∧
    ∀ i < 8, i ≠ position → groupId * 8 + i ∈ arrived

/-! ## What the reassembler's operations leave alone -/

namespace FileReassembler

theorem writeToBufferAt_frame {r after : FileReassembler} {index : Nat} {data : List UInt8}
    (wrote : r.writeToBufferAt index data = some after) :
    ∃ buffer, after = { r with buffer := buffer } := by
  simp only [writeToBufferAt] at wrote
  split at wrote
  · cases wrote
  · cases wrote
    exact ⟨_, rfl⟩

theorem markChunk_frame {r after : FileReassembler} {seq : Nat}
    (marked : r.markChunk seq = some after) :
    ∃ bitmap, r.bitmap.set? seq = some bitmap ∧
      after = { r with bitmap := bitmap, chunksReceived := r.chunksReceived + 1 } := by
  unfold markChunk at marked
  obtain ⟨bitmap, written, rest⟩ := Option.bind_eq_some_iff.mp marked
  cases rest
  exact ⟨bitmap, written, rfl⟩

theorem writeArrived_frame {r after : FileReassembler} {seq : Nat} {data : List UInt8}
    (wrote : r.writeArrived seq data = some after) :
    ∃ buffer count, after = { r with buffer := buffer, dataChunksReceived := count } := by
  unfold writeArrived at wrote
  split at wrote
  · cases wrote
    exact ⟨r.buffer, r.dataChunksReceived, rfl⟩
  · obtain ⟨middle, stored, rfl⟩ := Option.map_eq_some_iff.mp wrote
    obtain ⟨buffer, rfl⟩ := writeToBufferAt_frame stored
    exact ⟨buffer, r.dataChunksReceived + 1, rfl⟩

/-- Writing, marking and counting one data chunk. -/
theorem placed_frame {r after : FileReassembler} {index seq : Nat} {data : List UInt8}
    (wrote : (do
      let r ← r.writeToBufferAt index data
      (r.markChunk seq).map countData) = some after) :
    ∃ buffer bitmap chunks count, r.bitmap.set? seq = some bitmap ∧
      after = { r with
        buffer := buffer, bitmap := bitmap
        chunksReceived := chunks, dataChunksReceived := count } := by
  obtain ⟨middle, stored, rest⟩ := Option.bind_eq_some_iff.mp wrote
  obtain ⟨buffer, rfl⟩ := writeToBufferAt_frame stored
  obtain ⟨counted, marked, rfl⟩ := Option.map_eq_some_iff.mp rest
  obtain ⟨bitmap, written, rfl⟩ := markChunk_frame marked
  exact ⟨buffer, bitmap, _, _, written, rfl⟩

/-- A recovered fragment that is not marked yet is placed like a data chunk. -/
theorem writeRecovered_frame {r after : FileReassembler} {recovery : FecRecovery}
    (read : r.bitmap.test? recovery.seq = some false)
    (wrote : r.writeRecovered (some recovery) = some after) :
    ∃ buffer bitmap chunks count, r.bitmap.set? recovery.seq = some bitmap ∧
      after = { r with
        buffer := buffer, bitmap := bitmap
        chunksReceived := chunks, dataChunksReceived := count } := by
  obtain ⟨marked, tested, placed⟩ := Option.bind_eq_some_iff.mp wrote
  obtain rfl := Option.some.inj (read.symm.trans tested)
  rw [if_neg Bool.false_ne_true] at placed
  exact placed_frame placed

end FileReassembler

/-! ## Marks and decoder of an arbitrary reassembler -/

/-- No group of the decoder misses exactly one data chunk: such a group would
have been completed when its seventh chunk came in. -/
def FecDecoder.NoGap (decoder : FecDecoder) : Prop :=
  ∀ groupId, ∀ position < 7,
    (∀ i < 8, i ≠ position → decoder.Present (groupId * 8 + i)) →
      decoder.Present (groupId * 8 + position)

/-- The bitmap has room for every chunk, and with FEC on the decoder holds
exactly the marked chunks.  Nothing is said about their contents. -/
structure Tracked (r : FileReassembler) : Prop where
  sized : r.bitmap.length = (r.chunkCount + 7) / 8
  inRange : ∀ seq, r.bitmap.Marked seq → seq < r.chunkCount
  decoder : r.fecActive = true →
    r.fec.Wf ∧ r.fec.NoGap ∧ ∀ seq, r.fec.Present seq ↔ r.bitmap.Marked seq

namespace FecDecoder

/-- An arrival leaves no group one data chunk short. -/
theorem noGap_ingest {decoder : FecDecoder} (wf : decoder.Wf) (noGap : decoder.NoGap)
    {seq : Nat} (absent : ¬ decoder.Present seq) (data : List UInt8) (isParity : Bool) :
    (decoder.ingest seq data isParity).1.NoGap := by
  obtain ⟨_, _, presence⟩ := ingest_spec wf absent data isParity
  intro groupId position isData others
  by_cases sameGroup : groupId = seq / 8
  · subst sameGroup
    by_contra stillAbsent
    rw [presence] at stillAbsent
    -- The chunk at `position` is the one this very arrival would reconstruct.
    have completed : decoder.completes seq = some position := by
      cases found : decoder.completes seq with
      | some other =>
          obtain ⟨otherData, otherAbsent, otherNe, rest⟩ := completes_iff.mp found
          by_cases same : position = other
          · rw [same]
          · rcases rest position (by omega) same with isSeq | present
            · exact absurd (.inl isSeq) stillAbsent
            · exact absurd (.inr (.inl present)) stillAbsent
      | none =>
          rw [← found]
          refine completes_iff.mpr ⟨isData, ?_, ?_, ?_⟩
          · exact fun present => stillAbsent (.inr (.inl present))
          · exact fun isSeq => stillAbsent (.inl isSeq)
          · intro i inside differs
            rcases (presence _).mp (others i inside differs) with
              isSeq | present | ⟨other, isOther, _⟩
            · exact .inl isSeq
            · exact .inr present
            · rw [found] at isOther
              cases isOther
    exact stillAbsent (.inr (.inr ⟨position, completed, rfl⟩))
  · -- Presence in the other groups is as before.
    have same : ∀ i < 8, ((decoder.ingest seq data isParity).1.Present (groupId * 8 + i) ↔
        decoder.Present (groupId * 8 + i)) := by
      intro i inside
      rw [presence]
      constructor
      · rintro (isSeq | present | ⟨other, isOther, isRecovered⟩)
        · exact absurd (by omega) sameGroup
        · exact present
        · have otherLt := (completes_iff.mp isOther).1
          exact absurd (by omega) sameGroup
      · exact fun present => .inr (.inl present)
    rw [same position (by omega)]
    apply noGap groupId position isData
    intro i inside differs
    rw [← same i inside]
    exact others i inside differs

end FecDecoder

/-- The marks after a new chunk: its own and, with FEC on, that of the chunk it
lets the decoder reconstruct. -/
def MarksAfter (r : FileReassembler) (seq : Nat) (other : Nat) : Prop :=
  other = seq ∨ r.bitmap.Marked other ∨
    (r.fecActive = true ∧ ∃ position, r.fec.completes seq = some position ∧
      other = seq / 8 * 8 + position)

namespace Tracked

/-- A chunk reconstructed from its group is an advertised one, because the parity
of the group is. -/
theorem recovered_lt {r : FileReassembler} (tracked : Tracked r)
    (active : r.fecActive = true) {seq position : Nat} (inRange : seq < r.chunkCount)
    (completed : r.fec.completes seq = some position) :
    seq / 8 * 8 + position < r.chunkCount := by
  obtain ⟨_, _, present⟩ := tracked.decoder active
  obtain ⟨isData, _, _, rest⟩ := FecDecoder.completes_iff.mp completed
  have parityLt : seq / 8 * 8 + 7 < r.chunkCount := by
    rcases rest 7 (by decide) (by omega) with isSeq | there
    · rw [isSeq]
      exact inRange
    · exact tracked.inRange _ ((present _).mp there)
  omega

private theorem writeFecChunk {r after : FileReassembler} (tracked : Tracked r)
    (active : r.fecActive = true) {seq : Nat} {data : List UInt8}
    (inRange : seq < r.chunkCount) (unmarked : ¬ r.bitmap.Marked seq)
    (wrote : r.writeFecChunk seq data = some after) :
    Tracked after ∧ after.chunkCount = r.chunkCount ∧ after.fecActive = r.fecActive ∧
      ∀ other, after.bitmap.Marked other ↔ MarksAfter r seq other := by
  obtain ⟨wf, noGap, present⟩ := tracked.decoder active
  have absent : ¬ r.fec.Present seq := by rwa [present]
  obtain ⟨afterWf, recoveryEq, presence⟩ :=
    FecDecoder.ingest_spec wf absent data (isParitySlot seq)
  have afterNoGap := FecDecoder.noGap_ingest wf noGap absent data (isParitySlot seq)
  obtain ⟨⟨fec, recovery⟩, ingested⟩ :
      ∃ result, result = r.fec.ingest seq data (isParitySlot seq) := ⟨_, rfl⟩
  rw [← ingested] at afterWf recoveryEq presence afterNoGap
  unfold FileReassembler.writeFecChunk at wrote
  rw [← ingested] at wrote
  obtain ⟨first, stored, wrote⟩ := Option.bind_eq_some_iff.mp wrote
  obtain ⟨second, marked, wrote⟩ := Option.bind_eq_some_iff.mp wrote
  obtain ⟨buffer, count, rfl⟩ := FileReassembler.writeArrived_frame stored
  obtain ⟨bitmap, written, rfl⟩ := FileReassembler.markChunk_frame marked
  have marks := Bitmap.set?_marked written
  have sized : bitmap.length = (r.chunkCount + 7) / 8 :=
    (Bitmap.set?_length written).trans tracked.sized
  -- Every way to finish ends in a reassembler with these marks and this decoder.
  have finish : ∀ (buffer : List UInt8) (bits : Bitmap) (chunks count : Nat),
      bits.length = (r.chunkCount + 7) / 8 →
      (∀ other, bits.Marked other ↔ MarksAfter r seq other) →
      let after : FileReassembler :=
        { r with
          buffer := buffer, bitmap := bits, chunksReceived := chunks
          dataChunksReceived := count
          fec := fec }
      Tracked after ∧ after.chunkCount = r.chunkCount ∧ after.fecActive = r.fecActive ∧
        ∀ other, after.bitmap.Marked other ↔ MarksAfter r seq other := by
    intro buffer bits chunks count sized marks after
    refine ⟨⟨sized, ?_, fun _ => ⟨afterWf, afterNoGap, ?_⟩⟩, rfl, rfl, marks⟩
    · intro other otherMarked
      rcases (marks other).mp otherMarked with rfl | before | ⟨_, position, completed, rfl⟩
      · exact inRange
      · exact tracked.inRange other before
      · exact tracked.recovered_lt active inRange completed
    · intro other
      rw [presence, marks, MarksAfter, present]
      simp only [active, true_and]
  cases recovery with
  | none =>
      cases wrote
      apply finish
      · exact sized
      · intro other
        have notCompleted : r.fec.completes seq = none := by
          simpa using recoveryEq.symm
        rw [marks, MarksAfter, notCompleted]
        simp
  | some recovered =>
      obtain ⟨position, completed, seqEq⟩ := Option.map_eq_some_iff.mp recoveryEq.symm
      have seqEq : seq / 8 * 8 + position = recovered.seq := seqEq
      have recoveredLt := tracked.recovered_lt active inRange completed
      obtain ⟨isData, positionAbsent, positionNe, _⟩ := FecDecoder.completes_iff.mp completed
      have unmarkedThere : ¬ bitmap.Marked recovered.seq := by
        rw [← seqEq, marks, ← present]
        rintro (isSeq | before)
        · exact positionNe isSeq
        · exact positionAbsent before
      have read : bitmap.test? recovered.seq = some false :=
        Bitmap.test?_eq_false_of_not_marked
          (Bitmap.div_lt_length sized (seqEq ▸ recoveredLt)) unmarkedThere
      obtain ⟨_, bits, _, _, recoveredWritten, rfl⟩ :=
        FileReassembler.writeRecovered_frame read wrote
      apply finish
      · exact (Bitmap.set?_length recoveredWritten).trans sized
      · intro other
        rw [Bitmap.set?_marked recoveredWritten, marks, ← seqEq, MarksAfter, completed]
        simp only [active, true_and, Option.some.injEq, exists_eq_left']
        exact or_rotate

private theorem writePlainChunk {r after : FileReassembler} (tracked : Tracked r)
    (inactive : r.fecActive = false) {seq : Nat} {data : List UInt8}
    (inRange : seq < r.chunkCount) (wrote : r.writePlainChunk seq data = some after) :
    Tracked after ∧ after.chunkCount = r.chunkCount ∧ after.fecActive = r.fecActive ∧
      ∀ other, after.bitmap.Marked other ↔ MarksAfter r seq other := by
  obtain ⟨_, bits, _, _, written, rfl⟩ := FileReassembler.placed_frame wrote
  have marks := Bitmap.set?_marked written
  refine ⟨⟨(Bitmap.set?_length written).trans tracked.sized, ?_, ?_⟩, rfl, rfl, ?_⟩
  · intro other otherMarked
    rcases (marks other).mp otherMarked with rfl | before
    · exact inRange
    · exact tracked.inRange other before
  · intro active
    have active : r.fecActive = true := active
    rw [inactive] at active
    cases active
  · intro other
    rw [MarksAfter, inactive]
    simp only [Bool.false_eq_true, false_and, or_false]
    exact marks other

/-- `WriteChunk` with arbitrary contents: a chunk that is refused changes
nothing; a chunk that is accepted was neither out of range nor a duplicate. -/
theorem writeChunk {r after : FileReassembler} (tracked : Tracked r) {seq : Nat}
    {data : List UInt8} {isNew : Bool}
    (wrote : r.writeChunk seq data = some (isNew, after)) :
    (isNew = false ∧ after = r ∧ (r.chunkCount ≤ seq ∨ r.bitmap.Marked seq)) ∨
      (isNew = true ∧ seq < r.chunkCount ∧ ¬ r.bitmap.Marked seq ∧ Tracked after ∧
        after.chunkCount = r.chunkCount ∧ after.fecActive = r.fecActive ∧
        ∀ other, after.bitmap.Marked other ↔ MarksAfter r seq other) := by
  unfold FileReassembler.writeChunk at wrote
  split at wrote
  · rename_i outside
    cases wrote
    exact .inl ⟨rfl, rfl, .inl outside⟩
  · rename_i inside
    have inRange : seq < r.chunkCount := Nat.lt_of_not_le inside
    obtain ⟨flag, read, wrote⟩ := Option.bind_eq_some_iff.mp wrote
    cases flag with
    | true =>
        cases wrote
        exact .inl ⟨rfl, rfl, .inr read⟩
    | false =>
        have unmarked : ¬ r.bitmap.Marked seq := by
          rw [Bitmap.Marked, read]
          simp
        rw [if_neg Bool.false_ne_true] at wrote
        split at wrote
        · rename_i active
          obtain ⟨result, stored, rest⟩ := Option.bind_eq_some_iff.mp wrote
          cases rest
          exact .inr ⟨rfl, inRange, unmarked,
            writeFecChunk tracked active inRange unmarked stored⟩
        · rename_i inactive
          obtain ⟨result, stored, rest⟩ := Option.bind_eq_some_iff.mp wrote
          cases rest
          exact .inr ⟨rfl, inRange, unmarked,
            writePlainChunk tracked (Bool.not_eq_true _ ▸ inactive) inRange stored⟩

end Tracked

/-! ## The invariant of a run -/

/-- The state after the chunks `arrived`: the reassembler has marked them all, and
selective repeat has heard of nothing else. -/
structure Follows (chunkCount : Nat) (fecActive : Bool) (arrived : List Nat)
    (receiver : Receiver) : Prop where
  tracked : Tracked receiver.reassembler
  started : receiver.sr.Started
  total : receiver.sr.totalChunks = chunkCount
  countEq : receiver.reassembler.chunkCount = chunkCount
  activeEq : receiver.reassembler.fecActive = fecActive
  kept : ∀ seq ∈ arrived, seq < chunkCount → receiver.reassembler.bitmap.Marked seq
  heard : ∀ seq, receiver.sr.Received seq →
    seq ∈ arrived ∧ receiver.reassembler.bitmap.Marked seq

namespace Follows

variable {chunkCount : Nat} {fecActive : Bool} {arrived : List Nat}
  {receiver after : Receiver}

theorem forSession (s : Session) (srWindow srTimeout : Nat) :
    Follows s.chunkCount (Receiver.forSession s srWindow srTimeout).reassembler.fecActive []
      (Receiver.forSession s srWindow srTimeout) where
  tracked :=
    { sized := Bitmap.length_zeros s.chunkCount
      inRange := fun seq marked => absurd marked (Bitmap.not_marked_zeros _ seq)
      decoder := fun _ =>
        ⟨FecDecoder.wf_new,
          fun groupId _ isData others =>
            absurd (others 7 (by decide) (by omega)) (FecDecoder.not_present_new _),
          fun seq => iff_of_false (FecDecoder.not_present_new seq)
            (Bitmap.not_marked_zeros _ seq)⟩ }
  started := SelectiveRepeat.started_startSession _ _
  total := rfl
  countEq := rfl
  activeEq := rfl
  kept := fun seq member => absurd member List.not_mem_nil
  heard := fun seq received =>
    absurd received (SelectiveRepeat.not_received_startSession _ _ seq)

/-- Bookkeeping of NACKs keeps the invariant. -/
theorem sameMarks (follows : Follows chunkCount fecActive arrived receiver)
    {sr : SelectiveRepeat} (same : SelectiveRepeat.SameMarks receiver.sr sr) :
    Follows chunkCount fecActive arrived { receiver with sr := sr } where
  tracked := follows.tracked
  started := same.started follows.started
  total := same.totalChunks.trans follows.total
  countEq := follows.countEq
  activeEq := follows.activeEq
  kept := follows.kept
  heard := fun seq received => follows.heard seq ((same.received seq).mp received)

/-- A processed chunk was refused, and then nothing but the list of arrivals
changes, or both bitmaps get its mark and the reassembler possibly one more. -/
theorem processChunk (follows : Follows chunkCount fecActive arrived receiver)
    {seq : Nat} {data : List UInt8} {outcome : ChunkOutcome}
    (ran : receiver.processChunk seq data = some (after, outcome)) :
    Follows chunkCount fecActive (arrived ++ [seq]) after ∧
      (after = receiver ∨
        (∀ other, after.reassembler.bitmap.Marked other ↔
          MarksAfter receiver.reassembler seq other) ∧
        seq < chunkCount ∧ ∀ other, after.sr.Received other ↔
          other = seq ∨ receiver.sr.Received other) := by
  unfold Receiver.processChunk at ran
  obtain ⟨⟨isNew, reassembler⟩, wrote, ran⟩ := Option.bind_eq_some_iff.mp ran
  rcases follows.tracked.writeChunk wrote with
    ⟨rfl, rfl, refused⟩ | ⟨rfl, inRange, _, tracked, countEq, activeEq, marks⟩
  · cases ran
    refine ⟨{ follows with kept := ?_, heard := ?_ }, .inl rfl⟩
    · intro other member small
      rcases List.mem_append.mp member with before | isSeq
      · exact follows.kept other before small
      · rw [List.mem_singleton.mp isSeq] at small ⊢
        rw [follows.countEq] at refused
        exact refused.resolve_left (Nat.not_le.mpr small)
    · intro other received
      obtain ⟨member, marked⟩ := follows.heard other received
      exact ⟨List.mem_append_left _ member, marked⟩
  · cases ran
    rw [follows.countEq] at inRange
    obtain ⟨started, totalEq, receives⟩ :=
      SelectiveRepeat.onChunkReceived_spec follows.started (follows.total ▸ inRange)
    refine ⟨⟨tracked, started, totalEq.trans follows.total, countEq.trans follows.countEq,
      activeEq.trans follows.activeEq, ?_, ?_⟩, .inr ⟨marks, inRange, receives⟩⟩
    · intro other member small
      apply (marks other).mpr
      rcases List.mem_append.mp member with before | isSeq
      · exact .inr (.inl (follows.kept other before small))
      · exact .inl (List.mem_singleton.mp isSeq)
    · intro other received
      rcases (receives other).mp received with rfl | before
      · exact ⟨by simp, (marks other).mpr (.inl rfl)⟩
      · obtain ⟨member, marked⟩ := follows.heard other before
        exact ⟨List.mem_append_left _ member, (marks other).mpr (.inr (.inl marked))⟩

/-- One event keeps the invariant. -/
theorem step (follows : Follows chunkCount fecActive arrived receiver)
    {event : ReceiverEvent} (ran : receiver.step event = some after) :
    Follows chunkCount fecActive (arrived ++ arrivedSeqs [event]) after := by
  cases event with
  | chunk seq data =>
      obtain ⟨⟨_, outcome⟩, processed, rfl⟩ := Option.map_eq_some_iff.mp ran
      exact (follows.processChunk processed).1
  | checkTimeouts maxPerTick now =>
      cases ran
      simpa [arrivedSeqs] using
        follows.sameMarks (receiver.sr.checkTimeouts_spec maxPerTick now).1
  | stallNacks maxGaps maxProbeAhead cooldown now =>
      cases ran
      simpa [arrivedSeqs] using follows.sameMarks
        (receiver.sr.buildFilteredStallNacks_spec maxGaps maxProbeAhead cooldown now).1

/-- Equal marks are all that agreement needs. -/
theorem agrees (follows : Follows chunkCount fecActive arrived receiver)
    (marks : ∀ seq, receiver.sr.Received seq ↔ receiver.reassembler.bitmap.Marked seq) :
    receiver.Agrees where
  marks := marks
  belowBase := fun seq below => (marks seq).mp (follows.started.belowBase seq below)
  atBase := fun marked => follows.started.atBase ((marks _).mpr marked)
  timeouts := fun maxPerTick now seq nacked marked =>
    (receiver.sr.checkTimeouts_spec maxPerTick now).2 seq nacked ((marks seq).mpr marked)
  stalls := fun maxGaps maxProbeAhead cooldown now seq nacked marked =>
    (receiver.sr.buildFilteredStallNacks_spec maxGaps maxProbeAhead cooldown now).2 seq nacked
      ((marks seq).mpr marked)

/-- A group one data chunk short has been completed by the decoder, and the
completed chunk is unknown to selective repeat. -/
theorem not_agrees (follows : Follows chunkCount true arrived receiver)
    (short : OneShort chunkCount arrived) : ¬ receiver.Agrees := by
  intro agrees
  obtain ⟨groupId, position, isData, parityLt, lacking, others⟩ := short
  obtain ⟨_, noGap, present⟩ := follows.tracked.decoder follows.activeEq
  have recovered : receiver.reassembler.bitmap.Marked (groupId * 8 + position) := by
    rw [← present]
    apply noGap groupId position isData
    intro i inside differs
    rw [present]
    exact follows.kept _ (others i inside differs) (by omega)
  exact lacking (follows.heard _ ((agrees.marks _).mpr recovered)).1

/-- An arrival that leaves no group one data chunk short marks the same chunk in
both bitmaps and no other. -/
theorem marks_step (follows : Follows chunkCount fecActive arrived receiver)
    (marks : ∀ seq, receiver.sr.Received seq ↔ receiver.reassembler.bitmap.Marked seq)
    {event : ReceiverEvent} (ran : receiver.step event = some after)
    (allowed : fecActive = false ∨ ¬ OneShort chunkCount (arrived ++ arrivedSeqs [event])) :
    ∀ seq, after.sr.Received seq ↔ after.reassembler.bitmap.Marked seq := by
  cases event with
  | checkTimeouts maxPerTick now =>
      cases ran
      intro seq
      rw [(receiver.sr.checkTimeouts_spec maxPerTick now).1.received]
      exact marks seq
  | stallNacks maxGaps maxProbeAhead cooldown now =>
      cases ran
      intro seq
      rw [(receiver.sr.buildFilteredStallNacks_spec maxGaps maxProbeAhead cooldown
        now).1.received]
      exact marks seq
  | chunk seq data =>
      obtain ⟨⟨_, outcome⟩, processed, rfl⟩ := Option.map_eq_some_iff.mp ran
      obtain ⟨_, rfl | ⟨marksAfter, inRange, receives⟩⟩ := follows.processChunk processed
      · exact marks
      intro other
      rw [receives, marksAfter, MarksAfter, marks, or_congr_right]
      refine (or_iff_left ?_).symm
      -- A reconstruction would leave its group one chunk short of the arrivals.
      rintro ⟨active, position, completed, rfl⟩
      rcases allowed with inactive | notShort
      · rw [follows.activeEq, inactive] at active
        cases active
      obtain ⟨_, _, present⟩ := follows.tracked.decoder active
      obtain ⟨isData, absent, otherNe, rest⟩ := FecDecoder.completes_iff.mp completed
      have arrivedOf : ∀ i < 8, i ≠ position → seq / 8 * 8 + i ∈ arrived ++ [seq] := by
        intro i inside differs
        rcases rest i inside differs with isSeq | there
        · rw [isSeq]
          simp
        · rw [present, ← marks] at there
          exact List.mem_append_left _ (follows.heard _ there).1
      have parityLt : seq / 8 * 8 + 7 < chunkCount := by
        rcases rest 7 (by decide) (by omega) with isSeq | there
        · rw [isSeq]
          exact inRange
        · rw [← follows.countEq]
          exact follows.tracked.inRange _ ((present _).mp there)
      refine notShort ⟨seq / 8, position, isData, parityLt, ?_, arrivedOf⟩
      intro member
      rcases List.mem_append.mp member with before | isSeq
      · exact absent ((present _).mpr (follows.kept _ before (by omega)))
      · exact otherNe (List.mem_singleton.mp isSeq)

end Follows

/-! ## Whole runs -/

namespace Receiver

theorem run_append (receiver : Receiver) (first second : List ReceiverEvent) :
    receiver.run (first ++ second) = (receiver.run first).bind fun r => r.run second := by
  induction first generalizing receiver with
  | nil => rfl
  | cons event rest inductionHypothesis =>
      simp only [List.cons_append, run]
      cases receiver.step event with
      | none => rfl
      | some next => exact inductionHypothesis next

end Receiver

theorem arrivedSeqs_append (first second : List ReceiverEvent) :
    arrivedSeqs (first ++ second) = arrivedSeqs first ++ arrivedSeqs second :=
  List.filterMap_append

theorem Follows.run {chunkCount : Nat} {fecActive : Bool} {arrived : List Nat}
    {receiver after : Receiver} (follows : Follows chunkCount fecActive arrived receiver)
    {events : List ReceiverEvent} (ran : receiver.run events = some after) :
    Follows chunkCount fecActive (arrived ++ arrivedSeqs events) after := by
  induction events generalizing arrived receiver with
  | nil =>
      cases ran
      simpa [arrivedSeqs] using follows
  | cons event rest inductionHypothesis =>
      obtain ⟨next, stepped, ran⟩ := Option.bind_eq_some_iff.mp ran
      have later := inductionHypothesis (follows.step stepped) ran
      rwa [List.append_assoc, ← arrivedSeqs_append] at later

/-- As long as no prefix of the arrivals leaves a group one data chunk short, the
marks stay equal. -/
theorem Follows.marks_run {chunkCount : Nat} {fecActive : Bool} {arrived : List Nat}
    {receiver after : Receiver} (follows : Follows chunkCount fecActive arrived receiver)
    (marks : ∀ seq, receiver.sr.Received seq ↔ receiver.reassembler.bitmap.Marked seq)
    {events : List ReceiverEvent} (ran : receiver.run events = some after)
    (allowed : fecActive = false ∨ ∀ pre, pre <+: events →
      ¬ OneShort chunkCount (arrived ++ arrivedSeqs pre)) :
    ∀ seq, after.sr.Received seq ↔ after.reassembler.bitmap.Marked seq := by
  induction events generalizing arrived receiver with
  | nil =>
      cases ran
      exact marks
  | cons event rest inductionHypothesis =>
      obtain ⟨next, stepped, ran⟩ := Option.bind_eq_some_iff.mp ran
      refine inductionHypothesis (follows.step stepped) ?_ ran ?_
      · apply follows.marks_step marks stepped
        exact allowed.imp_right fun never => never [event] (by simp)
      · refine allowed.imp_right fun never pre isPrefix => ?_
        rw [List.append_assoc, ← arrivedSeqs_append]
        exact never ([event] ++ pre) (by simpa using isPrefix)

/-- For every session and every run of its receiver: the two bitmaps agree in
every state of the run, with the base at the least missing chunk and no NACK for
a chunk already held, if and only if FEC is off or no prefix of the run leaves a
parity group with all of its chunks but one data chunk. -/
theorem bitmaps_agree_iff (s : Session) (srWindow srTimeout : Nat)
    (events : List ReceiverEvent) (final : Receiver)
    (ran : (Receiver.forSession s srWindow srTimeout).run events = some final) :
    (∀ pre, pre <+: events → ∀ receiver,
        (Receiver.forSession s srWindow srTimeout).run pre = some receiver →
          receiver.Agrees) ↔
      ((Receiver.forSession s srWindow srTimeout).reassembler.fecActive = false ∨
        ∀ pre, pre <+: events → ¬ OneShort s.chunkCount (arrivedSeqs pre)) := by
  have initial := Follows.forSession s srWindow srTimeout
  have nothing : ∀ seq,
      (Receiver.forSession s srWindow srTimeout).sr.Received seq ↔
        (Receiver.forSession s srWindow srTimeout).reassembler.bitmap.Marked seq := fun seq =>
    iff_of_false (SelectiveRepeat.not_received_startSession _ _ seq)
      (Bitmap.not_marked_zeros _ seq)
  constructor
  · intro allAgree
    cases active : (Receiver.forSession s srWindow srTimeout).reassembler.fecActive with
    | false => exact .inl rfl
    | true =>
        refine .inr fun pre isPrefix short => ?_
        obtain ⟨rest, rfl⟩ := isPrefix
        rw [Receiver.run_append] at ran
        obtain ⟨receiver, reached, _⟩ := Option.bind_eq_some_iff.mp ran
        rw [active] at initial
        exact (initial.run reached).not_agrees short
          (allAgree pre (List.prefix_append pre rest) receiver reached)
  · intro allowed pre isPrefix receiver reached
    apply (initial.run reached).agrees
    apply initial.marks_run nothing reached
    exact allowed.imp_right fun never shorter within => never shorter (within.trans isPrefix)

/-- One parity group of four-byte chunks. -/
def oneGroupSession : Session where
  sessionId := "7"
  nodeId := "0001"
  filename := "f"
  totalSize := 28
  chunkCount := 8
  crc32 := 0
  fragmentSize := 4
  exitNodes := {"0001"}

/-- Chunk `seq` of a file of zeros. -/
def zeroChunk (seq : Nat) : ReceiverEvent := .chunk seq [0, 0, 0, 0]

/-- The equivalence at a run that delivers the data first and the parity last. -/
theorem bitmaps_agree_iff_in_order :
    ∃ final,
      (Receiver.forSession oneGroupSession 64 5).run ((List.range 8).map zeroChunk) =
        some final ∧
      ((∀ pre, pre <+: (List.range 8).map zeroChunk → ∀ receiver,
          (Receiver.forSession oneGroupSession 64 5).run pre = some receiver →
            receiver.Agrees) ↔
        ((Receiver.forSession oneGroupSession 64 5).reassembler.fecActive = false ∨
          ∀ pre, pre <+: (List.range 8).map zeroChunk →
            ¬ OneShort oneGroupSession.chunkCount (arrivedSeqs pre))) :=
  ⟨_, rfl, bitmaps_agree_iff oneGroupSession 64 5 ((List.range 8).map zeroChunk) _ rfl⟩

/-- Chunks 1 to 7 arrive, chunk 0 is lost: the parity brings it back, the
reassembler has it, and the next timeout scan asks the sender for it. -/
theorem bitmaps_disagree_after_recovery :
    ∃ receiver,
      (Receiver.forSession oneGroupSession 64 5).run
          ([1, 2, 3, 4, 5, 6, 7].map zeroChunk) = some receiver ∧
        receiver.reassembler.bitmap.Marked 0 ∧ ¬ receiver.sr.Received 0 ∧
        receiver.sr.expectedBase = 0 ∧ (receiver.sr.checkTimeouts 6 10000).2 = [0] ∧
        ¬ receiver.Agrees := by
  have observed : ((Receiver.forSession oneGroupSession 64 5).run
      ([1, 2, 3, 4, 5, 6, 7].map zeroChunk)).map (fun receiver =>
        (receiver.reassembler.bitmap.test? 0, receiver.sr.isReceived 0,
          receiver.sr.expectedBase, (receiver.sr.checkTimeouts 6 10000).2)) =
      some (some true, false, 0, [0]) := by
    decide
  obtain ⟨receiver, ran, seen⟩ := Option.map_eq_some_iff.mp observed
  simp only [Prod.mk.injEq] at seen
  obtain ⟨marked, notReceived, base, nacks⟩ := seen
  have unknown : ¬ receiver.sr.Received 0 := by
    rw [SelectiveRepeat.Received, notReceived]
    exact Bool.false_ne_true
  refine ⟨receiver, ran, marked, unknown, base, nacks, ?_⟩
  intro agrees
  exact unknown ((agrees.marks 0).mpr marked)

end ForestLink.Cloud
