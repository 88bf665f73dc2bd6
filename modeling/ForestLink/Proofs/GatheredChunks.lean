/-
Module: ForestLink.Proofs.GatheredChunks
Purpose: The chunks a reassembler has are those that arrived and, with FEC on, the one data
  chunk of a group whose other seven arrived; it is complete when these are all data chunks.
Trusted boundary: none
Main exports: Recoverable, Gathered, Gathered.writeChunk, Assembled.isComplete_iff
-/
import ForestLink.Proofs.BitmapAgreement
import ForestLink.Proofs.ReassemblerIntegrity

namespace ForestLink.Cloud

open ForestLink.Lib
open ForestLink.Protocol

/-- A data chunk of a parity group, the other seven chunks of which have arrived. -/
def Recoverable (arrived : List Nat) (seq : Nat) : Prop :=
  seq % 8 < 7 ∧ ∀ i < 8, i ≠ seq % 8 → seq / 8 * 8 + i ∈ arrived

instance (arrived : List Nat) (seq : Nat) : Decidable (Recoverable arrived seq) :=
  inferInstanceAs (Decidable (_ ∧ _))

theorem Recoverable.mono {arrived more : List Nat} {seq : Nat}
    (recoverable : Recoverable arrived seq) (subset : ∀ seq ∈ arrived, seq ∈ more) :
    Recoverable more seq :=
  ⟨recoverable.1, fun i inside differs => subset _ (recoverable.2 i inside differs)⟩

/-- The other chunks of the group, by their own numbers. -/
theorem Recoverable.mem {arrived : List Nat} {seq : Nat}
    (recoverable : Recoverable arrived seq) (other : Nat) (sameGroup : other / 8 = seq / 8)
    (differs : other ≠ seq) : other ∈ arrived := by
  have there := recoverable.2 (other % 8) (Nat.mod_lt _ (by decide)) (by omega)
  have same : seq / 8 * 8 + other % 8 = other := by omega
  rwa [same] at there

/-- The marks of a reassembler after the chunks `arrived`. -/
structure Gathered (r : FileReassembler) (arrived : List Nat) : Prop where
  tracked : Tracked r
  inRange : ∀ seq ∈ arrived, seq < r.chunkCount
  marks : ∀ seq, r.bitmap.Marked seq ↔
    seq ∈ arrived ∨ (r.fecActive = true ∧ Recoverable arrived seq)

namespace Gathered

variable {r after : FileReassembler} {arrived : List Nat}

theorem new (sessionId filename : String) (totalSize chunkCount crc : Nat) (fragmentSize : Int) :
    Gathered (newFileReassembler sessionId filename totalSize chunkCount crc fragmentSize) [] where
  tracked :=
    { sized := Bitmap.length_zeros chunkCount
      inRange := fun seq marked => absurd marked (Bitmap.not_marked_zeros _ seq)
      decoder := fun _ =>
        ⟨FecDecoder.wf_new,
          fun groupId _ isData others =>
            absurd (others 7 (by decide) (by omega)) (FecDecoder.not_present_new _),
          fun seq => iff_of_false (FecDecoder.not_present_new seq)
            (Bitmap.not_marked_zeros _ seq)⟩ }
  inRange := fun _ none => absurd none List.not_mem_nil
  marks := fun seq => by
    refine iff_of_false (Bitmap.not_marked_zeros _ seq) ?_
    rintro (none | ⟨_, recoverable⟩)
    · cases none
    · exact absurd (recoverable.mem (seq / 8 * 8 + 7) (by omega)
        (by have := recoverable.1; omega)) List.not_mem_nil

/-- A chunk that is marked already completes no further group. -/
theorem again (gathered : Gathered r arrived) {seq : Nat} (marked : r.bitmap.Marked seq) :
    Gathered r (arrived ++ [seq]) where
  tracked := gathered.tracked
  inRange := fun other member => by
    rcases List.mem_append.mp member with before | here
    · exact gathered.inRange other before
    · rw [List.mem_singleton.mp here]
      exact gathered.tracked.inRange seq marked
  marks := fun other => by
    have mono : ∀ seq' ∈ arrived, seq' ∈ arrived ++ [seq] := fun _ => List.mem_append_left _
    constructor
    · intro isMarked
      rcases (gathered.marks other).mp isMarked with before | ⟨active, recoverable⟩
      · exact .inl (mono other before)
      · exact .inr ⟨active, recoverable.mono mono⟩
    · rintro (member | ⟨active, recoverable⟩)
      · rcases List.mem_append.mp member with before | here
        · exact (gathered.marks other).mpr (.inl before)
        · rw [List.mem_singleton.mp here]
          exact marked
      · by_cases isSeq : other = seq
        · rw [isSeq]
          exact marked
        apply (gathered.marks other).mpr
        rcases (gathered.marks seq).mp marked with before | ⟨_, wasRecoverable⟩
        · refine .inr ⟨active, recoverable.mono ?_⟩
          intro seq' member
          rcases List.mem_append.mp member with there | here
          · exact there
          · rw [List.mem_singleton.mp here]
            exact before
        · by_cases sameGroup : other / 8 = seq / 8
          · exact .inl (wasRecoverable.mem _ sameGroup isSeq)
          · refine .inr ⟨active, recoverable.1, fun i inside differs => ?_⟩
            rcases List.mem_append.mp (recoverable.2 i inside differs) with there | here
            · exact there
            · rw [List.mem_singleton] at here
              omega

/-- A new chunk brings its own mark and that of the chunk it lets the group reconstruct. -/
theorem fresh (gathered : Gathered r arrived) {seq : Nat} (inRange : seq < r.chunkCount)
    (tracked : Tracked after) (countEq : after.chunkCount = r.chunkCount)
    (activeEq : after.fecActive = r.fecActive)
    (marks : ∀ other, after.bitmap.Marked other ↔ MarksAfter r seq other) :
    Gathered after (arrived ++ [seq]) where
  tracked := tracked
  inRange := fun other member => by
    rw [countEq]
    rcases List.mem_append.mp member with before | here
    · exact gathered.inRange other before
    · rw [List.mem_singleton.mp here]
      exact inRange
  marks := fun other => by
    rw [marks, activeEq]
    have mono : ∀ seq' ∈ arrived, seq' ∈ arrived ++ [seq] := fun _ => List.mem_append_left _
    constructor
    · rintro (rfl | before | ⟨active, position, completed, rfl⟩)
      · exact .inl (by simp)
      · rcases (gathered.marks other).mp before with there | ⟨active, recoverable⟩
        · exact .inl (mono other there)
        · exact .inr ⟨active, recoverable.mono mono⟩
      · obtain ⟨_, _, present⟩ := gathered.tracked.decoder active
        obtain ⟨isData, absent, _, rest⟩ := FecDecoder.completes_iff.mp completed
        rw [present] at absent
        have positionEq : (seq / 8 * 8 + position) % 8 = position := by omega
        have groupEq : (seq / 8 * 8 + position) / 8 = seq / 8 := by omega
        refine .inr ⟨active, by omega, fun i inside differs => ?_⟩
        rw [groupEq]
        rw [positionEq] at differs
        rcases rest i inside differs with isSeq | there
        · rw [isSeq]
          simp
        · rcases (gathered.marks _).mp ((present _).mp there) with member | ⟨_, recoverable⟩
          · exact mono _ member
          · -- A reconstructed chunk would have all the others of the group beside it.
            have arrivedThere := recoverable.mem (seq / 8 * 8 + position)
              (by omega) (by omega)
            exact absurd ((gathered.marks _).mpr (.inl arrivedThere)) absent
    · rintro (member | ⟨active, recoverable⟩)
      · rcases List.mem_append.mp member with before | here
        · exact .inr (.inl ((gathered.marks other).mpr (.inl before)))
        · exact .inl (List.mem_singleton.mp here)
      · by_cases isSeq : other = seq
        · exact .inl isSeq
        by_cases before : r.bitmap.Marked other
        · exact .inr (.inl before)
        obtain ⟨_, _, present⟩ := gathered.tracked.decoder active
        by_cases sameGroup : other / 8 = seq / 8
        · refine .inr (.inr ⟨active, other % 8, FecDecoder.completes_iff.mpr ?_, by omega⟩)
          have otherEq : seq / 8 * 8 + other % 8 = other := by omega
          rw [otherEq]
          refine ⟨recoverable.1, fun there => before ((present _).mp there), isSeq, ?_⟩
          intro i inside differs
          rw [← sameGroup]
          rcases List.mem_append.mp (recoverable.2 i inside differs) with there | here
          · exact .inr ((present _).mpr ((gathered.marks _).mpr (.inl there)))
          · exact .inl (List.mem_singleton.mp here)
        · refine .inr (.inl ((gathered.marks other).mpr (.inr ⟨active, recoverable.1, ?_⟩)))
          intro i inside differs
          rcases List.mem_append.mp (recoverable.2 i inside differs) with there | here
          · exact there
          · rw [List.mem_singleton] at here
            omega

/-- One `WriteChunk` call with an advertised chunk. -/
theorem writeChunk (gathered : Gathered r arrived) {seq : Nat} (inRange : seq < r.chunkCount)
    {data : List UInt8} {isNew : Bool} (wrote : r.writeChunk seq data = some (isNew, after)) :
    Gathered after (arrived ++ [seq]) := by
  rcases gathered.tracked.writeChunk wrote with
    ⟨_, rfl, refused⟩ | ⟨_, _, _, tracked, countEq, activeEq, marks⟩
  · exact gathered.again (refused.resolve_left (Nat.not_le.mpr inRange))
  · exact gathered.fresh inRange tracked countEq activeEq marks

end Gathered

/-- A reassembler is complete when every data chunk is marked. -/
theorem Assembled.isComplete_iff {file : List UInt8} {layout : Layout} {r : FileReassembler}
    (assembled : Assembled file layout r) (noWrap : NoWrap layout file.length) :
    r.isComplete = true ↔
      ∀ index < dataFragments file.length, r.bitmap.Marked (layout.seqOf index) := by
  have total : (dataSeqs layout r.totalSize).card = dataFragments file.length := by
    rw [assembled.totalSize]
    exact card_dataSeqs layout noWrap
  have complete : r.isComplete = true ↔
      (dataSeqs layout r.totalSize).card ≤ (markedData layout r).card := by
    unfold FileReassembler.isComplete
    rw [decide_eq_true_iff, assembled.dataChunkCount_eq noWrap, assembled.counted, total,
      Int.ofNat_le]
  have subset : markedData layout r ⊆ dataSeqs layout r.totalSize := Finset.filter_subset _ _
  have full : (dataSeqs layout r.totalSize).card ≤ (markedData layout r).card ↔
      markedData layout r = dataSeqs layout r.totalSize :=
    ⟨Finset.eq_of_subset_of_card_le subset, fun same => by rw [same]⟩
  rw [complete, full]
  have isData : ∀ seq, seq ∈ dataSeqs layout r.totalSize ↔
      ∃ index < dataFragments file.length, layout.seqOf index = seq := by
    intro seq
    rw [assembled.totalSize, dataSeqs_eq_image layout noWrap]
    simp only [Finset.mem_image, Finset.mem_range]
  constructor
  · intro same index small
    have member : layout.seqOf index ∈ markedData layout r := by
      rw [same, isData]
      exact ⟨index, small, rfl⟩
    exact (Finset.mem_filter.mp member).2
  · intro marked
    apply Finset.filter_true_of_mem
    intro seq member
    obtain ⟨index, small, rfl⟩ := (isData seq).mp member
    exact marked index small

end ForestLink.Cloud
