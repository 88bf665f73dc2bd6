/-
Module: ForestLink.Proofs.ReassemblerIntegrity
Purpose: Whatever order, duplication and loss the chunks of a file suffer, the
  cloud never stops on them, and a reassembler that reports completion holds the
  file.
Trusted boundary: none
Main exports: Covers, Assembled, DecoderAgrees, Assembled.writeChunk,
  writeChunks_delivers_file
-/
import ForestLink.Proofs.FragmentLayout
import ForestLink.Proofs.FecDecoding

namespace ForestLink.Cloud

open ForestLink.Lib
open ForestLink.Protocol

/-- `data` agrees with the file on the whole range of data fragment `index`, and
does not reach into the next one. -/
structure Covers (file : List UInt8) (index : Nat) (data : List UInt8) : Prop where
  short : data.length ≤ 1456
  agrees : ∀ p < file.length, p / 1456 = index → data[p - index * 1456]? = file[p]?

theorem covers_dataFragment (file : List UInt8) (index : Nat) :
    Covers file index (dataFragment file index) where
  short := length_dataFragment_le file index
  agrees := fun _ _ lies => getElem?_dataFragment lies

/-- The buffer already holds data fragment `index` of the file. -/
def Region (file buffer : List UInt8) (index : Nat) : Prop :=
  ∀ p < file.length, p / 1456 = index → buffer[p]? = file[p]?

/-- The data chunks a reassembler has marked. -/
def markedData (layout : Layout) (r : FileReassembler) : Finset Nat :=
  (dataSeqs layout r.totalSize).filter fun seq => r.bitmap.Marked seq

/-- The reassembler of one file, apart from its decoder: only advertised
sequence numbers are marked, the buffer holds every marked data fragment, and
the data counter counts the marks. -/
structure Assembled (file : List UInt8) (layout : Layout) (r : FileReassembler) : Prop where
  totalSize : r.totalSize = file.length
  chunkSize : r.chunkSize = 1456
  chunkCount : r.chunkCount = layout.chunkCount file.length
  bufferLength : r.buffer.length = file.length
  bitmapLength : r.bitmap.length = (r.chunkCount + 7) / 8
  inRange : ∀ seq, r.bitmap.Marked seq → seq < r.chunkCount
  written : ∀ seq index, r.bitmap.Marked seq → layout.dataIndex? seq = some index →
    Region file r.buffer index
  counted : r.dataChunksReceived = (markedData layout r).card

/-- The decoder has exactly the marked chunks, and as long as a group is not full
every chunk in it is the one that was sent. -/
structure DecoderAgrees (file : List UInt8) (r : FileReassembler) : Prop where
  wf : r.fec.Wf
  present : ∀ seq, r.fec.Present seq ↔ r.bitmap.Marked seq
  genuine : ∀ groupId, (r.fec.group groupId).missing ≠ [] → ∀ i < 8,
    ((r.fec.group groupId).slot i).present = true →
    ((r.fec.group groupId).slot i).data = fragmentPayload .mesh file (groupId * 8 + i)

/-! ## Buffer writes -/

/-- Writing a fragment that covers its range succeeds, fills that range and
leaves every other range of the buffer alone. -/
theorem writeToBufferAt_spec {file : List UInt8} {layout : Layout} {r : FileReassembler}
    (assembled : Assembled file layout r) (noWrap : NoWrap layout file.length) {index : Nat}
    (small : index < dataFragments file.length) {data : List UInt8}
    (covers : Covers file index data) :
    ∃ buffer, r.writeToBufferAt index data = some { r with buffer := buffer } ∧
      buffer.length = file.length ∧ Region file buffer index ∧
      ∀ other, Region file r.buffer other → Region file buffer other := by
  obtain ⟨offset, offsetEq⟩ : ∃ offset, offset = index * 1456 := ⟨_, rfl⟩
  obtain ⟨stop, stopEq⟩ : ∃ stop, stop = min (offset + data.length) file.length := ⟨_, rfl⟩
  have offsetLt : offset < file.length := offsetEq ▸ offset_lt_of_lt_dataFragments small
  have bufferLength := assembled.bufferLength
  have sourceLength : (data.take (stop - offset)).length = stop - offset := by
    rw [List.length_take]
    omega
  have fits : offset + (data.take (stop - offset)).length ≤ r.buffer.length := by
    rw [sourceLength]
    omega
  refine ⟨copyAt r.buffer offset (data.take (stop - offset)), ?_, ?_, ?_, ?_⟩
  · have size := size_lt_of_noWrap noWrap
    have short := covers.short
    have here : r.offsetOf index = offset := by
      unfold FileReassembler.offsetOf
      rw [assembled.chunkSize, offsetEq]
      apply wrap64_eq_self
      · omega
      · omega
    rw [FileReassembler.writeToBufferAt_eq_some here (by rw [assembled.totalSize]; omega)
      (by rw [assembled.totalSize]; omega), assembled.totalSize, stopEq]
  · rw [length_copyAt fits, bufferLength]
  · intro p inside lies
    have agrees := covers.agrees p inside lies
    rw [← offsetEq] at agrees
    have inData : p - offset < data.length := by
      by_contra outside
      rw [List.getElem?_eq_none (by omega), List.getElem?_eq_getElem inside] at agrees
      cases agrees
    rw [getElem?_copyAt fits, if_pos (by rw [sourceLength]; omega),
      List.getElem?_take_of_lt (by omega)]
    exact agrees
  · intro other region p inside lies
    rw [getElem?_copyAt fits]
    split
    · rename_i bounds
      rw [sourceLength] at bounds
      have short := covers.short
      have agrees := covers.agrees p inside (by omega)
      rw [← offsetEq] at agrees
      rw [List.getElem?_take_of_lt (by omega)]
      exact agrees
    · exact region p inside lies

/-- Marking an advertised, unmarked sequence number. -/
theorem markChunk_spec {file : List UInt8} {layout : Layout} {r : FileReassembler}
    (assembled : Assembled file layout r) {seq : Nat} (inRange : seq < r.chunkCount) :
    ∃ bitmap, r.bitmap.set? seq = some bitmap ∧ bitmap.length = (r.chunkCount + 7) / 8 ∧
      ∀ other, bitmap.Marked other ↔ other = seq ∨ r.bitmap.Marked other := by
  obtain ⟨bitmap, written, length, marks⟩ :=
    Bitmap.set?_spec (Bitmap.div_lt_length assembled.bitmapLength inRange)
  exact ⟨bitmap, written, length.trans assembled.bitmapLength, marks⟩

/-! ## The two ways a sequence number gets marked -/

/-- A data chunk that covers its fragment, written, marked and counted. -/
theorem Assembled.placeData {file : List UInt8} {layout : Layout} {r : FileReassembler}
    (assembled : Assembled file layout r) (noWrap : NoWrap layout file.length) {seq index : Nat}
    (inRange : seq < r.chunkCount) (unmarked : ¬ r.bitmap.Marked seq)
    (carries : layout.dataIndex? seq = some index) {data : List UInt8}
    (covers : Covers file index data) :
    ∃ buffer bitmap, r.writeToBufferAt index data = some { r with buffer := buffer } ∧
      r.bitmap.set? seq = some bitmap ∧
      (∀ other, bitmap.Marked other ↔ other = seq ∨ r.bitmap.Marked other) ∧
      ∀ fec, Assembled file layout
        { r with
          buffer := buffer, bitmap := bitmap, fec := fec
          chunksReceived := r.chunksReceived + 1
          dataChunksReceived := r.dataChunksReceived + 1 } := by
  have small : index < dataFragments file.length :=
    dataIndex?_lt noWrap (assembled.chunkCount ▸ inRange) carries
  obtain ⟨buffer, wrote, bufferLength, filled, kept⟩ :=
    writeToBufferAt_spec assembled noWrap small covers
  obtain ⟨bitmap, marked, bitmapLength, marks⟩ := markChunk_spec assembled inRange
  refine ⟨buffer, bitmap, wrote, marked, marks, ?_⟩
  intro fec
  exact
    { totalSize := assembled.totalSize
      chunkSize := assembled.chunkSize
      chunkCount := assembled.chunkCount
      bufferLength := bufferLength
      bitmapLength := bitmapLength
      inRange := by
        intro other otherMarked
        rcases (marks other).mp otherMarked with rfl | before
        · exact inRange
        · exact assembled.inRange other before
      written := by
        intro other otherIndex otherMarked otherCarries
        rcases (marks other).mp otherMarked with rfl | before
        · rw [carries] at otherCarries
          cases otherCarries
          exact filled
        · exact kept otherIndex (assembled.written other otherIndex before otherCarries)
      counted := by
        have grown : markedData layout
            { r with
              buffer := buffer, bitmap := bitmap, fec := fec
              chunksReceived := r.chunksReceived + 1
              dataChunksReceived := r.dataChunksReceived + 1 } =
            insert seq (markedData layout r) := by
          ext other
          simp only [markedData, Finset.mem_filter, Finset.mem_insert, marks]
          constructor
          · rintro ⟨isData, rfl | before⟩
            · exact .inl rfl
            · exact .inr ⟨isData, before⟩
          · rintro (rfl | ⟨isData, before⟩)
            · refine ⟨?_, .inl rfl⟩
              simp only [dataSeqs, Finset.mem_filter, Finset.mem_range, carries,
                Option.isSome_some, and_true]
              rw [assembled.totalSize, ← assembled.chunkCount]
              exact inRange
            · exact ⟨isData, .inr before⟩
        have fresh : seq ∉ markedData layout r := by
          intro member
          exact unmarked (Finset.mem_filter.mp member).2
        rw [grown, Finset.card_insert_of_notMem fresh, ← assembled.counted] }

/-- A parity chunk is marked and nothing else changes. -/
theorem Assembled.markParity {file : List UInt8} {layout : Layout} {r : FileReassembler}
    (assembled : Assembled file layout r) {seq : Nat} (inRange : seq < r.chunkCount)
    (parity : layout.dataIndex? seq = none) :
    ∃ bitmap, r.bitmap.set? seq = some bitmap ∧
      (∀ other, bitmap.Marked other ↔ other = seq ∨ r.bitmap.Marked other) ∧
      ∀ fec, Assembled file layout
        { r with bitmap := bitmap, fec := fec, chunksReceived := r.chunksReceived + 1 } := by
  obtain ⟨bitmap, marked, bitmapLength, marks⟩ := markChunk_spec assembled inRange
  refine ⟨bitmap, marked, marks, ?_⟩
  intro fec
  exact
    { totalSize := assembled.totalSize
      chunkSize := assembled.chunkSize
      chunkCount := assembled.chunkCount
      bufferLength := assembled.bufferLength
      bitmapLength := bitmapLength
      inRange := by
        intro other otherMarked
        rcases (marks other).mp otherMarked with rfl | before
        · exact inRange
        · exact assembled.inRange other before
      written := by
        intro other otherIndex otherMarked otherCarries
        rcases (marks other).mp otherMarked with rfl | before
        · rw [parity] at otherCarries
          cases otherCarries
        · exact assembled.written other otherIndex before otherCarries
      counted := by
        have same : markedData layout
            { r with bitmap := bitmap, fec := fec, chunksReceived := r.chunksReceived + 1 } =
            markedData layout r := by
          apply Finset.filter_congr
          intro other isData
          rw [marks]
          constructor
          · rintro (rfl | before)
            · simp [dataSeqs, parity] at isData
            · exact before
          · exact .inr
        rw [same, ← assembled.counted] }

/-! ## Reconstruction -/

private theorem fragmentPayload_data (file : List UInt8) (groupId i : Nat) (isData : i < 7) :
    fragmentPayload .mesh file (groupId * 8 + i) =
      dataFragment file (groupId * fecGroupSize + i) := by
  have notParity : ¬ isParitySlot (groupId * 8 + i) = true := by
    rw [isParitySlot_iff]
    omega
  have index : dataIdx (groupId * 8 + i) = groupId * fecGroupSize + i := by
    rw [dataIdx_eq]
    simp only [fecGroupSize]
    omega
  simp only [fragmentPayload, Layout.dataIndex?, if_neg notParity, index]

/-- A group that misses one data fragment and holds the genuine other seven
chunks reconstructs that fragment, padded with zeros. -/
theorem covers_recovered {file : List UInt8} {group : FecGroup} {groupId position : Nat}
    (isData : position < 7) (onlyMissing : group.missing = [position])
    (genuine : ∀ i < 8, (group.slot i).present = true →
      (group.slot i).data = fragmentPayload .mesh file (groupId * 8 + i)) :
    Covers file (groupId * 7 + position) (group.recovered position) := by
  have present : ∀ i < 8, i ≠ position → (group.slot i).present = true :=
    fun i inside other => FecGroup.present_of_single onlyMissing inside other
  have held : ∀ i < 8, i ≠ position →
      (group.slot i).data = fragmentPayload .mesh file (groupId * 8 + i) :=
    fun i inside other => genuine i inside (present i inside other)
  have parityHeld := held 7 (by decide) (by omega)
  obtain ⟨parityShort, parityLong⟩ := length_parity_bounds file groupId
  obtain ⟨covers, least⟩ := group.maxLen_spec
  have parityLe : (fragmentPayload .mesh file (groupId * 8 + 7)).length ≤ group.maxLen := by
    rw [← parityHeld]
    exact covers 7 (by decide) (present 7 (by decide) (by omega))
  have memberFragment :
      dataFragment file (groupId * 7 + position) ∈ groupFragments file groupId := by
    rw [groupFragments, List.mem_map]
    exact ⟨position, List.mem_range.mpr isData, rfl⟩
  constructor
  · rw [FecGroup.length_recovered]
    apply least
    intro i inside isPresent
    rw [genuine i inside isPresent]
    by_cases data : i < 7
    · rw [fragmentPayload_data file groupId i data]
      exact length_dataFragment_le file _
    · have parityPosition : i = 7 := by omega
      rw [parityPosition]
      exact parityShort
  · intro p inside lies
    obtain ⟨offset, offsetEq⟩ :
        ∃ offset, offset = p - (groupId * 7 + position) * 1456 := ⟨_, rfl⟩
    have fragmentByte :
        (dataFragment file (groupId * 7 + position))[p - (groupId * 7 + position) * 1456]? =
          file[p]? := getElem?_dataFragment lies
    rw [← offsetEq] at fragmentByte ⊢
    have inFragment : offset < (dataFragment file (groupId * 7 + position)).length := by
      by_contra outside
      rw [List.getElem?_eq_none (by omega), List.getElem?_eq_getElem inside] at fragmentByte
      cases fragmentByte
    have inParity : offset < (fragmentPayload .mesh file (groupId * 8 + 7)).length :=
      Nat.lt_of_lt_of_le inFragment (parityLong _ memberFragment)
    have inRecovered : offset < group.maxLen := Nat.lt_of_lt_of_le inParity parityLe
    -- The XOR of the other slots is the XOR of the other fragments and the parity.
    have others :
        ((List.range 7).eraseIdx position).map
            (fun j => (group.slot j).data.getD offset 0) =
          ((groupFragments file groupId).map fun fragment =>
            fragment.getD offset 0).eraseIdx position := by
      rw [groupFragments, List.map_map, List.eraseIdx_map]
      apply List.map_congr_left
      intro j member
      have inRange : j < 7 := List.mem_range.mp (List.mem_of_mem_eraseIdx member)
      have other : j ≠ position := by
        rintro rfl
        rw [List.mem_eraseIdx_iff_getElem] at member
        obtain ⟨k, bound, differs, at_k⟩ := member
        rw [List.getElem_range] at at_k
        exact differs at_k
      rw [held j (by omega) other, fragmentPayload_data file groupId j inRange]
      rfl
    have value : (group.recovered position).getD offset 0 =
        (dataFragment file (groupId * 7 + position)).getD offset 0 := by
      rw [FecGroup.getD_recovered group position offset inRecovered, range_filter_ne isData,
        List.map_append, xorAll_append, others, List.map_singleton, parityHeld,
        getD_parity file groupId offset inParity, xorAll, xorAll, UInt8.xor_zero,
        xorAll_eraseIdx _ position (by simpa [length_groupFragments] using isData)]
      simp only [groupFragments, List.map_map, List.getD_eq_getElem?_getD,
        List.getElem?_map, List.getElem?_range (show position < fecGroupSize from isData)]
      rfl
    have lengthEq : offset < (group.recovered position).length := by
      rw [FecGroup.length_recovered]
      exact inRecovered
    rw [← fragmentByte, List.getElem?_eq_getElem lengthEq,
      List.getElem?_eq_getElem inFragment]
    rw [List.getD_eq_getElem _ _ lengthEq, List.getD_eq_getElem _ _ inFragment] at value
    rw [value]

/-! ## One call -/

/-- The reassembler of one file, decoder included. -/
structure Receiving (file : List UInt8) (layout : Layout) (r : FileReassembler) : Prop where
  assembled : Assembled file layout r
  decoder : r.fecActive = true → DecoderAgrees file r

theorem dataChunkCount_of_sizes {r : FileReassembler} {size : Nat} (totalSize : r.totalSize = size)
    (chunkSize : r.chunkSize = 1456) (small : size < 2 ^ 27) :
    r.dataChunkCount = dataFragments size := by
  have sum : wrap64 ((size : Int) + (1456 : Nat) - 1) = (size + 1455 : Nat) := by
    rw [wrap64_eq_self] <;> omega
  rw [FileReassembler.dataChunkCount, totalSize, chunkSize, sum, dataFragments_eq]
  rfl

theorem Assembled.dataChunkCount_eq {file : List UInt8} {layout : Layout}
    {r : FileReassembler} (assembled : Assembled file layout r)
    (noWrap : NoWrap layout file.length) : r.dataChunkCount = dataFragments file.length :=
  dataChunkCount_of_sizes assembled.totalSize assembled.chunkSize (size_lt_of_noWrap noWrap)

/-- The guess whether parity is present is right on both layouts: with FEC on the
layout is the mesh one, with FEC off the numbering has no parity slot below the
advertised count. -/
theorem layout_of_fecActive {layout : Layout} {r : FileReassembler} {size : Nat}
    (noWrap : NoWrap layout size) (count : r.dataChunkCount = dataFragments size)
    (chunkCount : r.chunkCount = layout.chunkCount size) (active : r.fecActive = true) :
    layout = .mesh := by
  cases layout with
  | mesh => rfl
  | localExit =>
      simp only [FileReassembler.fecActive, count, chunkCount, decide_eq_true_eq,
        Layout.chunkCount_eq noWrap, Int.ofNat_lt] at active
      exact absurd active (Nat.lt_irrefl _)

theorem dataIndex?_of_not_fecActive {layout : Layout} {r : FileReassembler} {size : Nat}
    (noWrap : NoWrap layout size) (count : r.dataChunkCount = dataFragments size)
    (chunkCount : r.chunkCount = layout.chunkCount size) (inactive : ¬ r.fecActive = true)
    {seq : Nat} (inRange : seq < r.chunkCount) : layout.dataIndex? seq = some seq := by
  cases layout with
  | localExit => rfl
  | mesh =>
      simp only [FileReassembler.fecActive, count, chunkCount, decide_eq_true_eq,
        Layout.chunkCount_eq noWrap, Layout.exactCount, Int.ofNat_lt] at inactive
      rw [chunkCount, Layout.chunkCount_eq noWrap, Layout.exactCount] at inRange
      clear noWrap count chunkCount
      generalize dataFragments size = d at inactive inRange
      have notParity : ¬ isParitySlot seq = true := by
        rw [isParitySlot_iff]
        omega
      rw [Layout.dataIndex?, if_neg notParity, dataIdx_eq]
      congr 1
      omega

private theorem fragmentPayload_of_dataIndex? {layout : Layout} {file : List UInt8}
    {seq index : Nat} (carries : layout.dataIndex? seq = some index) :
    fragmentPayload layout file seq = dataFragment file index := by
  rw [fragmentPayload, carries]

/-- With FEC off a new chunk is written, marked and counted. -/
theorem Assembled.writePlainChunk {file : List UInt8} {layout : Layout}
    {r : FileReassembler} (assembled : Assembled file layout r)
    (noWrap : NoWrap layout file.length) (inactive : ¬ r.fecActive = true) {seq : Nat}
    (inRange : seq < r.chunkCount) (unmarked : ¬ r.bitmap.Marked seq) :
    ∃ after, r.writePlainChunk seq (fragmentPayload layout file seq) = some after ∧
      Assembled file layout after ∧ after.fecActive = r.fecActive := by
  have carries := dataIndex?_of_not_fecActive noWrap (assembled.dataChunkCount_eq noWrap)
    assembled.chunkCount inactive inRange
  have payload : fragmentPayload layout file seq = dataFragment file seq :=
    fragmentPayload_of_dataIndex? carries
  obtain ⟨buffer, bitmap, wrote, marked, _, placed⟩ :=
    assembled.placeData noWrap inRange unmarked carries (covers_dataFragment file seq)
  refine ⟨_, ?_, placed r.fec, rfl⟩
  rw [FileReassembler.writePlainChunk, payload, wrote]
  simp [FileReassembler.markChunk, marked, FileReassembler.countData]

/-- With FEC on, the arriving chunk itself: decoder updated, data written and
counted, sequence number marked. -/
theorem Assembled.writeArrived {file : List UInt8} {r : FileReassembler}
    (assembled : Assembled file .mesh r) (noWrap : NoWrap .mesh file.length) {seq : Nat}
    (inRange : seq < r.chunkCount) (unmarked : ¬ r.bitmap.Marked seq) (fec : FecDecoder) :
    ∃ middle after,
      { r with fec := fec }.writeArrived seq (fragmentPayload .mesh file seq) =
        some middle ∧
      middle.markChunk seq = some after ∧ Assembled file .mesh after ∧
      after.fec = fec ∧ after.fecActive = r.fecActive ∧
      after.chunkCount = r.chunkCount ∧
      ∀ other, after.bitmap.Marked other ↔ other = seq ∨ r.bitmap.Marked other := by
  by_cases parity : isParitySlot seq = true
  · have noData : Layout.mesh.dataIndex? seq = none := by simp [Layout.dataIndex?, parity]
    obtain ⟨bitmap, marked, marks, after⟩ := assembled.markParity inRange noData
    refine ⟨{ r with fec := fec }, _, ?_, ?_, after fec, rfl, rfl, rfl, marks⟩
    · simp [FileReassembler.writeArrived, parity]
    · simp [FileReassembler.markChunk, marked]
  · have carries : Layout.mesh.dataIndex? seq = some (dataIdx seq) := by
      simp [Layout.dataIndex?, parity]
    obtain ⟨buffer, bitmap, wrote, marked, marks, after⟩ :=
      assembled.placeData noWrap inRange unmarked carries
        (covers_dataFragment file (dataIdx seq))
    have wroteFec : { r with fec := fec }.writeToBufferAt (dataIdx seq)
        (dataFragment file (dataIdx seq)) =
          some { r with fec := fec, buffer := buffer } := by
      rw [FileReassembler.writeToBufferAt_withFec, wrote]
      rfl
    refine
      ⟨{ r with
          fec := fec
          buffer := buffer
          dataChunksReceived := r.dataChunksReceived + 1 }, _, ?_, ?_,
        after fec, rfl, rfl, rfl, marks⟩
    · rw [FileReassembler.writeArrived, if_neg parity,
        fragmentPayload_of_dataIndex? carries, wroteFec]
      rfl
    · simp [FileReassembler.markChunk, marked]

/-- The fragment reconstructed from a group is written, counted and marked. -/
theorem Assembled.writeRecovered {file : List UInt8} {r : FileReassembler}
    (assembled : Assembled file .mesh r) (noWrap : NoWrap .mesh file.length)
    {groupId position : Nat} (isData : position < 7) {data : List UInt8}
    (covers : Covers file (groupId * 7 + position) data)
    (inRange : groupId * 8 + position < r.chunkCount)
    (unmarked : ¬ r.bitmap.Marked (groupId * 8 + position)) :
    ∃ after, r.writeRecovered (some { seq := groupId * 8 + position, data := data }) =
        some after ∧
      Assembled file .mesh after ∧ after.fec = r.fec ∧ after.fecActive = r.fecActive ∧
      ∀ other, after.bitmap.Marked other ↔
        other = groupId * 8 + position ∨ r.bitmap.Marked other := by
  have indexEq : dataIdx (groupId * 8 + position) = groupId * 7 + position := by
    rw [dataIdx_eq]
    omega
  have carries : Layout.mesh.dataIndex? (groupId * 8 + position) =
      some (groupId * 7 + position) := by
    have notParitySlot : ¬ isParitySlot (groupId * 8 + position) = true := by
      rw [isParitySlot_iff]
      omega
    rw [Layout.dataIndex?, if_neg notParitySlot, indexEq]
  obtain ⟨buffer, bitmap, wrote, marked, marks, placed⟩ :=
    assembled.placeData noWrap inRange unmarked carries covers
  have clear : r.bitmap.test? (groupId * 8 + position) = some false :=
    Bitmap.test?_eq_false_of_not_marked
      (Bitmap.div_lt_length assembled.bitmapLength inRange) unmarked
  refine ⟨_, ?_, placed r.fec, rfl, rfl, marks⟩
  simp only [FileReassembler.writeRecovered, clear, indexEq, wrote, FileReassembler.markChunk]
  simp [marked, FileReassembler.countData]

namespace DecoderAgrees

variable {file : List UInt8} {r : FileReassembler} {seq : Nat}

/-- Before the arrival the group was open, so all its chunks are the ones sent. -/
theorem genuine_put (agrees : DecoderAgrees file r) (absent : ¬ r.fec.Present seq) :
    let filled := (r.fec.group (seq / 8)).put (seq % 8)
      (FecDecoder.arrived (fragmentPayload .mesh file seq) (isParitySlot seq))
    ∀ i < 8, (filled.slot i).present = true →
      (filled.slot i).data = fragmentPayload .mesh file (seq / 8 * 8 + i) := by
  intro filled i iInside
  have inside : seq % 8 < 8 := Nat.mod_lt _ (by decide)
  have wasOpen : seq % 8 ∈ (r.fec.group (seq / 8)).missing :=
    FecGroup.mem_missing.mpr ⟨inside, by simpa [FecDecoder.Present] using absent⟩
  rw [FecGroup.slot_put (agrees.wf _).slots inside]
  split
  · rename_i isSeq
    intro _
    have same : seq / 8 * 8 + i = seq := by omega
    rw [same]
    rfl
  · exact agrees.genuine _ (List.ne_nil_of_mem wasOpen) i iInside

/-- After an arrival the decoder agrees with the marks that the arrival leaves. -/
theorem ingest (agrees : DecoderAgrees file r) (absent : ¬ r.fec.Present seq)
    {after : FileReassembler}
    (fec : after.fec =
      (r.fec.ingest seq (fragmentPayload .mesh file seq) (isParitySlot seq)).1)
    (marks : ∀ other, after.bitmap.Marked other ↔
      other = seq ∨ r.bitmap.Marked other ∨
        ∃ position, r.fec.completes seq = some position ∧ other = seq / 8 * 8 + position) :
    DecoderAgrees file after := by
  obtain ⟨wf, _, presence⟩ := FecDecoder.ingest_spec agrees.wf absent
    (fragmentPayload .mesh file seq) (isParitySlot seq)
  have ingestEq := FecDecoder.ingest_eq agrees.wf absent
    (fragmentPayload .mesh file seq) (isParitySlot seq)
  rw [← fec] at wf presence
  refine ⟨wf, ?_, ?_⟩
  · intro other
    rw [presence, marks, agrees.present]
  · intro groupId stillOpen
    rw [fec, ingestEq] at stillOpen ⊢
    cases completed : r.fec.completes seq with
    | none =>
        simp only [completed, FecDecoder.group_update] at stillOpen ⊢
        split
        · rename_i sameGroup
          rw [sameGroup]
          exact agrees.genuine_put absent
        · rename_i otherGroup
          rw [if_neg otherGroup] at stillOpen
          exact agrees.genuine groupId stillOpen
    | some position =>
        simp only [completed, FecDecoder.group_update] at stillOpen ⊢
        split
        · -- The completed group has no open position left.
          rename_i sameGroup
          have inside : seq % 8 < 8 := Nat.mod_lt _ (by decide)
          have free : ((r.fec.group (seq / 8)).slot (seq % 8)).present = false := by
            simpa [FecDecoder.Present] using absent
          have filledWf : ((r.fec.group (seq / 8)).put (seq % 8) (FecDecoder.arrived
              (fragmentPayload .mesh file seq) (isParitySlot seq))).Wf :=
            (agrees.wf (seq / 8)).put inside free rfl
          obtain ⟨isData, _⟩ := FecDecoder.completes_iff.mp completed
          rw [if_pos sameGroup, FecGroup.missing_put filledWf.slots (by omega) rfl,
            FecGroup.missing_put (agrees.wf _).slots inside rfl] at stillOpen
          have only := (FecDecoder.completes_eq_some.mp completed).1
          unfold FecDecoder.openAfter at only
          rw [only] at stillOpen
          simp at stillOpen
        · rename_i otherGroup
          rw [if_neg otherGroup] at stillOpen
          exact agrees.genuine groupId stillOpen

end DecoderAgrees

/-- With FEC on a new chunk is written and, when it leaves one data position of
its group open, that fragment is reconstructed, written and marked as well. -/
theorem Receiving.writeFecChunk {file : List UInt8} {r : FileReassembler}
    (assembled : Assembled file .mesh r) (agrees : DecoderAgrees file r)
    (noWrap : NoWrap .mesh file.length) {seq : Nat} (inRange : seq < r.chunkCount)
    (unmarked : ¬ r.bitmap.Marked seq) :
    ∃ after, r.writeFecChunk seq (fragmentPayload .mesh file seq) = some after ∧
      Assembled file .mesh after ∧ DecoderAgrees file after ∧
      after.fecActive = r.fecActive := by
  have absent : ¬ r.fec.Present seq := by rwa [agrees.present]
  have ingestEq := FecDecoder.ingest_eq agrees.wf absent
    (fragmentPayload .mesh file seq) (isParitySlot seq)
  obtain ⟨middle, arrived, wroteArrived, marked, arrivedAssembled, fecEq, activeEq,
      countEq, marks⟩ :=
    assembled.writeArrived noWrap inRange unmarked
      (r.fec.ingest seq (fragmentPayload .mesh file seq) (isParitySlot seq)).1
  have unfolded : r.writeFecChunk seq (fragmentPayload .mesh file seq) =
      arrived.writeRecovered
        (r.fec.ingest seq (fragmentPayload .mesh file seq) (isParitySlot seq)).2 := by
    simp only [FileReassembler.writeFecChunk]
    rw [wroteArrived]
    simp [marked]
  rw [unfolded]
  cases completed : r.fec.completes seq with
  | none =>
      refine ⟨arrived, ?_, arrivedAssembled, agrees.ingest absent fecEq ?_, activeEq⟩
      · rw [ingestEq]
        simp only [completed]
        rfl
      · intro other
        rw [marks, completed]
        simp
  | some position =>
      obtain ⟨isData, positionAbsent, notSeq, others⟩ := FecDecoder.completes_iff.mp completed
      have onlyMissing : ((r.fec.group (seq / 8)).put (seq % 8) (FecDecoder.arrived
          (fragmentPayload .mesh file seq) (isParitySlot seq))).missing = [position] := by
        rw [FecGroup.missing_put (agrees.wf _).slots (Nat.mod_lt _ (by decide)) rfl]
        exact (FecDecoder.completes_eq_some.mp completed).1
      have groupMarked : ∀ i < 8, i ≠ position → arrived.bitmap.Marked (seq / 8 * 8 + i) := by
        intro i iInside differs
        rw [marks, ← agrees.present]
        exact others i iInside differs
      -- The parity is among the seven chunks held, so the whole group is advertised.
      have recoveredLt : seq / 8 * 8 + position < arrived.chunkCount := by
        have parityLt := arrivedAssembled.inRange _ (groupMarked 7 (by decide) (by omega))
        omega
      have recoveredUnmarked : ¬ arrived.bitmap.Marked (seq / 8 * 8 + position) := by
        rw [marks, ← agrees.present]
        rintro (isSeq | before)
        · exact notSeq isSeq
        · exact positionAbsent before
      obtain ⟨after, wrote, final, sameFec, sameActive, finalMarks⟩ :=
        arrivedAssembled.writeRecovered noWrap isData
          (covers_recovered isData onlyMissing (agrees.genuine_put absent)) recoveredLt
          recoveredUnmarked
      refine ⟨after, ?_, final, agrees.ingest absent (sameFec.trans fecEq) ?_,
        sameActive.trans activeEq⟩
      · rw [ingestEq]
        simp only [completed]
        exact wrote
      · intro other
        rw [finalMarks, marks, completed]
        simp only [Option.some.injEq, exists_eq_left']
        exact or_rotate

/-- One `WriteChunk` call with a chunk of the file: it does not panic and keeps
the invariant, whether the chunk is new, a duplicate or completes a group. -/
theorem Receiving.writeChunk {file : List UInt8} {layout : Layout} {r : FileReassembler}
    (receiving : Receiving file layout r) (noWrap : NoWrap layout file.length) {seq : Nat}
    (inRange : seq < layout.chunkCount file.length) :
    ∃ isNew after, r.writeChunk seq (fragmentPayload layout file seq) = some (isNew, after) ∧
      Receiving file layout after := by
  obtain ⟨assembled, decoder⟩ := receiving
  have advertised : seq < r.chunkCount := assembled.chunkCount ▸ inRange
  have covered := Bitmap.div_lt_length assembled.bitmapLength advertised
  by_cases marked : r.bitmap.Marked seq
  · refine ⟨false, r, ?_, ⟨assembled, decoder⟩⟩
    have read : r.bitmap.test? seq = some true := marked
    simp [FileReassembler.writeChunk, Nat.not_le.mpr advertised, read]
  · have read := Bitmap.test?_eq_false_of_not_marked covered marked
    by_cases active : r.fecActive = true
    · have mesh := layout_of_fecActive noWrap (assembled.dataChunkCount_eq noWrap)
        assembled.chunkCount active
      subst mesh
      obtain ⟨after, wrote, afterAssembled, afterAgrees, _⟩ :=
        Receiving.writeFecChunk assembled (decoder active) noWrap advertised marked
      refine ⟨true, after, ?_, ⟨afterAssembled, fun _ => afterAgrees⟩⟩
      simp [FileReassembler.writeChunk, Nat.not_le.mpr advertised, read, active, wrote]
    · obtain ⟨after, wrote, afterAssembled, activeEq⟩ :=
        assembled.writePlainChunk noWrap active advertised marked
      refine ⟨true, after, ?_, ⟨afterAssembled, ?_⟩⟩
      · simp [FileReassembler.writeChunk, Nat.not_le.mpr advertised, read, active, wrote]
      · intro afterActive
        exact absurd (activeEq ▸ afterActive) active

/-! ## Whole runs -/

theorem receiving_new (file : List UInt8) (layout : Layout) (sessionId filename : String)
    (crc : Nat) :
    Receiving file layout
      (newFileReassembler sessionId filename file.length (layout.chunkCount file.length)
        crc 1456) where
  assembled :=
    { totalSize := rfl
      chunkSize := rfl
      chunkCount := rfl
      bufferLength := List.length_replicate
      bitmapLength := Bitmap.length_zeros _
      inRange := fun seq marked => absurd marked (Bitmap.not_marked_zeros _ seq)
      written := fun seq _ marked _ => absurd marked (Bitmap.not_marked_zeros _ seq)
      counted := by
        have none : markedData layout
            (newFileReassembler sessionId filename file.length
              (layout.chunkCount file.length) crc 1456) = ∅ := by
          apply Finset.filter_eq_empty_iff.mpr
          intro seq _
          exact Bitmap.not_marked_zeros _ seq
        rw [none]
        rfl }
  decoder := fun _ =>
    { wf := FecDecoder.wf_new
      present := fun seq => iff_of_false (FecDecoder.not_present_new seq)
        (Bitmap.not_marked_zeros _ seq)
      genuine := by
        intro groupId _ i _ present
        rw [FecDecoder.group] at present
        exact absurd present (Bool.eq_false_iff.mp (FecGroup.slot_empty i)) }

theorem Receiving.writeChunks {file : List UInt8} {layout : Layout}
    (noWrap : NoWrap layout file.length) (seqs : List Nat)
    (inRange : ∀ seq ∈ seqs, seq < layout.chunkCount file.length)
    {r : FileReassembler} (receiving : Receiving file layout r) :
    ∃ after, r.writeChunks (seqs.map fun seq => (seq, fragmentPayload layout file seq)) =
      some after ∧ Receiving file layout after := by
  induction seqs generalizing r with
  | nil => exact ⟨r, rfl, receiving⟩
  | cons seq rest inductionHypothesis =>
      obtain ⟨isNew, next, wrote, nextReceiving⟩ :=
        receiving.writeChunk noWrap (inRange seq (by simp))
      obtain ⟨after, ran, afterReceiving⟩ :=
        inductionHypothesis (fun other member =>
          inRange other (List.mem_cons_of_mem seq member)) nextReceiving
      refine ⟨after, ?_, afterReceiving⟩
      simp only [List.map_cons, FileReassembler.writeChunks, wrote]
      exact ran

/-- A complete reassembler has every data chunk, hence the whole file. -/
theorem Assembled.buffer_eq_of_isComplete {file : List UInt8} {layout : Layout}
    {r : FileReassembler} (assembled : Assembled file layout r)
    (noWrap : NoWrap layout file.length) (complete : r.isComplete = true) : r.buffer = file := by
  have enough : dataFragments file.length ≤ (markedData layout r).card := by
    have enough : r.dataChunkCount ≤ r.dataChunksReceived := of_decide_eq_true complete
    rw [assembled.dataChunkCount_eq noWrap, assembled.counted] at enough
    exact Int.ofNat_le.mp enough
  have allMarked : markedData layout r = dataSeqs layout r.totalSize := by
    have total : (dataSeqs layout r.totalSize).card = dataFragments file.length := by
      rw [assembled.totalSize]
      exact card_dataSeqs layout noWrap
    apply Finset.eq_of_subset_of_card_le (Finset.filter_subset _ _)
    rw [total]
    exact enough
  apply List.ext_getElem?
  intro p
  by_cases inside : p < file.length
  · have small := lt_dataFragments_of_lt inside
    have carries := layout.dataIndex?_seqOf (p / 1456)
    have member : layout.seqOf (p / 1456) ∈ markedData layout r := by
      rw [allMarked, assembled.totalSize, dataSeqs_eq_image layout noWrap]
      exact Finset.mem_image.mpr ⟨p / 1456, Finset.mem_range.mpr small, rfl⟩
    exact assembled.written _ _ (Finset.mem_filter.mp member).2 carries p inside rfl
  · rw [List.getElem?_eq_none (by rw [assembled.bufferLength]; omega),
      List.getElem?_eq_none (by omega)]

/-- End-to-end integrity at the cloud: any sequence of `WriteChunk` calls with
chunks of a file, in any order and with any duplicates and losses, runs without
panic, and leaves the file in the buffer whenever it leaves the reassembler
complete. -/
theorem writeChunks_delivers_file (file : List UInt8) (layout : Layout)
    (noWrap : NoWrap layout file.length) (sessionId filename : String) (crc : Nat)
    (seqs : List Nat)
    (inRange : ∀ seq ∈ seqs, seq < layout.chunkCount file.length) :
    ∃ after,
      (newFileReassembler sessionId filename file.length (layout.chunkCount file.length)
        crc 1456).writeChunks
          (seqs.map fun seq => (seq, fragmentPayload layout file seq)) = some after ∧
      (after.isComplete = true → after.buffer = file) := by
  obtain ⟨after, ran, receiving⟩ :=
    Receiving.writeChunks noWrap seqs inRange
      (receiving_new file layout sessionId filename crc)
  exact ⟨after, ran, receiving.assembled.buffer_eq_of_isComplete noWrap⟩

/-- A file of seven fragments whose short last fragment never arrives and comes out of the
parity. -/
theorem writeChunks_delivers_short_last :
    let file := (List.range (6 * 1456 + 1)).map UInt8.ofNat
    ∃ after,
      (newFileReassembler "7" "f" file.length (Layout.mesh.chunkCount file.length)
        0 1456).writeChunks
          ([3, 0, 1, 2, 7, 4, 4, 5].map fun seq => (seq, fragmentPayload .mesh file seq)) =
            some after ∧
      after.isComplete = true ∧ after.buffer = file := by
  intro file
  have length : file.length = 6 * 1456 + 1 := by
    rw [List.length_map, List.length_range]
  obtain ⟨after, ran, delivers⟩ :=
    writeChunks_delivers_file file .mesh (by rw [length]; decide) "7" "f" 0
      [3, 0, 1, 2, 7, 4, 4, 5] (by rw [length]; decide)
  have completes : Option.any FileReassembler.isComplete
      ((newFileReassembler "7" "f" file.length (Layout.mesh.chunkCount file.length)
        0 1456).writeChunks
          ([3, 0, 1, 2, 7, 4, 4, 5].map fun seq => (seq, fragmentPayload .mesh file seq))) =
        true := by
    decide +kernel
  rw [ran] at completes
  exact ⟨after, ran, completes, delivers completes⟩

end ForestLink.Cloud
