/-
Module: ForestLink.Proofs.IndexAgreement
Purpose: The map from sequence numbers to data fragments is an order isomorphism of the numbers
  that carry data onto the fragments, and every party computes it.
Trusted boundary: none
Main exports: dataIdx_bijOn, dataIdx_strictMonoOn, narrowDataIdx_eq, card_dataSlots,
  layoutRows_map, TransferEngine.UsesIndex, Receiver.UsesIndex,
  FileReassembler.chunkDataIdx, FileReassembler.UsesIndex, IndexMap, index_map_agreed
-/
import Mathlib.Data.Set.Function
import Mathlib.Order.Monotone.Basic
import ForestLink.Mesh.Arq
import ForestLink.Protocol.IndexMaps
import ForestLink.Protocol.Receiver
import ForestLink.Proofs.ReassemblerIntegrity

namespace ForestLink.Protocol

open ForestLink.Cloud
open ForestLink.Mesh

variable {size seq : Nat}

/-! ## The map -/

/-- The sequence numbers below `count` that carry data. -/
def dataSlots (count : Nat) : Set Nat := {seq | seq < count ∧ isParitySlot seq = false}

theorem mod_ne_of_not_parity (data : isParitySlot seq = false) : seq % 8 ≠ 7 := by
  intro last
  rw [(isParitySlot_iff seq).mpr last] at data
  cases data

theorem dataIndex?_mesh (seq : Nat) :
    Layout.mesh.dataIndex? seq = if isParitySlot seq then none else some (dataIdx seq) := rfl

theorem dataIndex?_of_data (data : isParitySlot seq = false) :
    Layout.mesh.dataIndex? seq = some (dataIdx seq) := by
  rw [dataIndex?_mesh, data]
  rfl

theorem dataIdx_strictMonoOn (count : Nat) : StrictMonoOn dataIdx (dataSlots count) := by
  intro earlier first later second less
  have notLast := mod_ne_of_not_parity first.2
  have notLast' := mod_ne_of_not_parity second.2
  rw [dataIdx_eq, dataIdx_eq]
  omega

theorem dataIdx_bijOn (noWrap : NoWrap .mesh size) :
    Set.BijOn dataIdx (dataSlots (Layout.mesh.chunkCount size)) (Set.Iio (dataFragments size)) := by
  refine ⟨?_, (dataIdx_strictMonoOn _).injOn, ?_⟩
  · intro seq slot
    exact dataIndex?_lt noWrap slot.1 (dataIndex?_of_data slot.2)
  · intro index small
    have carries := Layout.mesh.dataIndex?_seqOf index
    have below := (Layout.mesh.seqOf_lt_chunkCount noWrap index).mpr small
    rw [dataIndex?_mesh] at carries
    split at carries
    · cases carries
    · rename_i data
      exact ⟨_, ⟨below, Bool.eq_false_iff.mpr data⟩, Option.some.inj carries⟩

/-- The parity slots are the last ones of the full groups. -/
theorem parity_iff (noWrap : NoWrap .mesh size) (seq : Nat) :
    seq < Layout.mesh.chunkCount size ∧ isParitySlot seq = true ↔
      ∃ group < dataFragments size / 7, seq = 8 * group + 7 := by
  rw [Layout.chunkCount_eq noWrap, isParitySlot_iff]
  change seq < dataFragments size + dataFragments size / 7 ∧ seq % 8 = 7 ↔ _
  constructor
  · rintro ⟨below, last⟩
    exact ⟨seq / 8, by omega, by omega⟩
  · rintro ⟨group, full, rfl⟩
    omega

/-! ## Sixteen bits -/

theorem toU16_of_lt {n : Nat} (small : n < 2 ^ 16) : toU16 n = n := Nat.mod_eq_of_lt small

/-- No product wraps, whatever the sequence number. -/
theorem narrowDataIdx_eq (small : seq < 2 ^ 16) : narrowDataIdx seq = dataIdx seq := by
  have group : toU16 (seq / 8) = seq / 8 := toU16_of_lt (by omega)
  have position : toU16 (seq % 8) = seq % 8 := toU16_of_lt (by omega)
  change toU16 (toU16 (seq / 8) * 7 + toU16 (seq % 8)) = dataIdx seq
  rw [group, position, dataIdx_eq]
  exact toU16_of_lt (by omega)

theorem guardedDataIdx_eq (small : seq < 2 ^ 16) :
    guardedDataIdx seq = Layout.mesh.dataIndex? seq := by
  unfold guardedDataIdx
  rw [narrowDataIdx_eq small, dataIndex?_mesh]

theorem oowParityDataIdx_of_lt (small : seq < 2 ^ 16) {d : Nat} (inGroup : d < 7) :
    oowParityDataIdx seq d = seq / 8 * 7 + d := by
  have group : toU16 (seq / 8) = seq / 8 := toU16_of_lt (by omega)
  change toU16 (toU16 (seq / 8) * 7 + d) = _
  rw [group, toU16_of_lt (by omega)]

/-- The seven fragments of a group are those of its seven data slots. -/
theorem oowParityDataIdx_eq (small : seq < 2 ^ 16) {d : Nat} (inGroup : d < 7) :
    some (oowParityDataIdx seq d) = Layout.mesh.dataIndex? (seq / 8 * 8 + d) := by
  have data : isParitySlot (seq / 8 * 8 + d) = false := by
    rw [Bool.eq_false_iff, Ne, isParitySlot_iff]
    omega
  rw [dataIndex?_of_data data, dataIdx_eq, oowParityDataIdx_of_lt small inGroup]
  congr 1
  omega

/-! ## Counting -/

theorem dataFragmentsBeforeSeq_eq (small : seq < 2 ^ 16) :
    dataFragmentsBeforeSeq false seq = seq / 8 * 7 + seq % 8 := by
  have stride : toU16 (fecGroupSize + 1) = 8 := rfl
  have within : ¬ seq % 8 > fecGroupSize := by
    change ¬ seq % 8 > 7
    omega
  unfold dataFragmentsBeforeSeq
  rw [if_neg Bool.false_ne_true]
  dsimp only
  rw [stride, if_neg within]
  exact Nat.mod_eq_of_lt (by change seq / 8 * 7 + seq % 8 < 2 ^ 32; omega)

/-- The slots below a sequence number that are no parity slots. -/
theorem card_dataSlots (seq : Nat) :
    ((Finset.range seq).filter fun slot => isParitySlot slot = false).card =
      seq / 8 * 7 + seq % 8 := by
  induction seq with
  | zero => rfl
  | succ seq inductionHypothesis =>
      rw [Finset.range_add_one, Finset.filter_insert]
      by_cases parity : isParitySlot seq = true
      · have last := (isParitySlot_iff seq).mp parity
        rw [if_neg (by rw [parity]; exact Bool.true_eq_false.mp), inductionHypothesis]
        omega
      · have data := Bool.eq_false_iff.mpr parity
        have notLast := mod_ne_of_not_parity data
        have absent : seq ∉ (Finset.range seq).filter fun slot => isParitySlot slot = false :=
          fun member => Finset.notMem_range_self (Finset.mem_of_mem_filter seq member)
        rw [if_pos data, Finset.card_insert_of_notMem absent, inductionHypothesis]
        omega

/-- Behind the last number the whole file has been sent. -/
theorem bytesFromSeqProgress_end (noWrap : NoWrap .mesh size) :
    bytesFromSeqProgress false 1456 size (Layout.mesh.chunkCount size) = size := by
  have small : Layout.mesh.chunkCount size < 2 ^ 16 := Nat.mod_lt _ (by decide)
  have few := size_lt_of_noWrap noWrap
  have all : dataFragmentsBeforeSeq false (Layout.mesh.chunkCount size) = dataFragments size := by
    rw [dataFragmentsBeforeSeq_eq small, Layout.chunkCount_eq noWrap]
    change (dataFragments size + dataFragments size / 7) / 8 * 7 +
      (dataFragments size + dataFragments size / 7) % 8 = dataFragments size
    omega
  unfold bytesFromSeqProgress
  dsimp only
  rw [all, dataFragments_eq, Nat.mod_eq_of_lt (by omega)]
  split
  · rfl
  · omega

/-! ## The table -/

theorem totalSeqs_eq (noWrap : NoWrap .mesh size) :
    totalSeqs size = Layout.mesh.chunkCount size := by
  rw [Layout.chunkCount_eq noWrap]
  change dataFragments size / 7 * 8 + dataFragments size % 7 =
    dataFragments size + dataFragments size / 7
  omega

theorem layoutRow_dataIdx (size parityLen seq : Nat) :
    (layoutRow size parityLen seq).1.seq = seq ∧
      (layoutRow size parityLen seq).1.dataIdx = Layout.mesh.dataIndex? seq := by
  unfold layoutRow
  dsimp only
  split
  · rename_i last
    refine ⟨rfl, ?_⟩
    rw [dataIndex?_mesh, (isParitySlot_iff seq).mpr last]
    rfl
  · rename_i notLast
    have data : isParitySlot seq = false := by
      rw [Bool.eq_false_iff, Ne, isParitySlot_iff]
      exact notLast
    exact ⟨rfl, (dataIndex?_of_data data).symm⟩

theorem layoutRowsFrom_map (size left seq parityLen : Nat) :
    (layoutRowsFrom size left seq parityLen).map (fun row => (row.seq, row.dataIdx)) =
      (List.range' seq left).map fun seq => (seq, Layout.mesh.dataIndex? seq) := by
  induction left generalizing seq parityLen with
  | zero => rfl
  | succ left inductionHypothesis =>
      obtain ⟨seqEq, indexEq⟩ := layoutRow_dataIdx size parityLen seq
      rw [layoutRowsFrom, List.map_cons, inductionHypothesis, seqEq, indexEq]
      rfl

/-- The table has a line for each sequence number, with its data fragment. -/
theorem layoutRows_map (noWrap : NoWrap .mesh size) :
    (layoutRows size).map (fun row => (row.seq, row.dataIdx)) =
      (List.range (Layout.mesh.chunkCount size)).map fun seq =>
        (seq, Layout.mesh.dataIndex? seq) := by
  unfold layoutRows
  rw [layoutRowsFrom_map, totalSeqs_eq noWrap, List.range_eq_range']

/-- Every line that is not a parity places a fragment of the file. -/
theorem layoutRow_fragType (noWrap : NoWrap .mesh size) (parityLen : Nat)
    (below : seq < Layout.mesh.chunkCount size) :
    (layoutRow size parityLen seq).1.fragType ≠ .skip := by
  unfold layoutRow
  dsimp only
  split
  · exact FragType.noConfusion
  · rename_i notLast
    have data : isParitySlot seq = false := by
      rw [Bool.eq_false_iff, Ne, isParitySlot_iff]
      exact notLast
    have start := offset_lt_of_lt_dataFragments
      (dataIndex?_lt noWrap below (dataIndex?_of_data data))
    have filled : readFragmentLen size (seq / (fecGroupSize + 1) * fecGroupSize +
        seq % (fecGroupSize + 1)) ≠ 0 := by
      change readFragmentLen size (dataIdx seq) ≠ 0
      have inside : ¬ dataIdx seq * defaultTransferFragmentSize ≥ size := Nat.not_le.mpr start
      unfold readFragmentLen
      dsimp only
      rw [if_neg inside]
      change min (dataIdx seq * 1456 + 1456) size - dataIdx seq * 1456 ≠ 0
      omega
    rw [if_neg filled]
    exact FragType.noConfusion

theorem layoutRowsFrom_fragType (noWrap : NoWrap .mesh size) {left : Nat} (parityLen : Nat)
    (below : seq + left ≤ Layout.mesh.chunkCount size) :
    ∀ row ∈ layoutRowsFrom size left seq parityLen, row.fragType ≠ .skip := by
  induction left generalizing seq parityLen with
  | zero => exact fun _ none => absurd none List.not_mem_nil
  | succ left inductionHypothesis =>
      rw [layoutRowsFrom]
      exact List.forall_mem_cons.mpr ⟨layoutRow_fragType noWrap parityLen (by omega),
        inductionHypothesis _ (by omega)⟩

end ForestLink.Protocol

/-! ## The paths of the sender -/

namespace ForestLink.Mesh.TransferEngine

open ForestLink.Protocol

variable {F : Type} {seq : Nat}

/-- Read the data fragment with this index from the file. -/
def readDataFragment (e : TransferEngine F) (index : Nat) : List UInt8 × TransferEngine F :=
  let offset := index * e.transfer.fragmentSize
  let fragLen := min (sub32 e.transfer.size offset) e.transfer.fragmentSize
  let chunk := e.io.readChunk e.transfer.readChunk offset fragLen
  (chunk.1, { e with io := chunk.2 })

/-- XOR the data fragments with these indices. -/
def xorFragments : List Nat → FecEncoder → TransferEngine F → Option FecEncoder × TransferEngine F
  | [], encoder, e => (some encoder, e)
  | index :: rest, encoder, e =>
      let offset := index * e.transfer.fragmentSize
      if offset ≥ e.transfer.size then (none, e)
      else
        let fragLen := min (e.transfer.size - offset) e.transfer.fragmentSize
        let chunk := e.io.readChunk e.transfer.readChunk offset fragLen
        xorFragments rest (encoder.ingest chunk.1) { e with io := chunk.2 }

/-- The payload of an out-of-window retransmit, by the index of its fragment. -/
def oowPayloadAt (e : TransferEngine F) (seq : Nat) :
    Option Nat → Option (List UInt8) × TransferEngine F
  | none =>
      match xorFragments ((List.range fecGroupSize).map (oowParityDataIdx seq)) .reset e with
      | (none, after) => (none, after)
      | (some encoder, after) =>
          if encoder.parityLen = 0 then (none, after) else (some encoder.parityData, after)
  | some dataIdx =>
      if dataIdx * e.transfer.fragmentSize ≥ e.transfer.size then (none, e)
      else
        let chunk := e.readDataFragment dataIdx
        (some chunk.1, chunk.2)

/-- What a sender reads for a sequence number, it reads at this index. -/
theorem readFragment_eq (e : TransferEngine F) (small : seq < 2 ^ 16) :
    e.readFragment seq = e.readDataFragment (narrowDataIdx seq) := by
  rw [narrowDataIdx_eq small]
  rfl

theorem regenerateParity_eq (group : Nat) (positions : List Nat) (encoder : FecEncoder)
    (e : TransferEngine F) :
    regenerateParity group positions encoder e =
      xorFragments (positions.map fun d => group * fecGroupSize + d) encoder e := by
  induction positions generalizing encoder e with
  | nil => rfl
  | cons d rest inductionHypothesis =>
      rw [regenerateParity, List.map_cons, xorFragments]
      dsimp only
      rw [inductionHypothesis]

/-- The regenerated parity covers the fragments of its group. -/
theorem oowParityDataIdx_range (small : seq < 2 ^ 16) :
    (List.range fecGroupSize).map (oowParityDataIdx seq) =
      (List.range fecGroupSize).map fun d => seq / (fecGroupSize + 1) * fecGroupSize + d := by
  apply List.map_congr_left
  exact fun d member => oowParityDataIdx_of_lt small (List.mem_range.mp member)

theorem oowPayload_eq (e : TransferEngine F) (small : seq < 2 ^ 16) :
    e.oowPayload seq = e.oowPayloadAt seq (oowDataIdx seq) := by
  unfold oowPayload oowDataIdx guardedDataIdx
  split
  · rw [regenerateParity_eq, ← oowParityDataIdx_range small]
    rfl
  · rw [readFragment_eq e small, ← narrowDataIdx_eq small]
    rfl

section Paths

variable [PathArith F]

/-- A round of the feed that has its exit, by the index of its fragment. -/
def feedAt (now fuel newSent : Nat) (e : TransferEngine F) (index seq : Nat) :
    Option Nat → TransferEngine F
  | none =>
      let sent := e.sendFragment index seq e.fecEncoder.parityData
      if sent.1 < 0 then sent.2
      else
        feed now fuel (newSent + 1)
          { sent.2.fedFragment index seq now e.io.timerMs with fecEncoder := FecEncoder.reset }
  | some dataIdx =>
      if dataIdx * e.transfer.fragmentSize ≥ e.transfer.size then
        feed now fuel newSent
          { e with
            transfer := { e.transfer with nextFragment := seq + 1 }
            log := .skip seq :: e.log }
      else
        let chunk := e.readDataFragment dataIdx
        let sent := chunk.2.sendFragment index seq chunk.1
        if sent.1 < 0 then sent.2
        else
          feed now fuel (newSent + 1)
            { sent.2.fedFragment index seq now chunk.2.io.timerMs with
              fecEncoder := e.fecEncoder.ingest chunk.1 }

/-- A fragment of a dead exit, by its index. -/
def redistributeAt (firstAlive : Nat) (e : TransferEngine F) (seq : Nat) :
    Option Nat → TransferEngine F
  | none => e
  | some dataIdx =>
      let target := (e.selectMeshTargetForSeq seq).getD firstAlive
      if (e.arq target).canSendSequence seq then
        let chunk := e.readDataFragment dataIdx
        let sent := chunk.2.sendFragment target seq chunk.1
        if sent.1 = 0 then sent.2.note (.resume target seq chunk.2.io.timerMs)
        else sent.2.enqueueRedist seq
      else e.enqueueRedist seq

/-- An entry of the redistribution queue, by the index of its fragment. -/
def drainRedistAt (e : TransferEngine F) (seq dataIdx : Nat) : TransferEngine F :=
  match e.selectMeshTargetForSeq seq with
  | none => e.keepRedist seq
  | some target =>
      if (e.arq target).canSendSequence seq then
        let chunk := e.readDataFragment dataIdx
        let sent := chunk.2.sendFragment target seq chunk.1
        if sent.1 < 0 then sent.2.keepRedist seq
        else sent.2.note (.resume target seq chunk.2.io.timerMs)
      else e.keepRedist seq

theorem feed_eq (e : TransferEngine F) (now fuel newSent : Nat) {index : Nat}
    (next : e.transfer.nextFragment = seq) (more : seq < e.transfer.fragmentCount)
    (budget : newSent < maxNewFragsPerTick)
    (selected : e.selectMeshTargetForSeq seq = some index) (small : seq < 2 ^ 16) :
    feed now (fuel + 1) newSent e = feedAt now fuel newSent e index seq (feedDataIdx seq) := by
  unfold feed feedDataIdx guardedDataIdx
  dsimp only
  rw [next, if_pos ⟨more, budget⟩, selected]
  dsimp only
  split
  · rfl
  · rw [readFragment_eq e small, ← narrowDataIdx_eq small]
    rfl

theorem redistributeFragment_eq (firstAlive : Nat) (e : TransferEngine F)
    (small : seq < 2 ^ 16) :
    redistributeFragment firstAlive e seq =
      redistributeAt firstAlive e seq (deadExitDataIdx seq) := by
  unfold redistributeFragment deadExitDataIdx guardedDataIdx
  split
  · rfl
  · rw [readFragment_eq e small]
    rfl

theorem drainRedistEntry_eq (e : TransferEngine F) (small : seq < 2 ^ 16) :
    e.drainRedistEntry seq = e.drainRedistAt seq (redistDataIdx seq) := by
  unfold drainRedistEntry
  rw [readFragment_eq e small]
  rfl

end Paths

/-- Whatever the sender does with a sequence number, it reads the fragment that its own
computation of the index names. -/
structure UsesIndex (F : Type) [PathArith F] (seq : Nat) : Prop where
  feed : ∀ (e : TransferEngine F) (now fuel newSent index : Nat),
    e.transfer.nextFragment = seq → seq < e.transfer.fragmentCount →
    newSent < maxNewFragsPerTick → e.selectMeshTargetForSeq seq = some index →
    feed now (fuel + 1) newSent e = feedAt now fuel newSent e index seq (feedDataIdx seq)
  oow : ∀ e : TransferEngine F, e.oowPayload seq = e.oowPayloadAt seq (oowDataIdx seq)
  deadExit : ∀ (firstAlive : Nat) (e : TransferEngine F),
    redistributeFragment firstAlive e seq =
      redistributeAt firstAlive e seq (deadExitDataIdx seq)
  redist : ∀ e : TransferEngine F,
    e.drainRedistEntry seq = e.drainRedistAt seq (redistDataIdx seq)

theorem usesIndex [PathArith F] (small : seq < 2 ^ 16) : UsesIndex F seq where
  feed e now fuel newSent _ next more budget selected :=
    e.feed_eq now fuel newSent next more budget selected small
  oow e := e.oowPayload_eq small
  deadExit firstAlive e := redistributeFragment_eq firstAlive e small
  redist e := e.drainRedistEntry_eq small

end ForestLink.Mesh.TransferEngine

/-! ## The paths of the receiver -/

namespace ForestLink.Protocol.Receiver

variable {seq : Nat}

/-- `receive_fragment` behind the erasure decoder, by the index of the fragment. -/
def acceptAt (r : Receiver) (now seq : Nat) (data : List UInt8) (index : Option Nat) :
    Option (Bool × Receiver × List Reply) :=
  if (r.totalFragments + 7) / 8 ≤ seq / 8 then some (false, r, [])
  else do
    let received ← r.recvBitmap.test? seq
    if received then some (false, r, [{ type := .ack, seq := seq }])
    else
      let marked ← r.markReceived seq
      match index with
      | none =>
          let (after, nacks) ← marked.finish now seq
          some (true, after, { type := .ack, seq := seq } :: nacks)
      | some dataIdx =>
          if r.maxDataFragments ≤ dataIdx then
            some (false, marked, [{ type := .ack, seq := seq }])
          else
            let stored ← marked.store dataIdx data
            let (after, nacks) ← stored.finish now seq
            some (true, after, { type := .ack, seq := seq } :: nacks)

/-- The handling of a recovered fragment, by its index. -/
def storeRecoveredAt (r : Receiver) (dataIdx : Nat) : Option (Receiver × List Reply) :=
  let recSeq := r.fecDecoder.recoveredSeq
  if recSeq < r.totalFragments ∧ recSeq / 8 < (r.totalFragments + 7) / 8 then do
    let received ← r.recvBitmap.test? recSeq
    if received then some (r, [])
    else
      let marked ← r.markReceived recSeq
      let stored ←
        if dataIdx < r.maxDataFragments then marked.store dataIdx r.fecDecoder.recoveredData
        else some marked
      some (stored, [{ type := .ack, seq := recSeq }])
  else some (r, [])

/-- Both handlers of a receiver place a fragment where the computation of its index says. -/
structure UsesIndex (seq : Nat) : Prop where
  received : ∀ (r : Receiver) (now : Nat) (data : List UInt8),
    r.accept now seq data = r.acceptAt now seq data (receivedDataIdx seq)
  recovered : ∀ r : Receiver, r.fecDecoder.recoveredSeq = seq →
    r.storeRecovered = r.storeRecoveredAt (recoveredDataIdx seq)

theorem usesIndex (small : seq < 2 ^ 16) : UsesIndex seq where
  received r now data := by
    unfold accept acceptAt receivedDataIdx guardedDataIdx
    rw [narrowDataIdx_eq small]
    cases isParitySlot seq <;> rfl
  recovered r here := by
    unfold storeRecovered storeRecoveredAt recoveredDataIdx
    dsimp only
    rw [here, narrowDataIdx_eq small]

end ForestLink.Protocol.Receiver

/-! ## The reassembler -/

namespace ForestLink.Cloud

open ForestLink.Protocol

namespace FileReassembler

variable {r : FileReassembler} {seq : Nat}

/-- `WriteChunk`: the index at which the data of a chunk is written, if it is. -/
def chunkDataIdx (r : FileReassembler) (seq : Nat) : Option Nat :=
  if r.fecActive then if isParitySlot seq then none else some (dataIdx seq) else some seq

/-- `WriteChunk` and the handling of a recovered chunk write at the index that the
reassembler computes. -/
structure UsesIndex (r : FileReassembler) (seq : Nat) : Prop where
  arrived : ∀ data, r.fecActive = true →
    r.writeArrived seq data = (r.chunkDataIdx seq).elim (some r) fun index =>
      (r.writeToBufferAt index data).map countData
  plain : ∀ data, r.fecActive = false →
    r.writePlainChunk seq data = ((r.chunkDataIdx seq).bind fun index =>
      r.writeToBufferAt index data).bind fun r => (r.markChunk seq).map countData
  recovered : ∀ recovery : FecRecovery, recovery.seq = seq → r.fecActive = true →
    isParitySlot seq = false → r.bitmap.test? seq = some false →
    r.writeRecovered (some recovery) = ((r.chunkDataIdx seq).bind fun index =>
      r.writeToBufferAt index recovery.data).bind fun r => (r.markChunk seq).map countData

theorem writeRecovered_some (r : FileReassembler) (recovery : FecRecovery) :
    r.writeRecovered (some recovery) = (r.bitmap.test? recovery.seq).bind fun received =>
      if received then some r
      else (r.writeToBufferAt (dataIdx recovery.seq) recovery.data).bind fun r =>
        (r.markChunk recovery.seq).map countData := by
  unfold writeRecovered
  rfl

theorem usesIndex (r : FileReassembler) (seq : Nat) : r.UsesIndex seq := by
  constructor
  · intro data active
    unfold writeArrived chunkDataIdx
    rw [if_pos active]
    by_cases parity : isParitySlot seq = true
    · rw [if_pos parity, if_pos parity, Option.elim_none]
    · rw [if_neg parity, if_neg parity, Option.elim_some]
  · intro data inactive
    unfold writePlainChunk chunkDataIdx
    rw [inactive, if_neg Bool.false_ne_true, Option.bind_some]
    rfl
  · rintro recovery rfl active data unmarked
    have index : r.chunkDataIdx recovery.seq = some (dataIdx recovery.seq) := by
      unfold chunkDataIdx
      rw [if_pos active, data, if_neg Bool.false_ne_true]
    rw [writeRecovered_some, unmarked, index, Option.bind_some, Option.bind_some,
      if_neg Bool.false_ne_true]

/-- The guess whether there is parity leads to the layout of the sender, on both of them. -/
theorem chunkDataIdx_eq {layout : Layout} {size : Nat} (noWrap : NoWrap layout size)
    (totalSize : r.totalSize = size) (chunkSize : r.chunkSize = 1456)
    (chunkCount : r.chunkCount = layout.chunkCount size) (below : seq < r.chunkCount) :
    r.chunkDataIdx seq = layout.dataIndex? seq := by
  have count := dataChunkCount_of_sizes totalSize chunkSize (size_lt_of_noWrap noWrap)
  unfold chunkDataIdx
  by_cases active : r.fecActive = true
  · rw [if_pos active, layout_of_fecActive noWrap count chunkCount active]
    rfl
  · rw [if_neg active]
    exact (dataIndex?_of_not_fecActive noWrap count chunkCount active below).symm

end FileReassembler

end ForestLink.Cloud

/-! ## Agreement -/

namespace ForestLink.Protocol

open ForestLink.Cloud
open ForestLink.Mesh

/-- For a file size: what the map does, who computes it, and that they use what they
compute. -/
structure IndexMap (size : Nat) : Prop where
  bijective : Set.BijOn dataIdx (dataSlots (Layout.mesh.chunkCount size))
    (Set.Iio (dataFragments size))
  monotone : StrictMonoOn dataIdx (dataSlots (Layout.mesh.chunkCount size))
  parity : ∀ seq, seq < Layout.mesh.chunkCount size ∧ isParitySlot seq = true ↔
    ∃ group < dataFragments size / 7, seq = 8 * group + 7
  before : ∀ seq ≤ Layout.mesh.chunkCount size, dataFragmentsBeforeSeq false seq =
    ((Finset.range seq).filter fun slot => isParitySlot slot = false).card
  whole : bytesFromSeqProgress false 1456 size (Layout.mesh.chunkCount size) = size
  sender : ∀ seq < Layout.mesh.chunkCount size,
    feedDataIdx seq = Layout.mesh.dataIndex? seq ∧
      oowDataIdx seq = Layout.mesh.dataIndex? seq ∧
      deadExitDataIdx seq = Layout.mesh.dataIndex? seq ∧
      (isParitySlot seq = false → some (redistDataIdx seq) = Layout.mesh.dataIndex? seq) ∧
      ∀ d < 7, some (oowParityDataIdx seq d) = Layout.mesh.dataIndex? (seq / 8 * 8 + d)
  senderUses : ∀ (F : Type) [PathArith F], ∀ seq < Layout.mesh.chunkCount size,
    TransferEngine.UsesIndex F seq
  receiver : ∀ seq < Layout.mesh.chunkCount size,
    receivedDataIdx seq = Layout.mesh.dataIndex? seq ∧
      (isParitySlot seq = false → some (recoveredDataIdx seq) = Layout.mesh.dataIndex? seq)
  receiverUses : ∀ seq < Layout.mesh.chunkCount size, Receiver.UsesIndex seq
  reassembler : ∀ r : FileReassembler, r.totalSize = size → r.chunkSize = 1456 →
    r.chunkCount = Layout.mesh.chunkCount size →
    ∀ seq < r.chunkCount, r.chunkDataIdx seq = Layout.mesh.dataIndex? seq
  reassemblerUses : ∀ (r : FileReassembler) (seq : Nat), r.UsesIndex seq
  table : (layoutRows size).map (fun row => (row.seq, row.dataIdx)) =
    (List.range (Layout.mesh.chunkCount size)).map fun seq => (seq, Layout.mesh.dataIndex? seq)
  placed : ∀ row ∈ layoutRows size, row.fragType ≠ .skip

/-- For every file size whose fragments have 16-bit numbers: the map takes the numbers that carry
data in order onto the data fragments, the parity slots are the last ones of the full groups,
every place in the firmware, the cloud and the tool computes this map, and every path reads or
writes a fragment at the index that it computes. -/
theorem index_map_agreed (size : Nat) (noWrap : NoWrap .mesh size) : IndexMap size := by
  have narrow : ∀ seq < Layout.mesh.chunkCount size, seq < 2 ^ 16 := fun seq below =>
    Nat.lt_trans below (Nat.mod_lt _ (by decide))
  have unguarded : ∀ seq < Layout.mesh.chunkCount size, isParitySlot seq = false →
      some (narrowDataIdx seq) = Layout.mesh.dataIndex? seq := by
    intro seq below data
    rw [narrowDataIdx_eq (narrow seq below), dataIndex?_of_data data]
  refine ⟨dataIdx_bijOn noWrap, dataIdx_strictMonoOn _, parity_iff noWrap, ?_,
    bytesFromSeqProgress_end noWrap, ?_,
    fun F _ seq below => TransferEngine.usesIndex (narrow seq below), ?_,
    fun seq below => Receiver.usesIndex (narrow seq below), ?_,
    fun r seq => r.usesIndex seq, layoutRows_map noWrap, ?_⟩
  · intro seq below
    have small : seq < 2 ^ 16 := Nat.lt_of_le_of_lt below (Nat.mod_lt _ (by decide))
    rw [dataFragmentsBeforeSeq_eq small, card_dataSlots]
  · intro seq below
    have guarded := guardedDataIdx_eq (narrow seq below)
    exact ⟨guarded, guarded, guarded, unguarded seq below,
      fun d inGroup => oowParityDataIdx_eq (narrow seq below) inGroup⟩
  · intro seq below
    exact ⟨guardedDataIdx_eq (narrow seq below), unguarded seq below⟩
  · intro r totalSize chunkSize chunkCount seq below
    exact r.chunkDataIdx_eq noWrap totalSize chunkSize chunkCount below
  · exact layoutRowsFrom_fragType noWrap 0
      (Nat.le_of_eq (by rw [Nat.zero_add, totalSeqs_eq noWrap]))

/-- A file of eighty megabytes. -/
theorem index_map_agreed_large : NoWrap .mesh 80000000 ∧ IndexMap 80000000 :=
  ⟨by decide, index_map_agreed 80000000 (by decide)⟩

end ForestLink.Protocol
