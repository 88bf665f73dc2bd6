/-
Module: ForestLink.Proofs.ReceiverIntegrity
Purpose: The receiver of the firmware puts a file together from the fragments of the mesh
  layout in any order, with duplicates and recoveries.
Trusted boundary: none
Main exports: meshPayload, Receiver.Tracks, Receiver.Filled, receiver_reassembles
-/
import ForestLink.Proofs.FecAgreement
import ForestLink.Proofs.ReceiverSteps

namespace ForestLink.Protocol

open ForestLink.Lib

/-! ## What a sender sends -/

/-- The bytes of a file that a data fragment carries. -/
def fragmentOf (size : Nat) (file : List UInt8) (index : Nat) : List UInt8 :=
  (file.drop (index * size)).take size

/-- The payload of a sequence number: a data fragment, or what the encoder holds after the
seven of the group. -/
def meshPayload (size : Nat) (file : List UInt8) (seq : Nat) : List UInt8 :=
  if isParitySlot seq then
    (((List.range fecGroupSize).map fun i =>
      fragmentOf size file (seq / (fecGroupSize + 1) * fecGroupSize + i)).foldl
        FecEncoder.ingest FecEncoder.reset).parityData
  else fragmentOf size file (dataIdx seq)

/-- `ceil(length / size)` -/
def dataCount (size length : Nat) : Nat := (length + size - 1) / size

/-- Data fragments and the parities of the full groups. -/
def meshTotal (size length : Nat) : Nat :=
  dataCount size length + dataCount size length / fecGroupSize

variable {size : Nat} {file : List UInt8}

theorem length_fragmentOf_le (size : Nat) (file : List UInt8) (index : Nat) :
    (fragmentOf size file index).length ≤ size :=
  List.length_take_le _ _

/-- The encoder holds the padded XOR of what it has taken in. -/
theorem parityData_foldl {strings : List (List UInt8)} (fits : maxLength strings ≤ maxMtu) :
    (strings.foldl FecEncoder.ingest FecEncoder.reset).parityData = xorPad strings := by
  have length : strings.foldl (fun bound fragment => max bound fragment.length) 0 =
      maxLength strings := by
    rw [FecDecoder.foldl_max, Nat.zero_max]
  rw [FecEncoder.parityData, FecEncoder.foldl_ingest_parity, FecEncoder.foldl_ingest_parityLen]
  exact length ▸ take_foldl_xorInto fits

theorem meshPayload_eq (atMost : size ≤ maxMtu) (file : List UInt8) :
    meshPayload size file = withParity fun seq => fragmentOf size file (dataIdx seq) := by
  funext seq
  unfold meshPayload withParity
  split
  · have group : groupData (fun seq => fragmentOf size file (dataIdx seq)) (seq / 8) =
        (List.range fecGroupSize).map fun i =>
          fragmentOf size file (seq / (fecGroupSize + 1) * fecGroupSize + i) := by
      apply List.map_congr_left
      intro i member
      have inside : i < 7 := List.mem_range.mp member
      have place : dataIdx (seq / 8 * 8 + i) =
          seq / (fecGroupSize + 1) * fecGroupSize + i := by
        simp only [dataIdx, fecGroupSize]
        omega
      exact congrArg (fragmentOf size file) place
    rw [group]
    apply parityData_foldl
    apply maxLength_le
    intro string member
    obtain ⟨i, -, rfl⟩ := List.mem_map.mp member
    exact (length_fragmentOf_le _ _ _).trans atMost
  · rfl

theorem wellFormed_meshPayload (atMost : size ≤ maxMtu) (file : List UInt8) :
    WellFormedGroups (meshPayload size file) := by
  rw [meshPayload_eq atMost]
  exact wellFormed_withParity _

theorem meshPayload_of_data {seq : Nat} (isData : isParitySlot seq = false) :
    meshPayload size file seq = fragmentOf size file (dataIdx seq) := by
  simp [meshPayload, isData]

/-! ## Places in the file -/

/-- `data` agrees with the file on the range of a data fragment and ends before the next. -/
structure CoversRange (size : Nat) (file : List UInt8) (index : Nat) (data : List UInt8) :
    Prop where
  short : data.length ≤ size
  agrees : ∀ p < file.length, p / size = index → data[p - index * size]? = file[p]?

theorem range_of_div (positive : 1 ≤ size) {p index : Nat} (lies : p / size = index) :
    index * size ≤ p ∧ p < index * size + size := by
  subst lies
  have next := Nat.lt_mul_div_succ p positive
  rw [Nat.mul_succ, Nat.mul_comm] at next
  exact ⟨Nat.div_mul_le_self p size, next⟩

theorem div_of_range {p index : Nat} (start : index * size ≤ p) (stop : p < index * size + size) :
    p / size = index := by
  apply Nat.div_eq_of_lt_le start
  rwa [Nat.succ_mul]

theorem coversRange_fragmentOf (positive : 1 ≤ size) (file : List UInt8) (index : Nat) :
    CoversRange size file index (fragmentOf size file index) where
  short := length_fragmentOf_le size file index
  agrees p _ lies := by
    obtain ⟨start, stop⟩ := range_of_div positive lies
    rw [fragmentOf, List.getElem?_take_of_lt (by omega), List.getElem?_drop]
    congr 1
    omega

/-- Zeros behind a fragment do not matter. -/
theorem CoversRange.pad {index length : Nat} (positive : 1 ≤ size) (fits : length ≤ size) :
    CoversRange size file index (padTo length (fragmentOf size file index)) where
  short := by
    have short := length_fragmentOf_le size file index
    simp only [padTo, List.length_append, List.length_replicate]
    omega
  agrees p inside lies := by
    have whole := (coversRange_fragmentOf positive file index).agrees p inside lies
    have here : p - index * size < (fragmentOf size file index).length := by
      by_contra beyond
      rw [List.getElem?_eq_none (Nat.le_of_not_lt beyond), List.getElem?_eq_getElem inside] at whole
      contradiction
    rw [padTo, List.getElem?_append_left here]
    exact whole

/-- A recovered payload covers the range of its fragment. -/
theorem coversRange_recovered (positive : 1 ≤ size) {seq : Nat}
    (isData : isParitySlot seq = false) :
    CoversRange size file (dataIdx seq) (paddedFragment (meshPayload size file) seq) := by
  have fits : maxLength (groupData (meshPayload size file) (seq / 8)) ≤ size := by
    apply maxLength_le
    intro string member
    obtain ⟨i, inside, rfl⟩ := List.mem_map.mp member
    have data : isParitySlot (seq / 8 * 8 + i) = false := by
      rw [← Bool.not_eq_true, isParitySlot_iff]
      have small : i < 7 := List.mem_range.mp inside
      omega
    rw [meshPayload_of_data data]
    exact length_fragmentOf_le _ _ _
  rw [paddedFragment, meshPayload_of_data isData]
  exact .pad positive fits

/-! ## The layout -/

theorem dataIdx_lt {d seq : Nat} (small : seq < d + d / fecGroupSize)
    (isData : isParitySlot seq = false) : dataIdx seq < d := by
  rw [← Bool.not_eq_true, isParitySlot_iff] at isData
  simp only [dataIdx, fecGroupSize] at small ⊢
  omega

/-- The sequence number of a data fragment. -/
def seqOfData (index : Nat) : Nat :=
  index / fecGroupSize * (fecGroupSize + 1) + index % fecGroupSize

theorem seqOfData_spec {d index : Nat} (known : index < d) :
    seqOfData index < d + d / fecGroupSize ∧ isParitySlot (seqOfData index) = false ∧
      dataIdx (seqOfData index) = index := by
  rw [← Bool.not_eq_true, isParitySlot_iff]
  simp only [seqOfData, dataIdx, fecGroupSize]
  omega

theorem div_lt_dataCount (positive : 1 ≤ size) {p length : Nat} (inside : p < length) :
    p / size < dataCount size length := by
  rw [dataCount, Nat.lt_iff_add_one_le, Nat.le_div_iff_mul_le positive, Nat.succ_mul]
  have start := Nat.div_mul_le_self p size
  omega

/-! ## The decoder behind the receiver -/

namespace FecDecoder

/-- A decoder without memory takes nothing in. -/
theorem ingest_unallocated {d : FecDecoder} (missing : d.allocated = false) (seq : Nat)
    (data : List UInt8) (isParity : Bool) : d.ingest seq data isParity = (false, d) := by
  simp [ingest, missing]

end FecDecoder

namespace Receiver

variable {truth : Nat → List UInt8} {arrived : List Nat} {r after : Receiver}

/-- A mark has a reason: the fragment arrived, or it is a data fragment and all others of its
group arrived. -/
def Explained (arrived : List Nat) (seq : Nat) : Prop :=
  seq ∈ arrived ∨ isParitySlot seq = false ∧
    ∀ other, other / 8 = seq / 8 → other ≠ seq → other ∈ arrived

/-- A receiver that has been given these fragments of what was sent. -/
structure Tracks (truth : Nat → List UInt8) (arrived : List Nat) (r : Receiver) : Prop where
  wf : r.Wf
  decoder : r.fecDecoder.allocated = true → r.fecDecoder.Holds truth arrived
  explained : ∀ seq, r.recvBitmap.Marked seq → Explained arrived seq

theorem Explained.mono {seq : Nat} (explained : Explained arrived seq) (next : Nat) :
    Explained (next :: arrived) seq := by
  rcases explained with here | ⟨isData, others⟩
  · exact .inl (List.mem_cons_of_mem _ here)
  · exact .inr ⟨isData, fun other same different =>
      List.mem_cons_of_mem _ (others other same different)⟩

/-- The decoder takes a fragment in; what it reports is a true reconstruction. -/
theorem Tracks.fed (tracks : r.Tracks truth arrived) (wellFormed : WellFormedGroups truth)
    {seq : Nat} (small : seq < r.totalFragments) :
    (r.fed seq (truth seq)).Tracks truth (seq :: arrived) ∧
      ((r.fecDecoder.ingest seq (truth seq) (isParitySlot seq)).1 = true →
        Reconstructs truth (seq :: arrived) (r.fed seq (truth seq)).fecDecoder.recoveredSeq
          (r.fed seq (truth seq)).fecDecoder.recoveredData) := by
  have fits : seq < 2 ^ 16 := small.trans tracks.wf.fits
  cases allocated : r.fecDecoder.allocated with
  | false =>
      have ignored := FecDecoder.ingest_unallocated allocated seq (truth seq) (isParitySlot seq)
      refine ⟨⟨tracks.wf.fed seq (truth seq), ?_, fun other isMarked =>
        (tracks.explained other isMarked).mono seq⟩, ?_⟩
      · intro present
        rw [Receiver.fed, ignored] at present
        rw [allocated] at present
        contradiction
      · rw [ignored]
        exact fun impossible => Bool.noConfusion impossible
  | true =>
      have spec := FecDecoder.ingest_spec wellFormed (tracks.decoder allocated) fits
      exact ⟨⟨tracks.wf.fed seq (truth seq), fun _ => spec.1, fun other isMarked =>
        (tracks.explained other isMarked).mono seq⟩, spec.2⟩

theorem Tracks.stored (tracks : r.Tracks truth arrived) {seq : Nat} {data : List UInt8}
    (wf : after.Wf) (stored : Stored r after seq data) (reason : Explained arrived seq) :
    after.Tracks truth arrived where
  wf := wf
  decoder allocated := by
    rw [stored.decoder] at allocated ⊢
    exact tracks.decoder allocated
  explained other isMarked := by
    rcases (stored.marks other).mp isMarked with rfl | before
    · exact reason
    · exact tracks.explained other before

theorem Tracks.finished (tracks : r.Tracks truth arrived) {seq : Nat} {nacks : List Reply}
    (finished : Finished r after seq nacks) : after.Tracks truth arrived where
  wf := finished.wf
  decoder allocated := by
    rw [finished.decoder] at allocated ⊢
    exact tracks.decoder allocated
  explained other isMarked := tracks.explained other (finished.bitmap ▸ isMarked)

/-- The data fragments marked are in the buffer. -/
def Filled (size : Nat) (file : List UInt8) (r : Receiver) : Prop :=
  ∀ seq, r.recvBitmap.Marked seq → isParitySlot seq = false →
    ∀ p < file.length, p / size = dataIdx seq → r.reassemblyBuf[p]? = file[p]?

/-- The session of a file. -/
structure SessionOf (size : Nat) (file : List UInt8) (r : Receiver) : Prop where
  fragmentSize : r.fragmentSize = size
  fileSize : r.fileSize = file.length
  totalFragments : r.totalFragments = meshTotal size file.length

theorem SessionOf.same (session : SessionOf size file r) (same : SameSession r after) :
    SessionOf size file after where
  fragmentSize := same.fragmentSize.trans session.fragmentSize
  fileSize := same.fileSize.trans session.fileSize
  totalFragments := same.totalFragments.trans session.totalFragments

theorem SessionOf.maxDataFragments (session : SessionOf size file r) (positive : 1 ≤ size) :
    r.maxDataFragments = dataCount size file.length := by
  simp only [Receiver.maxDataFragments, session.fragmentSize, session.fileSize]
  exact if_pos positive

/-- Every data fragment of the session has its place. -/
theorem SessionOf.known (session : SessionOf size file r) (positive : 1 ≤ size) {seq : Nat}
    (small : seq < r.totalFragments) (isData : isParitySlot seq = false) :
    dataIdx seq < r.maxDataFragments := by
  rw [session.maxDataFragments positive]
  rw [session.totalFragments] at small
  exact dataIdx_lt small isData

theorem Filled.stored (filled : r.Filled size file) (session : SessionOf size file r)
    (positive : 1 ≤ size) {seq : Nat} (small : seq < r.totalFragments) {data : List UInt8}
    (stored : Stored r after seq data)
    (covers : isParitySlot seq = false → CoversRange size file (dataIdx seq) data)
    (spared : isParitySlot seq = true → after.reassemblyBuf = r.reassemblyBuf) :
    after.Filled size file := by
  intro other isMarked otherData p inside lies
  cases parity : isParitySlot seq with
  | true =>
      rcases (stored.marks other).mp isMarked with rfl | before
      · rw [parity] at otherData
        contradiction
      · rw [spared parity]
        exact filled other before otherData p inside lies
  | false =>
      have covers := covers parity
      have overlaid := stored.overlaid parity (session.known positive small parity) p
      rw [session.fragmentSize, session.fileSize] at overlaid
      rw [overlaid]
      by_cases here : p / size = dataIdx seq
      · have agrees := covers.agrees p inside here
        have range := range_of_div positive here
        split
        · exact agrees
        · rename_i outside
          have beyond : data.length ≤ p - dataIdx seq * size := by
            by_contra short
            exact outside ⟨range.1, by omega, inside⟩
          rw [List.getElem?_eq_none beyond, List.getElem?_eq_getElem inside] at agrees
          contradiction
      · have outside : ¬ (dataIdx seq * size ≤ p ∧ p < dataIdx seq * size + data.length ∧
            p < file.length) := by
          intro inRange
          have short := covers.short
          exact here (div_of_range inRange.1 (by omega))
        rw [if_neg outside]
        rcases (stored.marks other).mp isMarked with rfl | before
        · exact absurd lies here
        · exact filled other before otherData p inside lies

/-! ## One call -/

/-- What the erasure decoder may have added before the fragment itself is handled. -/
def Recovered (r recovered : Receiver) (acks : List Reply) (seq : Nat) (data : List UInt8) :
    Prop :=
  recovered = r.fed seq data ∧ acks = [] ∨
    (r.fecDecoder.ingest seq data (isParitySlot seq)).1 = true ∧
      RecoveryOutcome (r.fed seq data) (recovered, acks)

theorem Tracks.recovered (tracks : r.Tracks truth arrived) (wellFormed : WellFormedGroups truth)
    {seq : Nat} (small : seq < r.totalFragments) {recovered : Receiver} {acks : List Reply}
    (outcome : Recovered r recovered acks seq (truth seq)) :
    recovered.Tracks truth (seq :: arrived) ∧ SameSession r recovered := by
  obtain ⟨fed, reports⟩ := tracks.fed wellFormed small
  rcases outcome with ⟨rfl, -⟩ | ⟨reported, recovery⟩
  · exact ⟨fed, sameSession_fed r seq (truth seq)⟩
  cases recovery with
  | nothing => exact ⟨fed, sameSession_fed r seq (truth seq)⟩
  | stored wf _ stored =>
      have true_ := reports reported
      exact ⟨fed.stored wf stored (.inr ⟨true_.isData, true_.others⟩),
        (sameSession_fed r seq (truth seq)).trans stored.session⟩

theorem Tracks.accepted (tracks : r.Tracks truth arrived) {seq : Nat} (arrives : seq ∈ arrived)
    {data : List UInt8} {accepted : Bool} {replies : List Reply}
    (outcome : AcceptOutcome r seq data (accepted, after, replies)) :
    after.Tracks truth arrived ∧ SameSession r after := by
  cases outcome with
  | duplicate => exact ⟨tracks, .refl r⟩
  | dropped wf stored _ _ => exact ⟨tracks.stored wf stored (.inl arrives), stored.session⟩
  | accepted wf stored _ finished =>
      exact ⟨(tracks.stored wf stored (.inl arrives)).finished finished,
        stored.session.trans finished.session⟩

theorem Filled.recovered (filled : r.Filled size file) (session : SessionOf size file r)
    (tracks : r.Tracks (meshPayload size file) arrived) (positive : 1 ≤ size)
    (atMost : size ≤ maxMtu) {seq : Nat} (small : seq < r.totalFragments) {recovered : Receiver}
    {acks : List Reply}
    (outcome : Recovered r recovered acks seq (meshPayload size file seq)) :
    recovered.Filled size file := by
  obtain ⟨-, reports⟩ := tracks.fed (wellFormed_meshPayload atMost file) small
  rcases outcome with ⟨rfl, -⟩ | ⟨reported, recovery⟩
  · exact filled
  cases recovery with
  | nothing => exact filled
  | stored wf inside stored =>
      have true_ := reports reported
      refine Filled.stored (r := r.fed seq (meshPayload size file seq)) filled
        (session.same (sameSession_fed r seq _)) positive inside stored ?_ ?_
      · intro isData
        rw [true_.data]
        exact coversRange_recovered positive isData
      · intro parity
        rw [true_.isData] at parity
        contradiction

theorem Filled.accepted (filled : r.Filled size file) (session : SessionOf size file r)
    (positive : 1 ≤ size) {seq : Nat} (small : seq < r.totalFragments) {accepted : Bool}
    {replies : List Reply}
    (outcome : AcceptOutcome r seq (meshPayload size file seq) (accepted, after, replies)) :
    after.Filled size file := by
  have covers : isParitySlot seq = false →
      CoversRange size file (dataIdx seq) (meshPayload size file seq) := by
    intro isData
    rw [meshPayload_of_data isData]
    exact coversRange_fragmentOf positive file _
  cases outcome with
  | duplicate => exact filled
  | dropped _ stored isData beyond =>
      exact absurd (session.known positive small isData) (Nat.not_lt.mpr beyond)
  | accepted _ stored spared finished =>
      have kept := filled.stored session positive small stored covers spared
      intro other isMarked isData p inside lies
      rw [finished.buffer]
      exact kept other (finished.bitmap ▸ isMarked) isData p inside lies

/-! ## Runs -/

/-- A receiver that puts this file together. -/
structure Assembles (size : Nat) (file : List UInt8) (arrived : List Nat) (r : Receiver) :
    Prop where
  tracks : r.Tracks (meshPayload size file) arrived
  session : SessionOf size file r
  filled : r.Filled size file

theorem Assembles.receive (assembles : r.Assembles size file arrived) (positive : 1 ≤ size)
    (atMost : size ≤ maxMtu) (now seq : Nat) :
    ∃ accepted after replies,
      r.receiveFragment now seq (meshPayload size file seq) = some (accepted, after, replies) ∧
      ∃ later, after.Assembles size file later := by
  obtain ⟨tracks, session, filled⟩ := assembles
  by_cases small : seq < r.totalFragments
  · obtain ⟨recovered, acks, accepted, after, replies, ran, recovery, outcome⟩ :=
      receiveFragment_outcome tracks.wf now small (meshPayload size file seq)
    obtain ⟨recoveredTracks, same⟩ :=
      tracks.recovered (wellFormed_meshPayload atMost file) small recovery
    have recoveredFilled := filled.recovered session tracks positive atMost small recovery
    have recoveredSession := session.same same
    have stillSmall : seq < recovered.totalFragments := same.totalFragments ▸ small
    obtain ⟨afterTracks, afterSame⟩ := recoveredTracks.accepted List.mem_cons_self outcome
    exact ⟨accepted, after, acks ++ replies, ran, _, afterTracks,
      recoveredSession.same afterSame,
      recoveredFilled.accepted recoveredSession positive stillSmall outcome⟩
  · refine ⟨false, r, [], ?_, arrived, tracks, session, filled⟩
    simp [receiveFragment, Nat.le_of_not_lt small]

/-- All marks set: the buffer is the file. -/
theorem Assembles.complete (assembles : r.Assembles size file arrived) (positive : 1 ≤ size)
    (complete : r.isComplete = true) : r.reassemblyBuf = file := by
  obtain ⟨tracks, session, filled⟩ := assembles
  have all : r.marked = Finset.range r.totalFragments := by
    apply Finset.eq_of_subset_of_card_le (Finset.filter_subset _ _)
    simp only [isComplete, Bool.and_eq_true, beq_iff_eq] at complete
    rw [Finset.card_range]
    exact (complete.2.symm.trans tracks.wf.counted).le
  have length : r.reassemblyBuf.length = file.length :=
    tracks.wf.buffer.trans session.fileSize
  apply List.ext_getElem?
  intro p
  by_cases inside : p < file.length
  · obtain ⟨small, isData, place⟩ := seqOfData_spec (div_lt_dataCount positive inside)
    have isMarked : r.recvBitmap.Marked (seqOfData (p / size)) := by
      rw [← mem_marked tracks.wf, all, Finset.mem_range, session.totalFragments]
      exact small
    exact filled _ isMarked isData p inside place.symm
  · rw [List.getElem?_eq_none (Nat.le_of_not_lt inside),
      List.getElem?_eq_none (length.le.trans (Nat.le_of_not_lt inside))]

theorem tracks_started (truth : Nat → List UInt8)
    {totalFragments fragmentSize fileSize windowSize : Nat}
    (started : r.Started totalFragments fragmentSize fileSize windowSize) :
    r.Tracks truth [] where
  wf := started.wf
  decoder allocated gi active := by
    rw [started.decoder allocated gi] at active
    contradiction
  explained seq isMarked := absurd isMarked (started.empty seq)

theorem Assembles.run (assembles : r.Assembles size file arrived) (positive : 1 ≤ size)
    (atMost : size ≤ maxMtu) (calls : List (Nat × Nat)) :
    ∃ after, r.run (calls.map fun call =>
        { now := call.1, seq := call.2, data := meshPayload size file call.2 }) = some after ∧
      ∃ later, after.Assembles size file later := by
  induction calls generalizing r arrived with
  | nil => exact ⟨r, rfl, arrived, assembles⟩
  | cons call rest inductionHypothesis =>
      obtain ⟨accepted, next, replies, ran, _, nextAssembles⟩ :=
        assembles.receive positive atMost call.1 call.2
      obtain ⟨after, ranRest, afterAssembles⟩ := inductionHypothesis nextAssembles
      exact ⟨after, by simp [Receiver.run, ran, ranRest], afterAssembles⟩

theorem Refusing.run (refusing : r.Refusing) (arrivals : List Arrival) :
    r.run arrivals = some r := by
  induction arrivals with
  | nil => rfl
  | cons arrival rest inductionHypothesis =>
      simp [Receiver.run, refusing.receive, inductionHypothesis]

end Receiver

/-- A session for a file, fed its fragments and parities in any order and number: no access
leaves an array, the counter counts the set bits of the bitmap, and a complete receiver holds
the file. -/
theorem receiver_reassembles (file : List UInt8) {size : Nat} (positive : 1 ≤ size)
    (atMost : size ≤ maxMtu) (fits : meshTotal size file.length < 2 ^ 16) (r : Receiver)
    (heap : Allocations) (calls : List (Nat × Nat)) :
    let started := (r.initReceiver (meshTotal size file.length) size file.length heap).2
    ∃ after, started.run (calls.map fun call =>
        { now := call.1, seq := call.2, data := meshPayload size file call.2 }) = some after ∧
      after.fragmentsReceived = ((Finset.range (8 * after.recvBitmap.length)).filter
        fun seq => after.recvBitmap.Marked seq).card ∧
      (after.isComplete = true → after.reassemblyBuf = file) := by
  obtain ⟨refused, granted⟩ := Receiver.initReceiver_outcome (r := r) fits size file.length heap
  dsimp only at refused granted ⊢
  generalize r.initReceiver (meshTotal size file.length) size file.length heap = started
    at refused granted
  cases result : started.1 with
  | false =>
      have refusing := refused result
      refine ⟨started.2, refusing.run _, ?_, ?_⟩
      · rw [refusing.nothing, refusing.noBitmap]
        rfl
      · simp [Receiver.isComplete, refusing.inactive]
  | true =>
      have start := granted result
      have assembles : started.2.Assembles size file [] :=
        { tracks := Receiver.tracks_started _ start
          session := ⟨start.fragmentSize, start.fileSize, start.totalFragments⟩
          filled := fun seq isMarked => absurd isMarked (start.empty seq) }
      obtain ⟨after, ran, _, final⟩ := assembles.run positive atMost calls
      exact ⟨after, ran, final.tracks.wf.card_bits.symm, final.complete positive⟩

/-- A heap with room for everything. -/
def Allocations.plenty : Allocations where
  largestFreeBlock := 4000000
  reassemblyBuf := some fun _ => 85
  recvBitmap := true
  nackSentMs := true
  fecDecoder := true

theorem initReceiver_plenty (r : Receiver) (totalFragments fragmentSize : Nat) {fileSize : Nat}
    (fits : fileSize ≤ 4000000) :
    (r.initReceiver totalFragments fragmentSize fileSize .plenty).1 = true := by
  simp [Receiver.initReceiver, Allocations.plenty, Nat.not_lt.mpr fits]

/-- Nine fragments of one byte; the sixth never arrives and comes out of the parity. -/
theorem receiver_reassembles_nine_bytes :
    let file : List UInt8 := [1, 2, 3, 4, 5, 6, 7, 8, 9]
    ∃ after, (Receiver.initReceiver {} (meshTotal 1 file.length) 1 file.length .plenty).2.run
        (([9, 8, 7, 0, 1, 2, 2, 3, 4, 6].map fun seq => (0, seq)).map fun call =>
          { now := call.1, seq := call.2, data := meshPayload 1 file call.2 }) = some after ∧
      after.isComplete = true ∧ after.reassemblyBuf = file := by
  intro file
  obtain ⟨after, ran, -, delivered⟩ := receiver_reassembles file (by decide : 1 ≤ 1)
    (by decide) (by decide) {} .plenty ([9, 8, 7, 0, 1, 2, 2, 3, 4, 6].map fun seq => (0, seq))
  have complete : ((Receiver.initReceiver {} (meshTotal 1 file.length) 1 file.length
      .plenty).2.run
      (([9, 8, 7, 0, 1, 2, 2, 3, 4, 6].map fun seq => (0, seq)).map fun call =>
        { now := call.1, seq := call.2, data := meshPayload 1 file call.2 })).map
          Receiver.isComplete = some true := by
    decide +kernel
  rw [ran] at complete
  have full : after.isComplete = true := Option.some.inj complete
  exact ⟨after, ran, full, delivered full⟩

end ForestLink.Protocol
