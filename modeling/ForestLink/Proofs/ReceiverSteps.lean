/-
Module: ForestLink.Proofs.ReceiverSteps
Purpose: What one call of `receive_fragment` does to the bitmap, the counter, the pointer and
  the reassembly buffer, whatever the payload.
Trusted boundary: none
Main exports: Receiver.Wf, Receiver.Stored, Receiver.Finished, receiveFragment_outcome
-/
import Mathlib.Data.Finset.Card
import Mathlib.Tactic.Ring
import ForestLink.Protocol.Receiver

namespace ForestLink.Protocol.Receiver

open ForestLink.Lib

/-! ## A started session -/

/-- Sequence numbers of the session that are marked received. -/
def marked (r : Receiver) : Finset Nat :=
  (Finset.range r.totalFragments).filter fun seq => r.recvBitmap.Marked seq

/-- The arrays are as long as the session needs, the marks lie inside it and are counted. -/
structure Wf (r : Receiver) : Prop where
  active : r.receiverActive = true
  fits : r.totalFragments < 2 ^ 16
  bitmap : r.recvBitmap.length = (r.totalFragments + 7) / 8
  stamps : r.nackSentMs.length = r.totalFragments
  buffer : r.reassemblyBuf.length = r.fileSize
  inside : ∀ seq, r.recvBitmap.Marked seq → seq < r.totalFragments
  counted : r.fragmentsReceived = r.marked.card
  below : r.expectedSeq ≤ r.totalFragments

/-- The parameters of the session. -/
structure SameSession (r after : Receiver) : Prop where
  windowSize : after.windowSize = r.windowSize
  timeoutMs : after.timeoutMs = r.timeoutMs
  totalFragments : after.totalFragments = r.totalFragments
  fragmentSize : after.fragmentSize = r.fragmentSize
  fileSize : after.fileSize = r.fileSize

variable {r after : Receiver}

theorem SameSession.refl (r : Receiver) : SameSession r r := ⟨rfl, rfl, rfl, rfl, rfl⟩

theorem SameSession.trans {first second third : Receiver} (left : SameSession first second)
    (right : SameSession second third) : SameSession first third where
  windowSize := right.windowSize.trans left.windowSize
  timeoutMs := right.timeoutMs.trans left.timeoutMs
  totalFragments := right.totalFragments.trans left.totalFragments
  fragmentSize := right.fragmentSize.trans left.fragmentSize
  fileSize := right.fileSize.trans left.fileSize

theorem SameSession.maxDataFragments (same : SameSession r after) :
    after.maxDataFragments = r.maxDataFragments := by
  simp only [Receiver.maxDataFragments, same.fragmentSize, same.fileSize]

theorem mem_marked (wf : r.Wf) {seq : Nat} : seq ∈ r.marked ↔ r.recvBitmap.Marked seq := by
  simp only [marked, Finset.mem_filter, Finset.mem_range, and_iff_right_iff_imp]
  exact wf.inside seq

/-- The counter counts the set bits of the whole bitmap. -/
theorem Wf.card_bits (wf : r.Wf) :
    ((Finset.range (8 * r.recvBitmap.length)).filter
      fun seq => r.recvBitmap.Marked seq).card = r.fragmentsReceived := by
  rw [wf.counted]
  congr 1
  ext seq
  rw [mem_marked wf, Finset.mem_filter, Finset.mem_range, and_iff_right_iff_imp]
  intro isMarked
  have inside := wf.inside seq isMarked
  have bitmap := wf.bitmap
  omega

/-- A session that could not start: its receiver refuses every fragment. -/
structure Refusing (r : Receiver) : Prop where
  inactive : r.receiverActive = false
  noBitmap : r.recvBitmap = []
  nothing : r.fragmentsReceived = 0

/-- A session that has just started. -/
structure Started (r : Receiver) (totalFragments fragmentSize fileSize windowSize : Nat) :
    Prop where
  wf : r.Wf
  empty : ∀ seq, ¬ r.recvBitmap.Marked seq
  totalFragments : r.totalFragments = totalFragments
  fragmentSize : r.fragmentSize = fragmentSize
  fileSize : r.fileSize = fileSize
  windowSize : r.windowSize = windowSize
  pointer : r.expectedSeq = 0
  decoder : r.fecDecoder.allocated = true → ∀ gi, (r.fecDecoder.groups gi).active = false

theorem initReceiver_outcome {totalFragments : Nat} (fits : totalFragments < 2 ^ 16)
    (fragmentSize fileSize : Nat) (heap : Allocations) :
    let started := r.initReceiver totalFragments fragmentSize fileSize heap
    (started.1 = false → started.2.Refusing) ∧
      (started.1 = true →
        started.2.Started totalFragments fragmentSize fileSize r.windowSize) := by
  unfold initReceiver
  dsimp only
  split
  · exact ⟨fun _ => ⟨rfl, rfl, rfl⟩, fun impossible => nomatch impossible⟩
  split
  · exact ⟨fun _ => ⟨rfl, rfl, rfl⟩, fun impossible => nomatch impossible⟩
  split
  · exact ⟨fun _ => ⟨rfl, rfl, rfl⟩, fun impossible => nomatch impossible⟩
  refine ⟨fun impossible => (nomatch impossible), fun _ => ?_⟩
  constructor
  case wf =>
    constructor
    case active => rfl
    case fits => exact fits
    case bitmap => exact Bitmap.length_zeros totalFragments
    case stamps => exact List.length_replicate
    case buffer => simp
    case inside =>
      exact fun seq isMarked => absurd isMarked (Bitmap.not_marked_zeros totalFragments seq)
    case counted => simp [marked, cleanupReceiver, Bitmap.not_marked_zeros]
    case below => exact Nat.zero_le _
  case empty => exact Bitmap.not_marked_zeros totalFragments
  case decoder =>
    dsimp only
    unfold FecDecoder.reset
    split
    · exact fun _ _ => rfl
    · rename_i missing
      intro allocated
      simp [allocated] at missing
  all_goals rfl

/-- A refused call leaves the receiver as it is. -/
theorem Refusing.receive (refusing : r.Refusing) (now seq : Nat) (data : List UInt8) :
    r.receiveFragment now seq data = some (false, r, []) := by
  simp [receiveFragment, refusing.inactive]

/-! ## Marking and storing -/

theorem Wf.bit_inside (wf : r.Wf) {seq : Nat} (small : seq < r.totalFragments) :
    seq / 8 < r.recvBitmap.length := by
  have bitmap := wf.bitmap
  omega

/-- A first mark is counted. -/
theorem markReceived_spec (wf : r.Wf) {seq : Nat} (small : seq < r.totalFragments)
    (fresh : ¬ r.recvBitmap.Marked seq) :
    ∃ bits, r.markReceived seq = some (r.withMark bits) ∧
      (∀ other, bits.Marked other ↔ other = seq ∨ r.recvBitmap.Marked other) ∧
      (r.withMark bits).Wf := by
  obtain ⟨bits, written, length, marks⟩ := Bitmap.set?_spec (wf.bit_inside small)
  refine ⟨bits, by simp [markReceived, written], marks, ?_⟩
  have absent : seq ∉ r.marked := fun member => fresh ((mem_marked wf).mp member)
  have grown : (Finset.range r.totalFragments).filter (fun other => bits.Marked other) =
      insert seq r.marked := by
    ext other
    simp only [Finset.mem_filter, Finset.mem_range, Finset.mem_insert, mem_marked wf, marks]
    constructor
    · exact fun both => both.2
    · rintro (rfl | isMarked)
      · exact ⟨small, .inl rfl⟩
      · exact ⟨wf.inside other isMarked, .inr isMarked⟩
  have card : (insert seq r.marked).card = r.fragmentsReceived + 1 := by
    rw [Finset.card_insert_of_notMem absent, wf.counted]
  have few : r.fragmentsReceived + 1 ≤ r.totalFragments := by
    rw [← card, ← grown]
    exact (Finset.card_filter_le _ _).trans_eq (Finset.card_range _)
  constructor
  · exact wf.active
  · exact wf.fits
  · exact length.trans wf.bitmap
  · exact wf.stamps
  · exact wf.buffer
  · intro other isMarked
    rcases (marks other).mp isMarked with rfl | before
    · exact small
    · exact wf.inside other before
  · rw [Receiver.marked, withMark]
    dsimp only
    rw [grown, card]
    exact Nat.mod_eq_of_lt (few.trans_lt wf.fits)
  · exact wf.below

/-- The buffer with a payload at its place, cut at the end of the file. -/
def Overlaid (r : Receiver) (dataIndex : Nat) (data buffer : List UInt8) : Prop :=
  ∀ p, buffer[p]? =
    if dataIndex * r.fragmentSize ≤ p ∧ p < dataIndex * r.fragmentSize + data.length ∧
        p < r.fileSize then
      data[p - dataIndex * r.fragmentSize]?
    else r.reassemblyBuf[p]?

/-- Data fragments that the layout knows start inside the file. -/
theorem offset_lt {dataIndex : Nat} (known : dataIndex < r.maxDataFragments) :
    dataIndex * r.fragmentSize < r.fileSize := by
  unfold maxDataFragments at known
  split at known
  · rename_i positive
    have whole := (Nat.le_div_iff_mul_le positive).mp known
    have next : (dataIndex + 1) * r.fragmentSize = dataIndex * r.fragmentSize + r.fragmentSize := by
      ring
    rw [next] at whole
    omega
  · omega

theorem store_spec (wf : r.Wf) {dataIndex : Nat} (known : dataIndex < r.maxDataFragments)
    (data : List UInt8) :
    ∃ buffer, r.store dataIndex data = some (r.withBuffer buffer) ∧
      r.Overlaid dataIndex data buffer ∧ (r.withBuffer buffer).Wf := by
  have starts := offset_lt known
  have buffer := wf.buffer
  have copied : ∃ copyLen, copyLen = (if dataIndex * r.fragmentSize + data.length > r.fileSize then
      r.fileSize - dataIndex * r.fragmentSize else data.length) ∧ copyLen ≤ data.length ∧
      dataIndex * r.fragmentSize + copyLen ≤ r.reassemblyBuf.length ∧
      (∀ p, dataIndex * r.fragmentSize ≤ p → (p < dataIndex * r.fragmentSize + copyLen ↔
        p < dataIndex * r.fragmentSize + data.length ∧ p < r.fileSize)) := by
    refine ⟨_, rfl, ?_⟩
    split <;> refine ⟨?_, ?_, fun p at_ => ?_⟩ <;> omega
  obtain ⟨copyLen, copyEq, short, fits, range⟩ := copied
  have length : (data.take copyLen).length = copyLen := by simpa using short
  refine ⟨copyAt r.reassemblyBuf (dataIndex * r.fragmentSize) (data.take copyLen), ?_, ?_, ?_⟩
  · unfold store
    dsimp only
    rw [← copyEq, if_pos fits]
  · intro p
    rw [getElem?_copyAt (by rwa [length]), length]
    by_cases at_ : dataIndex * r.fragmentSize ≤ p
    · have same := range p at_
      by_cases here : p < dataIndex * r.fragmentSize + copyLen
      · rw [if_pos ⟨at_, here⟩, if_pos ⟨at_, same.mp here⟩, List.getElem?_take_of_lt (by omega)]
      · rw [if_neg (fun both => here both.2), if_neg (fun all => here (same.mpr all.2))]
    · rw [if_neg (fun both => at_ both.1), if_neg (fun all => at_ all.1)]
  · exact ⟨wf.active, wf.fits, wf.bitmap, wf.stamps,
      (length_copyAt (by rwa [length])).trans buffer, wf.inside, wf.counted, wf.below⟩

/-! ## Recovered fragments -/

/-- A fragment newly marked; a data fragment with a place in the layout is in the buffer. -/
structure Stored (r after : Receiver) (seq : Nat) (data : List UInt8) : Prop where
  fresh : ¬ r.recvBitmap.Marked seq
  marks : ∀ other, after.recvBitmap.Marked other ↔ other = seq ∨ r.recvBitmap.Marked other
  session : SameSession r after
  pointer : after.expectedSeq = r.expectedSeq
  decoder : after.fecDecoder = r.fecDecoder
  overlaid : isParitySlot seq = false → dataIdx seq < r.maxDataFragments →
    r.Overlaid (dataIdx seq) data after.reassemblyBuf

/-- What is left of a call after a recovery: nothing new, or one more fragment. -/
inductive RecoveryOutcome (r : Receiver) : Receiver × List Reply → Prop
  | nothing : RecoveryOutcome r (r, [])
  | stored {after : Receiver} (wf : after.Wf) (small : r.fecDecoder.recoveredSeq < r.totalFragments)
      (stored : Stored r after r.fecDecoder.recoveredSeq r.fecDecoder.recoveredData) :
      RecoveryOutcome r (after, [{ type := .ack, seq := r.fecDecoder.recoveredSeq }])

theorem storeRecovered_outcome (wf : r.Wf) :
    ∃ result, r.storeRecovered = some result ∧ RecoveryOutcome r result := by
  unfold storeRecovered
  dsimp only
  split
  · rename_i range
    have small := range.1
    generalize seqEq : r.fecDecoder.recoveredSeq = seq at small ⊢
    by_cases known : r.recvBitmap.Marked seq
    · rw [show r.recvBitmap.test? seq = some true from known]
      exact ⟨_, rfl, .nothing⟩
    · rw [Bitmap.test?_eq_false_of_not_marked (wf.bit_inside small) known]
      obtain ⟨bits, markedEq, marks, markedWf⟩ := markReceived_spec wf small known
      by_cases place : dataIdx seq < r.maxDataFragments
      · obtain ⟨buffer, storedEq, overlaid, storedWf⟩ :=
          store_spec markedWf place r.fecDecoder.recoveredData
        refine ⟨((r.withMark bits).withBuffer buffer, [{ type := .ack, seq := seq }]),
          by simp [markedEq, place, storedEq], ?_⟩
        subst seqEq
        exact .stored storedWf small
          ⟨known, marks, ⟨rfl, rfl, rfl, rfl, rfl⟩, rfl, rfl, fun _ _ => overlaid⟩
      · refine ⟨(r.withMark bits, [{ type := .ack, seq := seq }]),
          by simp [markedEq, place], ?_⟩
        subst seqEq
        exact .stored markedWf small ⟨known, marks, ⟨rfl, rfl, rfl, rfl, rfl⟩, rfl, rfl,
          fun _ impossible => absurd impossible place⟩
  · exact ⟨_, rfl, .nothing⟩

/-! ## The cumulative pointer -/

/-- The bit that the 8-bit byte index finds for a sequence number is set. -/
def Flagged (r : Receiver) (seq : Nat) : Prop := r.recvBitmap.Marked (narrowBit seq)

theorem narrowBit_le (seq : Nat) : narrowBit seq ≤ seq := by
  have mod := Nat.mod_le (seq / 8) (2 ^ 8)
  unfold narrowBit
  omega

theorem narrowBit_lt (seq : Nat) : narrowBit seq < 2048 := by
  have mod := Nat.mod_lt (seq / 8) (by decide : 0 < 2 ^ 8)
  unfold narrowBit
  omega

theorem narrowBit_of_lt {seq : Nat} (small : seq < 2048) : narrowBit seq = seq := by
  have mod : seq / 8 % 2 ^ 8 = seq / 8 := Nat.mod_eq_of_lt (by omega)
  unfold narrowBit
  omega

/-- The pointer stops at the first sequence number from its place on that is not flagged. -/
structure Advanced (r : Receiver) (pointer : Nat) : Prop where
  from_ : r.expectedSeq ≤ pointer
  below : pointer ≤ r.totalFragments
  passed : ∀ seq, r.expectedSeq ≤ seq → seq < pointer → r.Flagged seq
  stopped : pointer < r.totalFragments → ¬ r.Flagged pointer

theorem advance_spec (wf : r.Wf) (rounds : Nat)
    (enough : r.totalFragments ≤ r.expectedSeq + rounds) :
    ∃ pointer, r.advance rounds = some { r with expectedSeq := pointer } ∧
      r.Advanced pointer := by
  induction rounds generalizing r with
  | zero =>
      have below := wf.below
      exact ⟨r.expectedSeq, rfl, ⟨le_rfl, below, fun _ _ _ => by omega, fun _ => by omega⟩⟩
  | succ rounds inductionHypothesis =>
      rw [advance]
      by_cases more : r.expectedSeq < r.totalFragments
      · rw [if_pos more]
        have inside : narrowBit r.expectedSeq / 8 < r.recvBitmap.length :=
          wf.bit_inside ((narrowBit_le _).trans_lt more)
        by_cases flagged : r.Flagged r.expectedSeq
        · rw [show r.recvBitmap.test? (narrowBit r.expectedSeq) = some true from flagged]
          have next : Wf { r with expectedSeq := r.expectedSeq + 1 } :=
            ⟨wf.active, wf.fits, wf.bitmap, wf.stamps, wf.buffer, wf.inside, wf.counted, more⟩
          obtain ⟨pointer, reached, advanced⟩ := inductionHypothesis next (by
            dsimp only
            omega)
          refine ⟨pointer, reached, ⟨(Nat.le_succ _).trans advanced.from_, advanced.below, ?_,
            advanced.stopped⟩⟩
          intro seq fromHere before
          rcases Nat.eq_or_lt_of_le fromHere with rfl | later
          · exact flagged
          · exact advanced.passed seq later before
        · rw [Bitmap.test?_eq_false_of_not_marked inside flagged]
          exact ⟨r.expectedSeq, rfl, ⟨le_rfl, wf.below, fun _ _ _ => by omega, fun _ => flagged⟩⟩
      · rw [if_neg more]
        exact ⟨r.expectedSeq, rfl,
          ⟨le_rfl, wf.below, fun _ _ _ => by omega, fun impossible => absurd impossible more⟩⟩

/-! ## NACKs -/

/-- The NACK loop changes times only and names unflagged sequence numbers of its range. -/
theorem nackGaps_spec (wf : r.Wf) (now : Nat) (seqs : List Nat)
    (range : ∀ seq ∈ seqs, seq < r.totalFragments) :
    ∃ stamps replies, r.nackGaps now seqs = some ({ r with nackSentMs := stamps }, replies) ∧
      stamps.length = r.nackSentMs.length ∧
      ∀ reply ∈ replies, reply.type = .nack ∧ reply.seq ∈ seqs ∧ ¬ r.Flagged reply.seq := by
  induction seqs generalizing r with
  | nil => exact ⟨r.nackSentMs, [], rfl, rfl, fun _ impossible => nomatch impossible⟩
  | cons seq rest inductionHypothesis =>
      have here := range seq List.mem_cons_self
      have later : ∀ other ∈ rest, other < r.totalFragments := fun other member =>
        range other (List.mem_cons_of_mem _ member)
      have widen : ∀ {replies : List Reply},
          (∀ reply ∈ replies, reply.type = .nack ∧ reply.seq ∈ rest ∧ ¬ r.Flagged reply.seq) →
          ∀ reply ∈ replies,
            reply.type = .nack ∧ reply.seq ∈ seq :: rest ∧ ¬ r.Flagged reply.seq := by
        intro replies sound reply member
        obtain ⟨type, inRest, unflagged⟩ := sound reply member
        exact ⟨type, List.mem_cons_of_mem _ inRest, unflagged⟩
      have inside : narrowBit seq / 8 < r.recvBitmap.length :=
        wf.bit_inside ((narrowBit_le _).trans_lt here)
      rw [nackGaps]
      by_cases flagged : r.Flagged seq
      · rw [show r.recvBitmap.test? (narrowBit seq) = some true from flagged]
        obtain ⟨stamps, replies, ran, length, sound⟩ := inductionHypothesis wf later
        exact ⟨stamps, replies, ran, length, widen sound⟩
      · rw [Bitmap.test?_eq_false_of_not_marked inside flagged]
        have stamp : seq < r.nackSentMs.length := wf.stamps ▸ here
        simp only [Option.bind_eq_bind, Option.bind_some, Bool.false_eq_true, ↓reduceIte,
          List.getElem?_eq_getElem stamp]
        split
        · have stamped : Wf { r with nackSentMs := r.nackSentMs.set seq now } :=
            ⟨wf.active, wf.fits, wf.bitmap, List.length_set.trans wf.stamps, wf.buffer, wf.inside,
              wf.counted, wf.below⟩
          obtain ⟨stamps, replies, ran, length, sound⟩ := inductionHypothesis stamped later
          refine ⟨stamps, { type := .nack, seq := seq } :: replies, by simp [ran],
            length.trans List.length_set, ?_⟩
          intro reply member
          rcases List.mem_cons.mp member with rfl | tail
          · exact ⟨rfl, List.mem_cons_self, flagged⟩
          · exact widen sound reply tail
        · obtain ⟨stamps, replies, ran, length, sound⟩ := inductionHypothesis wf later
          exact ⟨stamps, replies, ran, length, widen sound⟩

/-! ## A call in one piece -/

/-- The end of an accepted call: the pointer has advanced, the gaps behind it are NACKed. -/
structure Finished (r after : Receiver) (seq : Nat) (nacks : List Reply) : Prop where
  wf : after.Wf
  session : SameSession r after
  bitmap : after.recvBitmap = r.recvBitmap
  buffer : after.reassemblyBuf = r.reassemblyBuf
  decoder : after.fecDecoder = r.fecDecoder
  pointer : r.Advanced after.expectedSeq
  nacked : ∀ reply ∈ nacks, reply.type = .nack ∧ after.expectedSeq ≤ reply.seq ∧
    reply.seq < after.expectedSeq + after.windowSize ∧ reply.seq < seq ∧ ¬ after.Flagged reply.seq

theorem finish_spec (wf : r.Wf) (now : Nat) {seq : Nat} (small : seq < r.totalFragments) :
    ∃ after nacks, r.finish now seq = some (after, nacks) ∧ Finished r after seq nacks := by
  have below := wf.below
  obtain ⟨pointer, moved, advanced⟩ :=
    advance_spec wf (r.totalFragments - r.expectedSeq) (by omega)
  have movedWf : Wf { r with expectedSeq := pointer } :=
    ⟨wf.active, wf.fits, wf.bitmap, wf.stamps, wf.buffer, wf.inside, wf.counted, advanced.below⟩
  unfold finish
  rw [moved]
  simp only [Option.bind_eq_bind, Option.bind_some]
  split
  · rename_i gap
    have end_ : nackEnd { r with expectedSeq := pointer } seq ≤ seq ∧
        nackEnd { r with expectedSeq := pointer } seq ≤ pointer + r.windowSize := by
      unfold nackEnd
      dsimp only
      split <;> omega
    generalize nackEnd { r with expectedSeq := pointer } seq = stop at end_ ⊢
    have range : ∀ other ∈ List.range' pointer (stop - pointer),
        pointer ≤ other ∧ other < pointer + r.windowSize ∧ other < seq := by
      intro other member
      rw [List.mem_range'_1] at member
      omega
    obtain ⟨stamps, replies, ran, length, sound⟩ := nackGaps_spec movedWf now
      (List.range' pointer (stop - pointer)) fun other member =>
        (range other member).2.2.trans small
    refine ⟨_, replies, ran, ?_, ⟨rfl, rfl, rfl, rfl, rfl⟩, rfl, rfl, rfl, advanced, ?_⟩
    · exact ⟨wf.active, wf.fits, wf.bitmap, length.trans wf.stamps, wf.buffer, wf.inside,
        wf.counted, advanced.below⟩
    · intro reply member
      obtain ⟨type, named, unflagged⟩ := sound reply member
      obtain ⟨fromPointer, inWindow, before⟩ := range reply.seq named
      exact ⟨type, fromPointer, inWindow, before, unflagged⟩
  · exact ⟨_, [], rfl, movedWf, ⟨rfl, rfl, rfl, rfl, rfl⟩, rfl, rfl, rfl, advanced,
      fun _ impossible => nomatch impossible⟩

/-- The results of the part of `receive_fragment` behind the erasure decoder. -/
inductive AcceptOutcome (r : Receiver) (seq : Nat) (data : List UInt8) :
    Bool × Receiver × List Reply → Prop
  | duplicate (known : r.recvBitmap.Marked seq) :
      AcceptOutcome r seq data (false, r, [{ type := .ack, seq := seq }])
  | dropped {after : Receiver} (wf : after.Wf) (stored : Stored r after seq data)
      (isData : isParitySlot seq = false) (beyond : r.maxDataFragments ≤ dataIdx seq) :
      AcceptOutcome r seq data (false, after, [{ type := .ack, seq := seq }])
  | accepted {kept after : Receiver} {nacks : List Reply} (wf : kept.Wf)
      (stored : Stored r kept seq data)
      (spared : isParitySlot seq = true → kept.reassemblyBuf = r.reassemblyBuf)
      (finished : Finished kept after seq nacks) :
      AcceptOutcome r seq data (true, after, { type := .ack, seq := seq } :: nacks)

theorem accept_outcome (wf : r.Wf) (now : Nat) {seq : Nat} (small : seq < r.totalFragments)
    (data : List UInt8) :
    ∃ result, r.accept now seq data = some result ∧ AcceptOutcome r seq data result := by
  have inside : ¬ (r.totalFragments + 7) / 8 ≤ seq / 8 := by omega
  unfold accept
  rw [if_neg inside]
  by_cases known : r.recvBitmap.Marked seq
  · rw [show r.recvBitmap.test? seq = some true from known]
    exact ⟨_, rfl, .duplicate known⟩
  rw [Bitmap.test?_eq_false_of_not_marked (wf.bit_inside small) known]
  obtain ⟨bits, markedEq, marks, markedWf⟩ := markReceived_spec wf small known
  simp only [Option.bind_eq_bind, Option.bind_some, Bool.false_eq_true, ↓reduceIte, markedEq]
  by_cases parity : isParitySlot seq = true
  · obtain ⟨after, nacks, ran, finished⟩ := finish_spec markedWf now small
    refine ⟨(true, after, { type := .ack, seq := seq } :: nacks), by simp [parity, ran], ?_⟩
    refine .accepted markedWf ⟨known, marks, ⟨rfl, rfl, rfl, rfl, rfl⟩, rfl, rfl, ?_⟩
      (fun _ => rfl) finished
    exact fun isData => absurd parity (by simp [isData])
  · have isData : isParitySlot seq = false := by simpa using parity
    by_cases place : dataIdx seq < r.maxDataFragments
    · obtain ⟨buffer, storedEq, overlaid, storedWf⟩ := store_spec markedWf place data
      obtain ⟨after, nacks, ran, finished⟩ := finish_spec storedWf now small
      refine ⟨(true, after, { type := .ack, seq := seq } :: nacks), ?_, ?_⟩
      · simp [isData, Nat.not_le.mpr place, storedEq, ran]
      · exact .accepted storedWf ⟨known, marks, ⟨rfl, rfl, rfl, rfl, rfl⟩, rfl, rfl,
          fun _ _ => overlaid⟩ (fun impossible => absurd impossible parity) finished
    · have beyond : r.maxDataFragments ≤ dataIdx seq := Nat.le_of_not_lt place
      refine ⟨(false, r.withMark bits, [{ type := .ack, seq := seq }]),
        by simp [isData, beyond], ?_⟩
      exact .dropped markedWf ⟨known, marks, ⟨rfl, rfl, rfl, rfl, rfl⟩, rfl, rfl,
        fun _ impossible => absurd impossible place⟩ isData beyond

/-- The receiver with a fragment taken in by its erasure decoder. -/
def fed (r : Receiver) (seq : Nat) (data : List UInt8) : Receiver :=
  { r with fecDecoder := (r.fecDecoder.ingest seq data (isParitySlot seq)).2 }

theorem sameSession_fed (r : Receiver) (seq : Nat) (data : List UInt8) :
    SameSession r (r.fed seq data) :=
  ⟨rfl, rfl, rfl, rfl, rfl⟩

theorem Wf.fed (wf : r.Wf) (seq : Nat) (data : List UInt8) : (r.fed seq data).Wf :=
  ⟨wf.active, wf.fits, wf.bitmap, wf.stamps, wf.buffer, wf.inside, wf.counted, wf.below⟩

/-- A call with a sequence number of the session runs through: the decoder takes the fragment,
at most one recovered fragment is stored, then the fragment itself is handled. -/
theorem receiveFragment_outcome (wf : r.Wf) (now : Nat) {seq : Nat}
    (small : seq < r.totalFragments) (data : List UInt8) :
    ∃ recovered acks accepted after replies,
      r.receiveFragment now seq data = some (accepted, after, acks ++ replies) ∧
      (recovered = r.fed seq data ∧ acks = [] ∨
        (r.fecDecoder.ingest seq data (isParitySlot seq)).1 = true ∧
          RecoveryOutcome (r.fed seq data) (recovered, acks)) ∧
      AcceptOutcome recovered seq data (accepted, after, replies) := by
  have guard : (!r.receiverActive || decide (r.totalFragments ≤ seq)) = false := by
    simp [wf.active, small]
  unfold receiveFragment
  rw [guard]
  simp only [Bool.false_eq_true, ↓reduceIte]
  cases reported : (r.fecDecoder.ingest seq data (isParitySlot seq)).1 with
  | false =>
      obtain ⟨⟨accepted, after, replies⟩, ran, outcome⟩ :=
        accept_outcome (wf.fed seq data) now small data
      refine ⟨_, [], accepted, after, replies, ?_, .inl ⟨rfl, rfl⟩, outcome⟩
      rw [Receiver.fed] at ran
      simp [ran]
  | true =>
      obtain ⟨⟨recovered, acks⟩, stored, recovery⟩ := storeRecovered_outcome (wf.fed seq data)
      have recoveredWf : recovered.Wf := by
        cases recovery with
        | nothing => exact wf.fed seq data
        | stored storedWf _ _ => exact storedWf
      have total : seq < recovered.totalFragments := by
        cases recovery with
        | nothing => exact small
        | stored _ _ kept => exact kept.session.totalFragments ▸ small
      obtain ⟨⟨accepted, after, replies⟩, ran, outcome⟩ :=
        accept_outcome recoveredWf now total data
      refine ⟨recovered, acks, accepted, after, replies, ?_, .inr ⟨rfl, recovery⟩, outcome⟩
      rw [Receiver.fed] at stored
      simp [stored, ran]

end ForestLink.Protocol.Receiver
