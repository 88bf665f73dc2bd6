/-
Module: ForestLink.Proofs.SenderWindow
Purpose: What each sender operation does to the set of fragments a window holds.
Trusted boundary: none
Main exports: SelectiveRepeat.pending, SelectiveRepeat.Wf, SameFragments,
  sendFragment_spec, handleAck_spec, handleNack_sameFragments,
  tick_sameFragments, Wf.snapshot_perm, Respects
-/
import Mathlib.Data.Finset.Card
import Mathlib.Data.Finset.Image
import ForestLink.Protocol.SelectiveRepeat

namespace ForestLink.Protocol.SelectiveRepeat

/-! ## The fragments of a window -/

/-- Indices of the slots in use. -/
def occupied (sr : SelectiveRepeat) : Finset Nat :=
  (Finset.range sr.windowSize).filter fun index => (sr.window index).sent = true

/-- Sequence numbers sent and not acknowledged. -/
def pending (sr : SelectiveRepeat) : Finset Nat :=
  sr.occupied.image fun index => (sr.window index).seqTag

/-- Contents of a slot in use at `index`. -/
structure Holds (slot : FragmentSlot) (windowSize index : Nat) : Prop where
  indexed : slot.seqTag % windowSize = index
  nonempty : slot.data ≠ []
  unacked : slot.acked = false
  tagged : slot.seqTag < noSeqTag

/-- Representation invariant of the sender window. -/
structure Wf (sr : SelectiveRepeat) : Prop where
  sized : 0 < sr.windowSize
  holds : ∀ index ∈ sr.occupied, Holds (sr.window index) sr.windowSize index
  counted : sr.inFlight = sr.occupied.card

theorem mem_occupied {sr : SelectiveRepeat} {index : Nat} :
    index ∈ sr.occupied ↔ index < sr.windowSize ∧ (sr.window index).sent = true := by
  simp [occupied]

theorem Wf.slotIndex_lt {sr : SelectiveRepeat} (wf : sr.Wf) (seq : Nat) :
    sr.slotIndex seq < sr.windowSize :=
  Nat.mod_lt seq wf.sized

theorem Wf.mem_pending {sr : SelectiveRepeat} (wf : sr.Wf) {seq : Nat} :
    seq ∈ sr.pending ↔ (sr.slotOf seq).sent = true ∧ (sr.slotOf seq).seqTag = seq := by
  constructor
  · intro member
    rcases Finset.mem_image.mp member with ⟨index, inUse, rfl⟩
    have home : sr.slotIndex (sr.window index).seqTag = index := (wf.holds index inUse).indexed
    rw [slotOf, home]
    exact ⟨(mem_occupied.mp inUse).2, rfl⟩
  · intro ⟨sent, tag⟩
    exact Finset.mem_image.mpr
      ⟨sr.slotIndex seq, mem_occupied.mpr ⟨wf.slotIndex_lt seq, sent⟩, tag⟩

/-- The in-flight counter counts the pending sequence numbers. -/
theorem Wf.card_pending {sr : SelectiveRepeat} (wf : sr.Wf) :
    sr.pending.card = sr.inFlight := by
  rw [wf.counted]
  apply Finset.card_image_of_injOn
  intro first firstInUse second secondInUse sameTag
  have firstHome := (wf.holds first firstInUse).indexed
  have secondHome := (wf.holds second secondInUse).indexed
  rw [← firstHome, ← secondHome]
  exact congrArg (· % sr.windowSize) sameTag

theorem Wf.inFlight_le {sr : SelectiveRepeat} (wf : sr.Wf) :
    sr.inFlight ≤ sr.windowSize := by
  rw [wf.counted]
  calc sr.occupied.card ≤ (Finset.range sr.windowSize).card := Finset.card_filter_le _ _
    _ = sr.windowSize := Finset.card_range _

theorem Wf.pending_eq_empty_iff {sr : SelectiveRepeat} (wf : sr.Wf) :
    sr.pending = ∅ ↔ sr.inFlight = 0 := by
  rw [← wf.card_pending, Finset.card_eq_zero]

@[simp] theorem pending_resetSender (sr : SelectiveRepeat) : sr.resetSender.pending = ∅ := by
  simp [pending, occupied, resetSender]

theorem wf_resetSender {sr : SelectiveRepeat} (sized : 0 < sr.windowSize) :
    sr.resetSender.Wf where
  sized := sized
  holds := by simp [occupied, resetSender]
  counted := by simp [occupied, resetSender]

/-! ## Operations that keep every fragment -/

/-- The two windows hold the same fragments; only timers, retry counters and
estimates may differ. -/
structure SameFragments (sr after : SelectiveRepeat) : Prop where
  windowSize : after.windowSize = sr.windowSize
  inFlight : after.inFlight = sr.inFlight
  sent : ∀ index, (after.window index).sent = (sr.window index).sent
  seqTag : ∀ index, (after.window index).seqTag = (sr.window index).seqTag
  data : ∀ index, (after.window index).data = (sr.window index).data
  acked : ∀ index, (after.window index).acked = (sr.window index).acked

theorem SameFragments.refl (sr : SelectiveRepeat) : SameFragments sr sr :=
  ⟨rfl, rfl, fun _ => rfl, fun _ => rfl, fun _ => rfl, fun _ => rfl⟩

theorem SameFragments.trans {first second third : SelectiveRepeat}
    (left : SameFragments first second) (right : SameFragments second third) :
    SameFragments first third where
  windowSize := right.windowSize.trans left.windowSize
  inFlight := right.inFlight.trans left.inFlight
  sent index := (right.sent index).trans (left.sent index)
  seqTag index := (right.seqTag index).trans (left.seqTag index)
  data index := (right.data index).trans (left.data index)
  acked index := (right.acked index).trans (left.acked index)

theorem SameFragments.occupied {sr after : SelectiveRepeat} (same : SameFragments sr after) :
    after.occupied = sr.occupied := by
  ext index
  rw [mem_occupied, mem_occupied, same.windowSize, same.sent]

theorem SameFragments.pending {sr after : SelectiveRepeat} (same : SameFragments sr after) :
    after.pending = sr.pending := by
  unfold SelectiveRepeat.pending
  rw [same.occupied]
  exact Finset.image_congr fun index _ => same.seqTag index

theorem SameFragments.wf {sr after : SelectiveRepeat} (same : SameFragments sr after)
    (wf : sr.Wf) : after.Wf where
  sized := by
    rw [same.windowSize]
    exact wf.sized
  holds index inUse := by
    rw [same.occupied] at inUse
    have held := wf.holds index inUse
    constructor
    · rw [same.seqTag, same.windowSize]
      exact held.indexed
    · rw [same.data]
      exact held.nonempty
    · rw [same.acked]
      exact held.unacked
    · rw [same.seqTag]
      exact held.tagged
  counted := by rw [same.inFlight, same.occupied, wf.counted]

/-- Rewriting the timer and the retry counter of one slot. -/
theorem sameFragments_setSlot (sr : SelectiveRepeat) (index time retries : Nat) :
    SameFragments sr (sr.setSlot index
      { sr.window index with sendTimeMs := time, retries := retries }) := by
  constructor
  · rfl
  · rfl
  all_goals
    intro other
    by_cases same : other = index
    · subst same
      simp [setSlot]
    · simp [setSlot, same]

section Operations

variable {σ : Type} (radio : Radio σ)

theorem handleNack_sameFragments (io : σ) (sr : SelectiveRepeat) (seq : Nat) :
    SameFragments sr (handleNack radio io sr seq).1 := by
  unfold handleNack
  dsimp only
  split
  · exact .refl sr
  split
  · exact .refl sr
  split
  · exact sameFragments_setSlot sr _ _ _
  split
  · exact .refl sr
  split
  · have touched := sameFragments_setSlot sr (sr.slotIndex seq) (sr.slotOf seq).sendTimeMs
      (((sr.slotOf seq).retries + 1) % 2 ^ 8)
    exact ⟨touched.windowSize, touched.inFlight, touched.sent, touched.seqTag,
      touched.data, touched.acked⟩
  · exact sameFragments_setSlot sr _ _ _

theorem tickSlots_sameFragments (now maxSends : Nat) (indices : List Nat) (io : σ)
    (sr : SelectiveRepeat) (sentCount : Nat) :
    SameFragments sr (tickSlots radio now maxSends indices io sr sentCount).2.1 := by
  induction indices generalizing io sr sentCount with
  | nil => exact .refl sr
  | cons index rest inductionHypothesis =>
      unfold tickSlots
      dsimp only
      split
      · exact inductionHypothesis io sr sentCount
      split
      · exact inductionHypothesis io sr sentCount
      split
      · exact inductionHypothesis io sr sentCount
      split
      · exact .refl sr
      split
      · exact sameFragments_setSlot sr _ _ _
      split
      · exact .refl sr
      · exact (sameFragments_setSlot sr _ _ _).trans (inductionHypothesis _ _ _)

theorem tick_sameFragments (io : σ) (sr : SelectiveRepeat) (maxSends : Nat) :
    SameFragments sr (tick radio io sr maxSends).2.1 :=
  tickSlots_sameFragments radio _ _ _ _ _ _

/-! ## Placing and releasing -/

theorem occupied_setSlot_sent {sr : SelectiveRepeat} {index : Nat} {slot : FragmentSlot}
    (inWindow : index < sr.windowSize) (sent : slot.sent = true) :
    (sr.setSlot index slot).occupied = insert index sr.occupied := by
  ext other
  rw [mem_occupied, Finset.mem_insert, mem_occupied]
  by_cases same : other = index
  · subst same
    simp [setSlot, sent, inWindow]
  · simp [setSlot, same]

theorem occupied_setSlot_cleared (sr : SelectiveRepeat) {index : Nat} {slot : FragmentSlot}
    (cleared : slot.sent = false) :
    (sr.setSlot index slot).occupied = sr.occupied.erase index := by
  ext other
  rw [mem_occupied, Finset.mem_erase, mem_occupied]
  by_cases same : other = index
  · subst same
    simp [setSlot, cleared]
  · simp [setSlot, same]

/-- The occupied indices only read the slots and the size. -/
theorem occupied_congr {sr after : SelectiveRepeat} (window : after.window = sr.window)
    (windowSize : after.windowSize = sr.windowSize) : after.occupied = sr.occupied := by
  unfold occupied
  rw [window, windowSize]

theorem index_free_of_slot_free {sr : SelectiveRepeat} {seq : Nat}
    (free : (sr.slotOf seq).sent = false) : sr.slotIndex seq ∉ sr.occupied := by
  intro inUse
  have sentThere := (mem_occupied.mp inUse).2
  rw [slotOf] at free
  rw [free] at sentThere
  contradiction

/-- Writing one slot leaves the others. -/
theorem window_setSlot_of_ne {sr after : SelectiveRepeat} {home index : Nat}
    {slot : FragmentSlot} (window : after.window = (sr.setSlot home slot).window)
    (different : index ≠ home) : after.window index = sr.window index := by
  simp [window, setSlot, different]

/-- Filling a free slot with a fragment at its own index. -/
theorem wf_place {sr after : SelectiveRepeat} {seq : Nat} {slot : FragmentSlot}
    (wf : sr.Wf) (free : (sr.slotOf seq).sent = false) (sent : slot.sent = true)
    (tag : slot.seqTag = seq) (held : Holds slot sr.windowSize (sr.slotIndex seq))
    (window : after.window = (sr.setSlot (sr.slotIndex seq) slot).window)
    (windowSize : after.windowSize = sr.windowSize)
    (inFlight : after.inFlight = sr.inFlight + 1) :
    after.Wf ∧ after.pending = insert seq sr.pending := by
  have freeIndex := index_free_of_slot_free free
  have occupiedEq : after.occupied = insert (sr.slotIndex seq) sr.occupied := by
    rw [← occupied_setSlot_sent (wf.slotIndex_lt seq) sent]
    exact occupied_congr window windowSize
  have atSlot : after.window (sr.slotIndex seq) = slot := by simp [window, setSlot]
  have elsewhere : ∀ index ∈ sr.occupied, after.window index = sr.window index :=
    fun index inUse => window_setSlot_of_ne window fun same => freeIndex (same ▸ inUse)
  constructor
  · constructor
    · rw [windowSize]
      exact wf.sized
    · intro index inUse
      rw [occupiedEq, Finset.mem_insert] at inUse
      rw [windowSize]
      rcases inUse with rfl | inUse
      · rw [atSlot]
        exact held
      · rw [elsewhere index inUse]
        exact wf.holds index inUse
    · rw [inFlight, occupiedEq, Finset.card_insert_of_notMem freeIndex, wf.counted]
  · unfold pending
    rw [occupiedEq, Finset.image_insert, atSlot, tag]
    congr 1
    exact Finset.image_congr fun index inUse => congrArg FragmentSlot.seqTag
      (elsewhere index inUse)

/-- Releasing the slot of a pending fragment. -/
theorem wf_release {sr after : SelectiveRepeat} {seq : Nat}
    (wf : sr.Wf) (held : seq ∈ sr.pending)
    (window : after.window = (sr.setSlot (sr.slotIndex seq) {}).window)
    (windowSize : after.windowSize = sr.windowSize)
    (inFlight : after.inFlight = sr.inFlight - 1) :
    after.Wf ∧ after.pending = sr.pending.erase seq := by
  obtain ⟨sent, tag⟩ := wf.mem_pending.mp held
  have inUse : sr.slotIndex seq ∈ sr.occupied :=
    mem_occupied.mpr ⟨wf.slotIndex_lt seq, sent⟩
  have occupiedEq : after.occupied = sr.occupied.erase (sr.slotIndex seq) := by
    rw [← occupied_setSlot_cleared sr (rfl : ({} : FragmentSlot).sent = false)]
    exact occupied_congr window windowSize
  have elsewhere : ∀ index ∈ after.occupied, after.window index = sr.window index := by
    intro index still
    rw [occupiedEq, Finset.mem_erase] at still
    exact window_setSlot_of_ne window still.1
  have afterWf : after.Wf := by
    constructor
    · rw [windowSize]
      exact wf.sized
    · intro index still
      rw [windowSize, elsewhere index still]
      rw [occupiedEq] at still
      exact wf.holds index (Finset.mem_of_mem_erase still)
    · rw [inFlight, occupiedEq, Finset.card_erase_of_mem inUse, wf.counted]
  refine ⟨afterWf, ?_⟩
  ext other
  rw [afterWf.mem_pending, Finset.mem_erase, wf.mem_pending]
  have sameIndex : after.slotIndex other = sr.slotIndex other := by
    rw [slotIndex, slotIndex, windowSize]
  by_cases home : sr.slotIndex other = sr.slotIndex seq
  · have emptied : after.slotOf other = {} := by
      rw [slotOf, sameIndex, home, window]
      simp [setSlot]
    have sameSlot : sr.slotOf other = sr.slotOf seq := by rw [slotOf, home, slotOf]
    rw [emptied, sameSlot, tag]
    constructor
    · intro ⟨impossible, _⟩
      contradiction
    · intro ⟨different, _, same⟩
      exact absurd same.symm different
  · have kept : after.slotOf other = sr.slotOf other := by
      rw [slotOf, sameIndex, window]
      simp [setSlot, home, slotOf]
    have different : other ≠ seq := fun same => home (congrArg sr.slotIndex same)
    rw [kept]
    exact ⟨fun both => ⟨different, both⟩, fun both => both.2⟩

/-- Emptying a slot that held no fragment. -/
theorem wf_undo {sr after : SelectiveRepeat} {seq : Nat}
    (wf : sr.Wf) (free : (sr.slotOf seq).sent = false)
    (window : after.window = (sr.setSlot (sr.slotIndex seq) {}).window)
    (windowSize : after.windowSize = sr.windowSize)
    (inFlight : after.inFlight = sr.inFlight) :
    after.Wf ∧ after.pending = sr.pending := by
  have freeIndex := index_free_of_slot_free free
  have occupiedEq : after.occupied = sr.occupied := by
    rw [← Finset.erase_eq_of_notMem freeIndex,
      ← occupied_setSlot_cleared sr (rfl : ({} : FragmentSlot).sent = false)]
    exact occupied_congr window windowSize
  have elsewhere : ∀ index ∈ sr.occupied, after.window index = sr.window index :=
    fun index inUse => window_setSlot_of_ne window fun same => freeIndex (same ▸ inUse)
  constructor
  · constructor
    · rw [windowSize]
      exact wf.sized
    · intro index inUse
      rw [occupiedEq] at inUse
      rw [windowSize, elsewhere index inUse]
      exact wf.holds index inUse
    · rw [inFlight, occupiedEq, wf.counted]
  · unfold pending
    rw [occupiedEq]
    exact Finset.image_congr fun index inUse => congrArg FragmentSlot.seqTag
      (elsewhere index inUse)

/-- A successful `send_fragment` adds exactly its sequence number; a refused one
leaves the pending set as it was. -/
theorem sendFragment_spec {sr : SelectiveRepeat} (wf : sr.Wf) (io : σ) {seq : Nat}
    (small : seq < noSeqTag) (data : List UInt8) :
    let result := sendFragment radio io sr seq data
    result.2.1.Wf ∧ result.2.1.windowSize = sr.windowSize ∧
      ((result.1 = 0 ∧ result.2.1.pending = insert seq sr.pending) ∨
        (result.1 = -1 ∧ result.2.1.pending = sr.pending)) := by
  unfold sendFragment
  dsimp only
  split
  · exact ⟨wf, rfl, .inr ⟨rfl, rfl⟩⟩
  rename_i nonempty
  split
  · exact ⟨wf, rfl, .inr ⟨rfl, rfl⟩⟩
  split
  · rename_i duplicate
    have already : seq ∈ sr.pending := by
      rw [wf.mem_pending]
      simpa using duplicate
    exact ⟨wf, rfl, .inl ⟨rfl, (Finset.insert_eq_of_mem already).symm⟩⟩
  split
  · exact ⟨wf, rfl, .inr ⟨rfl, rfl⟩⟩
  rename_i notSent
  have free : (sr.slotOf seq).sent = false := by simpa using notSent
  have held : Holds
      { data := data, sendTimeMs := (radio.nowMs io).1, seqTag := seq, sent := true }
      sr.windowSize (sr.slotIndex seq) := ⟨rfl, nonempty, rfl, small⟩
  split
  · exact ⟨wf, rfl, .inr ⟨rfl, rfl⟩⟩
  split
  · -- The refused transmission: the slot is empty again, as before the call.
    refine And.imp_right (fun pendingEq => ⟨rfl, .inr ⟨rfl, pendingEq⟩⟩)
      (wf_undo wf free ?_ rfl rfl)
    simp [recomputeSenderBounds, setSlot]
  · exact And.imp_right (fun pendingEq => ⟨rfl, .inl ⟨rfl, pendingEq⟩⟩)
      (wf_place wf free rfl rfl held rfl rfl rfl)

/-- `handle_ack` releases the acknowledged sequence number and nothing else. -/
theorem handleAck_spec {sr : SelectiveRepeat} (wf : sr.Wf) (io : σ) (seq : Nat) :
    (handleAck radio io sr seq).1.Wf ∧
      (handleAck radio io sr seq).1.windowSize = sr.windowSize ∧
      (handleAck radio io sr seq).1.pending = sr.pending.erase seq := by
  unfold handleAck
  dsimp only
  split
  · rename_i inactive
    have absent : seq ∉ sr.pending := by
      intro member
      obtain ⟨sent, tag⟩ := wf.mem_pending.mp member
      have held := wf.holds _ (mem_occupied.mpr ⟨wf.slotIndex_lt seq, sent⟩)
      have nonempty : (sr.slotOf seq).data ≠ [] := held.nonempty
      simp [sent, tag, nonempty] at inactive
    exact ⟨wf, rfl, (Finset.erase_eq_of_notMem absent).symm⟩
  · rename_i active
    have member : seq ∈ sr.pending := by
      rw [wf.mem_pending]
      simp only [Bool.or_eq_true, not_or, Bool.not_eq_true', Bool.not_eq_true] at active
      simpa using active.1
    have unacked : (sr.slotOf seq).acked = false :=
      (wf.holds _ (mem_occupied.mpr
        ⟨wf.slotIndex_lt seq, (wf.mem_pending.mp member).1⟩)).unacked
    have sent := (wf.mem_pending.mp member).1
    refine And.imp_right (fun pendingEq => ⟨?_, pendingEq⟩) (wf_release wf member ?_ ?_ ?_)
    · split <;> rfl
    · split <;> rfl
    · split <;> rfl
    · simp [recomputeSenderBounds, sent, unacked]

/-! ## Queries -/

theorem containsSequence_iff {sr : SelectiveRepeat} (wf : sr.Wf) {seq : Nat} :
    sr.containsSequence seq = true ↔ seq ∈ sr.pending := by
  rw [wf.mem_pending, containsSequence, if_neg (Nat.pos_iff_ne_zero.mp wf.sized)]
  constructor
  · intro contains
    simp only [Bool.and_eq_true, beq_iff_eq] at contains
    exact contains.1
  · intro ⟨sent, tag⟩
    have held := wf.holds _ (mem_occupied.mpr ⟨wf.slotIndex_lt seq, sent⟩)
    have nonempty : (sr.slotOf seq).data ≠ [] := held.nonempty
    simp [sent, tag, nonempty]

theorem hasPending_iff {sr : SelectiveRepeat} (wf : sr.Wf) :
    sr.hasPending = true ↔ sr.pending ≠ ∅ := by
  rw [ne_eq, wf.pending_eq_empty_iff]
  simp [hasPending, Nat.pos_iff_ne_zero]

/-! ### An idle window -/

theorem Wf.slot_free {sr : SelectiveRepeat} (wf : sr.Wf) (idle : sr.inFlight = 0) (seq : Nat) :
    (sr.slotOf seq).sent = false := by
  by_contra notFree
  have sent : (sr.slotOf seq).sent = true := by simpa using notFree
  have inUse : sr.slotIndex seq ∈ sr.occupied :=
    mem_occupied.mpr ⟨wf.slotIndex_lt seq, sent⟩
  have none : sr.occupied = ∅ := Finset.card_eq_zero.mp (wf.counted.symm.trans idle)
  rw [none] at inUse
  exact Finset.notMem_empty _ inUse

theorem canSendSequence_idle {sr : SelectiveRepeat} (wf : sr.Wf) (idle : sr.inFlight = 0)
    (seq : Nat) : sr.canSendSequence seq = true := by
  have sized := wf.sized
  simp [canSendSequence, wf.slot_free idle, idle, Nat.ne_of_gt sized, sized]

/-- From an idle window a fragment goes out unless its length or the radio is
against it. -/
theorem sendFragment_idle {sr : SelectiveRepeat} (wf : sr.Wf) (idle : sr.inFlight = 0) (io : σ)
    (seq : Nat) (data : List UInt8) :
    let result := sendFragment radio io sr seq data
    let transmitted := radio.send (radio.nowMs io).2 sr.peerAddr .data seq data
    (data = [] ∨ espnowMaxPayload < data.length → result.1 = -1 ∧ result.2.2 = io) ∧
      (¬ (data = [] ∨ espnowMaxPayload < data.length) →
        (result.1 < 0 ↔ transmitted.1 < 0) ∧ result.2.2 = transmitted.2) := by
  have free := wf.slot_free idle seq
  have room : sr.senderWindowFull = false := by
    simp [senderWindowFull, idle, Nat.ne_of_gt wf.sized]
  unfold sendFragment
  dsimp only
  split
  · rename_i empty
    exact ⟨fun _ => ⟨rfl, rfl⟩, fun sendable => absurd (.inl empty) sendable⟩
  rename_i nonempty
  split
  · rename_i tooLong
    exact ⟨fun _ => ⟨rfl, rfl⟩, fun sendable => absurd (.inr tooLong) sendable⟩
  rename_i fits
  rw [free, room]
  have sendable : ¬ (data = [] ∨ espnowMaxPayload < data.length) := not_or.mpr ⟨nonempty, fits⟩
  refine ⟨fun bad => absurd bad sendable, fun _ => ?_⟩
  simp only [Bool.false_and, Bool.false_eq_true, if_false]
  split
  · rename_i refused
    have negative : (-1 : Int) < 0 := by decide
    exact ⟨⟨fun _ => refused, fun _ => negative⟩, rfl⟩
  · rename_i accepted
    exact ⟨⟨fun impossible => absurd impossible (lt_irrefl 0), fun refused => absurd refused accepted⟩,
      rfl⟩

/-- Under the invariant a slot in use holds a fragment. -/
theorem Wf.holdsFragment_eq {sr : SelectiveRepeat} (wf : sr.Wf) {index : Nat}
    (inWindow : index < sr.windowSize) :
    (sr.window index).holdsFragment = (sr.window index).sent := by
  cases sent : (sr.window index).sent with
  | false => simp [FragmentSlot.holdsFragment, sent]
  | true =>
      have held := wf.holds index (mem_occupied.mpr ⟨inWindow, sent⟩)
      have tagged : (sr.window index).seqTag ≠ noSeqTag := Nat.ne_of_lt held.tagged
      simp [FragmentSlot.holdsFragment, sent, held.nonempty, tagged]

theorem Wf.occupiedTags_eq {sr : SelectiveRepeat} (wf : sr.Wf) :
    sr.occupiedTags =
      ((List.range sr.windowSize).filter fun index => (sr.window index).sent).map
        fun index => (sr.window index).seqTag := by
  unfold occupiedTags
  rw [List.filter_map, List.map_map]
  congr 1
  apply List.filter_congr
  intro index inRange
  exact wf.holdsFragment_eq (List.mem_range.mp inRange)

theorem Wf.mem_occupiedTags {sr : SelectiveRepeat} (wf : sr.Wf) {seq : Nat} :
    seq ∈ sr.occupiedTags ↔ seq ∈ sr.pending := by
  rw [wf.occupiedTags_eq]
  simp [pending, occupied]

theorem Wf.nodup_occupiedTags {sr : SelectiveRepeat} (wf : sr.Wf) : sr.occupiedTags.Nodup := by
  rw [wf.occupiedTags_eq]
  apply List.Nodup.map_on _ (List.nodup_range.filter _)
  intro first firstIn second secondIn sameTag
  have inUse : ∀ {index}, index ∈ (List.range sr.windowSize).filter
      (fun index => (sr.window index).sent) → index ∈ sr.occupied := by
    intro index member
    rw [List.mem_filter, List.mem_range] at member
    exact mem_occupied.mpr member
  have firstHome := (wf.holds first (inUse firstIn)).indexed
  have secondHome := (wf.holds second (inUse secondIn)).indexed
  rw [← firstHome, ← secondHome]
  exact congrArg (· % sr.windowSize) sameTag

theorem Wf.length_occupiedTags {sr : SelectiveRepeat} (wf : sr.Wf) :
    sr.occupiedTags.length = sr.inFlight := by
  rw [← wf.card_pending, ← List.toFinset_card_of_nodup wf.nodup_occupiedTags]
  congr 1
  ext seq
  rw [List.mem_toFinset, wf.mem_occupiedTags]

/-- A snapshot with room for the whole window lists the pending sequence numbers,
each once. -/
theorem Wf.snapshot_perm {sr : SelectiveRepeat} (wf : sr.Wf) {max : Nat}
    (room : sr.windowSize ≤ max) :
    (sr.snapshotPendingSequences max).Perm sr.occupiedTags := by
  unfold snapshotPendingSequences
  rw [List.take_of_length_le (by
    rw [wf.length_occupiedTags]
    exact wf.inFlight_le.trans room)]
  exact List.perm_insertionSort _ _

/-! ## Surroundings -/

/-- `later` is a relation along which every call of a window moves the radio. -/
structure Respects (later : σ → σ → Prop) : Prop where
  refl : ∀ io, later io io
  trans : ∀ {first second third}, later first second → later second third → later first third
  nowMs : ∀ io, later io (radio.nowMs io).2
  send : ∀ io dst seq data, later io (radio.send io dst .data seq data).2

variable {radio} {later : σ → σ → Prop}

theorem Respects.sendFragment (respects : Respects radio later) (io : σ) (sr : SelectiveRepeat)
    (seq : Nat) (data : List UInt8) :
    later io (SelectiveRepeat.sendFragment radio io sr seq data).2.2 := by
  have transmitted := respects.trans (respects.nowMs io)
    (respects.send (radio.nowMs io).2 sr.peerAddr seq data)
  unfold SelectiveRepeat.sendFragment
  dsimp only
  split
  · exact respects.refl io
  split
  · exact respects.refl io
  split
  · exact respects.refl io
  split
  · exact respects.refl io
  split
  · exact respects.refl io
  split <;> exact transmitted

theorem Respects.handleAck (respects : Respects radio later) (io : σ) (sr : SelectiveRepeat)
    (seq : Nat) : later io (SelectiveRepeat.handleAck radio io sr seq).2 := by
  unfold SelectiveRepeat.handleAck
  dsimp only
  split
  · exact respects.refl io
  split
  · exact respects.nowMs io
  · exact respects.refl io

theorem Respects.handleNack (respects : Respects radio later) (io : σ) (sr : SelectiveRepeat)
    (seq : Nat) : later io (SelectiveRepeat.handleNack radio io sr seq).2 := by
  have transmitted := respects.trans (respects.nowMs io)
    (respects.send (radio.nowMs io).2 sr.peerAddr seq (sr.slotOf seq).data)
  unfold SelectiveRepeat.handleNack
  dsimp only
  split
  · exact respects.refl io
  split
  · exact respects.refl io
  split
  · exact transmitted
  split
  · exact transmitted
  split <;> exact transmitted

theorem Respects.tickSlots (respects : Respects radio later) (now maxSends : Nat)
    (indices : List Nat) (io : σ) (sr : SelectiveRepeat) (sentCount : Nat) :
    later io (SelectiveRepeat.tickSlots radio now maxSends indices io sr sentCount).2.2 := by
  induction indices generalizing io sr sentCount with
  | nil => exact respects.refl io
  | cons index rest inductionHypothesis =>
      have transmitted := respects.send io sr.peerAddr (sr.window index).seqTag
        (sr.window index).data
      unfold SelectiveRepeat.tickSlots
      dsimp only
      split
      · exact inductionHypothesis io sr sentCount
      split
      · exact inductionHypothesis io sr sentCount
      split
      · exact inductionHypothesis io sr sentCount
      split
      · exact respects.refl io
      split
      · exact transmitted
      split
      · exact transmitted
      · exact respects.trans transmitted (inductionHypothesis _ _ _)

theorem Respects.tick (respects : Respects radio later) (io : σ) (sr : SelectiveRepeat)
    (maxSends : Nat) : later io (SelectiveRepeat.tick radio io sr maxSends).2.2 :=
  respects.trans (respects.nowMs io) (respects.tickSlots _ _ _ _ _ _)

end Operations

end ForestLink.Protocol.SelectiveRepeat
