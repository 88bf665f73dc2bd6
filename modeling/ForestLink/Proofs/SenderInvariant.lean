/-
Module: ForestLink.Proofs.SenderInvariant
Purpose: What every call leaves true of a sender window: its counters, its bounds and the
  bytes of its fragments.
Trusted boundary: none
Main exports: SendOutcome, NackOutcome, TickOutcome, Based, Sender.Sound, sender_window_invariant
-/
import Mathlib.Order.Bounds.Basic
import ForestLink.Proofs.SenderWindow
import ForestLink.Protocol.SenderRuns

namespace ForestLink.Protocol

namespace SelectiveRepeat

variable {σ : Type} {radio : Radio σ}

/-! ## What a call can do -/

/-- The window with a new fragment. -/
def placed (sr : SelectiveRepeat) (seq : Nat) (data : List UInt8) (now : Nat) :
    SelectiveRepeat :=
  { sr.setSlot (sr.slotIndex seq)
      { data := data, sendTimeMs := now, seqTag := seq, sent := true } with
    inFlight := sr.inFlight + 1
    nextSeq := if seq ≥ sr.nextSeq then (seq + 1) % 2 ^ 16 else sr.nextSeq }

/-- The window with the slot of a sequence number emptied. -/
def vacated (sr : SelectiveRepeat) (seq : Nat) : SelectiveRepeat :=
  sr.setSlot (sr.slotIndex seq) {}

/-- The results that `send_fragment` can have. -/
inductive SendOutcome (radio : Radio σ) (io : σ) (sr : SelectiveRepeat) (seq : Nat)
    (data : List UInt8) : Int × SelectiveRepeat × σ → Prop
  | duplicate (sent : (sr.slotOf seq).sent = true) (tag : (sr.slotOf seq).seqTag = seq) :
      SendOutcome radio io sr seq data (0, sr, io)
  | refused : SendOutcome radio io sr seq data (-1, sr, io)
  | failed (free : (sr.slotOf seq).sent = false)
      (negative : (radio.send (radio.nowMs io).2 sr.peerAddr .data seq data).1 < 0) :
      SendOutcome radio io sr seq data
        (-1, (sr.vacated seq).recomputeSenderBounds,
          (radio.send (radio.nowMs io).2 sr.peerAddr .data seq data).2)
  | placed (free : (sr.slotOf seq).sent = false) (nonempty : data ≠ [])
      (accepted : 0 ≤ (radio.send (radio.nowMs io).2 sr.peerAddr .data seq data).1) :
      SendOutcome radio io sr seq data
        (0, (sr.placed seq data (radio.nowMs io).1).recomputeSenderBounds,
          (radio.send (radio.nowMs io).2 sr.peerAddr .data seq data).2)

theorem sendFragment_outcome (radio : Radio σ) (io : σ) (sr : SelectiveRepeat) (seq : Nat)
    (data : List UInt8) :
    SendOutcome radio io sr seq data (sendFragment radio io sr seq data) := by
  unfold sendFragment
  dsimp only
  split
  · exact .refused
  rename_i nonempty
  split
  · exact .refused
  split
  · rename_i duplicate
    rw [Bool.and_eq_true, beq_iff_eq] at duplicate
    exact .duplicate duplicate.1 duplicate.2
  split
  · exact .refused
  rename_i notSent
  have free : (sr.slotOf seq).sent = false := by simpa using notSent
  split
  · exact .refused
  split
  · rename_i negative
    -- The slot is emptied behind the fragment and the counter taken back.
    have undone : { (sr.placed seq data (radio.nowMs io).1).setSlot (sr.slotIndex seq) {} with
        nextSeq := sr.nextSeq
        inFlight := sr.inFlight + 1 - 1 } = sr.vacated seq := by
      simp [SelectiveRepeat.placed, vacated, setSlot]
    have outcome : SendOutcome radio io sr seq data _ := .failed free negative
    rw [← undone] at outcome
    exact outcome
  · rename_i accepted
    exact .placed free nonempty (Int.not_lt.mp accepted)

/-- An ACK is taken for this slot. -/
def acknowledges (sr : SelectiveRepeat) (seq : Nat) : Bool :=
  (sr.slotOf seq).sent && (sr.slotOf seq).seqTag == seq && !(sr.slotOf seq).data.isEmpty

theorem sent_of_acknowledges {sr : SelectiveRepeat} {seq : Nat}
    (active : sr.acknowledges seq = true) : (sr.slotOf seq).sent = true := by
  simp only [acknowledges, Bool.and_eq_true] at active
  exact active.1.1

/-- The results that `handle_nack` can have. -/
inductive NackOutcome (radio : Radio σ) (io : σ) (sr : SelectiveRepeat) (seq : Nat) :
    SelectiveRepeat × σ → Prop
  | ignored : NackOutcome radio io sr seq (sr, io)
  | putOff (active : sr.acknowledges seq = true)
      (busy : (radio.send (radio.nowMs io).2 sr.peerAddr .data seq (sr.slotOf seq).data).1 =
        sendBackpressure) :
      NackOutcome radio io sr seq
        (sr.setSlot (sr.slotIndex seq)
            { sr.slotOf seq with
              sendTimeMs := (radio.nowMs io).1
              retries := (sr.slotOf seq).retries },
          (radio.send (radio.nowMs io).2 sr.peerAddr .data seq (sr.slotOf seq).data).2)
  | failed (active : sr.acknowledges seq = true)
      (negative : (radio.send (radio.nowMs io).2 sr.peerAddr .data seq
        (sr.slotOf seq).data).1 < 0) :
      NackOutcome radio io sr seq
        (sr, (radio.send (radio.nowMs io).2 sr.peerAddr .data seq (sr.slotOf seq).data).2)
  | resent (active : sr.acknowledges seq = true)
      (accepted : 0 ≤ (radio.send (radio.nowMs io).2 sr.peerAddr .data seq
        (sr.slotOf seq).data).1)
      (time : Nat) (failed : Bool) :
      NackOutcome radio io sr seq
        ({ sr.setSlot (sr.slotIndex seq)
            { sr.slotOf seq with
              sendTimeMs := time
              retries := ((sr.slotOf seq).retries + 1) % 2 ^ 8 } with
            senderFailed := failed },
          (radio.send (radio.nowMs io).2 sr.peerAddr .data seq (sr.slotOf seq).data).2)

theorem handleNack_outcome (radio : Radio σ) (io : σ) (sr : SelectiveRepeat) (seq : Nat) :
    NackOutcome radio io sr seq (handleNack radio io sr seq) := by
  unfold SelectiveRepeat.handleNack
  dsimp only
  split
  · exact .ignored
  rename_i guard
  have active : sr.acknowledges seq = true := by simpa [acknowledges] using guard
  split
  · exact .ignored
  split
  · rename_i busy
    exact .putOff active busy
  split
  · rename_i negative
    exact .failed active negative
  rename_i accepted
  split
  · exact .resent active (Int.not_lt.mp accepted) _ _
  · exact .resent active (Int.not_lt.mp accepted) _ sr.senderFailed

/-- What a tick does at a slot, with the rest of the slots behind it. -/
inductive TickOutcome (radio : Radio σ) (now maxSends index : Nat) (rest : List Nat) (io : σ)
    (sr : SelectiveRepeat) (sentCount : Nat) : Nat × SelectiveRepeat × σ → Prop
  | skipped :
      TickOutcome radio now maxSends index rest io sr sentCount
        (tickSlots radio now maxSends rest io sr sentCount)
  | spent : TickOutcome radio now maxSends index rest io sr sentCount (sentCount, sr, io)
  | putOff (sent : (sr.window index).sent = true)
      (busy : (radio.send io sr.peerAddr .data (sr.window index).seqTag
        (sr.window index).data).1 = sendBackpressure) :
      TickOutcome radio now maxSends index rest io sr sentCount
        (sentCount,
          sr.setSlot index
            { sr.window index with
              sendTimeMs := now
              retries := (sr.window index).retries },
          (radio.send io sr.peerAddr .data (sr.window index).seqTag (sr.window index).data).2)
  | failed (sent : (sr.window index).sent = true)
      (negative : (radio.send io sr.peerAddr .data (sr.window index).seqTag
        (sr.window index).data).1 < 0) :
      TickOutcome radio now maxSends index rest io sr sentCount
        (sentCount, sr,
          (radio.send io sr.peerAddr .data (sr.window index).seqTag (sr.window index).data).2)
  | resent (sent : (sr.window index).sent = true)
      (more : (sr.window index).retries < maxRetries)
      (accepted : 0 ≤ (radio.send io sr.peerAddr .data (sr.window index).seqTag
        (sr.window index).data).1) :
      TickOutcome radio now maxSends index rest io sr sentCount
        (tickSlots radio now maxSends rest
          (radio.send io sr.peerAddr .data (sr.window index).seqTag (sr.window index).data).2
          (sr.setSlot index
            { sr.window index with
              sendTimeMs := now
              retries := ((sr.window index).retries + 1) % 2 ^ 8 })
          (sentCount + 1))

theorem tickSlots_outcome (radio : Radio σ) (now maxSends index : Nat) (rest : List Nat) (io : σ)
    (sr : SelectiveRepeat) (sentCount : Nat) :
    TickOutcome radio now maxSends index rest io sr sentCount
      (tickSlots radio now maxSends (index :: rest) io sr sentCount) := by
  rw [tickSlots]
  dsimp only
  split
  · exact .skipped
  rename_i holds
  have sent : (sr.window index).sent = true := by
    simp only [FragmentSlot.holdsFragment, Bool.or_eq_true, Bool.not_eq_true', not_or,
      Bool.not_eq_false, Bool.and_eq_true] at holds
    exact holds.1.1.1
  split
  · exact .skipped
  split
  · exact .skipped
  rename_i more
  split
  · exact .spent
  split
  · rename_i busy
    exact .putOff sent busy
  split
  · rename_i negative
    exact .failed sent negative
  · rename_i accepted
    exact .resent sent (Nat.lt_of_not_le more) (Int.not_lt.mp accepted)

/-- The round-trip sample that `handle_ack` takes. -/
def rttSample (radio : Radio σ) (io : σ) (sr : SelectiveRepeat) (seq : Nat) : Option Nat :=
  if sr.acknowledges seq && !(sr.slotOf seq).acked && (sr.slotOf seq).retries == 0 then
    some (sub32 (radio.nowMs io).1 (sr.slotOf seq).sendTimeMs)
  else none

/-- The window with the sample taken in. -/
def sampled (radio : Radio σ) (io : σ) (sr : SelectiveRepeat) (seq : Nat) : SelectiveRepeat :=
  match sr.rttSample radio io seq with
  | none => sr
  | some rtt => sr.updateRto rtt

theorem sampled_eq (radio : Radio σ) (io : σ) (sr : SelectiveRepeat) (seq : Nat) :
    ∃ srtt rttvar rto initialized, sr.sampled radio io seq =
      { sr with
        srttMs := srtt
        rttvarMs := rttvar
        rtoMs := rto
        rttInitialized := initialized } := by
  unfold sampled
  split <;> exact ⟨_, _, _, _, rfl⟩

/-- `handle_ack` in one piece. -/
theorem handleAck_eq (radio : Radio σ) (io : σ) (sr : SelectiveRepeat) (seq : Nat) :
    (handleAck radio io sr seq).1 =
      if sr.acknowledges seq then
        { (sr.sampled radio io seq).vacated seq with
          inFlight := if (sr.slotOf seq).acked then sr.inFlight else sr.inFlight - 1
          }.recomputeSenderBounds
      else sr := by
  have guard : (!(sr.slotOf seq).sent || (sr.slotOf seq).seqTag != seq ||
      (sr.slotOf seq).data.isEmpty) = !sr.acknowledges seq := by
    simp [acknowledges, bne]
  unfold handleAck
  dsimp only
  rw [guard]
  cases active : sr.acknowledges seq with
  | false => rfl
  | true =>
      have sent := sent_of_acknowledges active
      unfold sampled rttSample
      rw [active, sent]
      cases (sr.slotOf seq).acked <;> cases (sr.slotOf seq).retries == 0 <;> rfl

/-- A NACK changes slots and the failure flag only. -/
theorem handleNack_shape (radio : Radio σ) (io : σ) (sr : SelectiveRepeat) (seq : Nat) :
    ∃ window failed, (handleNack radio io sr seq).1 =
      { sr with window := window, senderFailed := failed } := by
  have outcome := handleNack_outcome radio io sr seq
  generalize handleNack radio io sr seq = result at outcome ⊢
  cases outcome <;> exact ⟨_, _, rfl⟩

/-- A tick changes slots only. -/
theorem tickSlots_shape (radio : Radio σ) (now maxSends : Nat) (indices : List Nat) (io : σ)
    (sr : SelectiveRepeat) (sentCount : Nat) :
    ∃ window, (tickSlots radio now maxSends indices io sr sentCount).2.1 =
      { sr with window := window } := by
  induction indices generalizing io sr sentCount with
  | nil => exact ⟨_, rfl⟩
  | cons index rest inductionHypothesis =>
      have outcome := tickSlots_outcome radio now maxSends index rest io sr sentCount
      generalize tickSlots radio now maxSends (index :: rest) io sr sentCount = result
        at outcome ⊢
      cases outcome with
      | skipped => exact inductionHypothesis io sr sentCount
      | spent => exact ⟨_, rfl⟩
      | putOff => exact ⟨_, rfl⟩
      | failed => exact ⟨_, rfl⟩
      | resent =>
          obtain ⟨window, shape⟩ := inductionHypothesis
            (radio.send io sr.peerAddr .data (sr.window index).seqTag (sr.window index).data).2
            (sr.setSlot index
              { sr.window index with
                sendTimeMs := now
                retries := ((sr.window index).retries + 1) % 2 ^ 8 }) (sentCount + 1)
          exact ⟨window, shape⟩

/-! ## The bounds -/

theorem Wf.of_recompute {sr : SelectiveRepeat} (wf : sr.recomputeSenderBounds.Wf) : sr.Wf :=
  ⟨wf.sized, wf.holds, wf.counted⟩

/-- The base is the least pending sequence number, or the next one when none is pending. -/
structure Based (sr : SelectiveRepeat) : Prop where
  idle : sr.pending = ∅ → sr.baseSeq = sr.nextSeq
  least : sr.pending ≠ ∅ → IsLeast (sr.pending : Set Nat) sr.baseSeq

variable {sr after : SelectiveRepeat}

theorem Based.congr (based : sr.Based) (pending : after.pending = sr.pending)
    (base : after.baseSeq = sr.baseSeq) (next : after.nextSeq = sr.nextSeq) : after.Based where
  idle none := by rw [base, next, based.idle (pending ▸ none)]
  least some := by
    rw [base, pending]
    exact based.least (pending ▸ some)

theorem Based.unique (based : sr.Based) (other : after.Based)
    (pending : after.pending = sr.pending) (next : after.nextSeq = sr.nextSeq) :
    after.baseSeq = sr.baseSeq := by
  by_cases none : sr.pending = ∅
  · rw [based.idle none, other.idle (pending.trans none), next]
  · have least := other.least (pending ▸ none)
    rw [pending] at least
    exact least.unique (based.least none)

theorem based_recompute (wf : sr.Wf) : sr.recomputeSenderBounds.Based where
  idle none := by
    have empty : sr.occupiedTags = [] := by
      apply List.eq_nil_iff_forall_not_mem.mpr
      intro seq member
      have pending : seq ∈ sr.pending := wf.mem_occupiedTags.mp member
      rw [show sr.pending = ∅ from none] at pending
      exact Finset.notMem_empty _ pending
    simp [recomputeSenderBounds, empty]
  least some := by
    obtain ⟨seq, member⟩ := Finset.nonempty_iff_ne_empty.mpr some
    have tags : sr.occupiedTags ≠ [] := List.ne_nil_of_mem (wf.mem_occupiedTags.mpr member)
    obtain ⟨least, found⟩ := Option.isSome_iff_exists.mp (List.isSome_min?_of_ne_nil tags)
    obtain ⟨here, below⟩ := List.min?_eq_some_iff.mp found
    have base : sr.recomputeSenderBounds.baseSeq = least := by
      simp [recomputeSenderBounds, found]
    rw [base]
    exact ⟨wf.mem_occupiedTags.mp here, fun other pending =>
      below other (wf.mem_occupiedTags.mpr pending)⟩

/-! ## The bytes of the fragments -/

/-- Every slot in use holds the recorded bytes of its sequence number. -/
def Genuine (made : Nat → List UInt8) (sr : SelectiveRepeat) : Prop :=
  ∀ index ∈ sr.occupied, (sr.window index).data = made (sr.window index).seqTag

variable {made other : Nat → List UInt8}

theorem tag_mem_pending {index : Nat} (inUse : index ∈ sr.occupied) :
    (sr.window index).seqTag ∈ sr.pending :=
  Finset.mem_image_of_mem _ inUse

/-- Only the records of pending fragments matter. -/
theorem Genuine.rerecord (genuine : sr.Genuine made)
    (same : ∀ seq ∈ sr.pending, other seq = made seq) : sr.Genuine other := by
  intro index inUse
  rw [same _ (tag_mem_pending inUse)]
  exact genuine index inUse

theorem Genuine.sameFragments (genuine : sr.Genuine made) (same : SameFragments sr after) :
    after.Genuine made := by
  intro index inUse
  rw [same.occupied] at inUse
  rw [same.data, same.seqTag]
  exact genuine index inUse

theorem Genuine.vacate (genuine : sr.Genuine made) {seq : Nat}
    (window : after.window = (sr.vacated seq).window)
    (windowSize : after.windowSize = sr.windowSize) : after.Genuine made := by
  intro index inUse
  obtain ⟨inside, sent⟩ := mem_occupied.mp inUse
  by_cases home : index = sr.slotIndex seq
  · rw [window, home] at sent
    simp [vacated, setSlot] at sent
  · have kept := window_setSlot_of_ne window home
    rw [kept] at sent ⊢
    exact genuine index (mem_occupied.mpr ⟨windowSize ▸ inside, sent⟩)

theorem Genuine.place (genuine : sr.Genuine made) {seq now : Nat} :
    (sr.placed seq (made seq) now).Genuine made := by
  intro index inUse
  obtain ⟨inside, sent⟩ := mem_occupied.mp inUse
  by_cases home : index = sr.slotIndex seq
  · simp [placed, setSlot, home]
  · have kept := window_setSlot_of_ne (rfl : (sr.placed seq (made seq) now).window = _) home
    rw [kept] at sent ⊢
    exact genuine index (mem_occupied.mpr ⟨inside, sent⟩)

end SelectiveRepeat

/-! ## Runs -/

namespace Sender

open SelectiveRepeat

variable {σ : Type} {radio : Radio σ} {s : Sender σ}

/-- What every call keeps. -/
structure Sound (s : Sender σ) : Prop where
  wf : s.sr.Wf
  based : s.sr.Based
  genuine : s.sr.Genuine s.made

theorem sound_init (io : σ) {windowSize : Nat} (positive : 1 ≤ windowSize)
    (timeoutMs minRtoFloorMs peerAddr : Nat) :
    (init io windowSize timeoutMs minRtoFloorMs peerAddr).Sound where
  wf :=
    { sized := Nat.lt_min.mpr ⟨positive, by decide⟩
      holds := by simp [init, occupied]
      counted := by simp [init, occupied] }
  based :=
    { idle := fun _ => rfl
      least := fun some => absurd (by simp [init, pending, occupied]) some }
  genuine index inUse := by simp [init, occupied] at inUse

/-- A call never rewrites the record of a fragment that is pending before it. -/
theorem made_of_pending (sound : s.Sound) (seq : Nat) (data : List UInt8) {tag : Nat}
    (pending : tag ∈ s.sr.pending) :
    (s.step radio (.sendFragment seq data)).made tag = s.made tag := by
  have contains := (containsSequence_iff sound.wf).mpr pending
  simp [step, restarts, contains]

theorem made_of_new (sound : s.Sound) {seq : Nat} (data : List UInt8)
    (absent : seq ∉ s.sr.pending) :
    (s.step radio (.sendFragment seq data)).made seq = data := by
  have missing : s.sr.containsSequence seq = false := by
    rw [← Bool.not_eq_true, containsSequence_iff sound.wf]
    exact absent
  simp [step, restarts, missing, madeBy]

/-- The sequence number of a free slot is not pending. -/
theorem not_pending_of_free (sound : s.Sound) {seq : Nat}
    (free : (s.sr.slotOf seq).sent = false) : seq ∉ s.sr.pending := by
  intro pending
  have sent := (sound.wf.mem_pending.mp pending).1
  rw [free] at sent
  contradiction

theorem Sound.sendFragment (sound : s.Sound) {seq : Nat} (small : seq < noSeqTag)
    (data : List UInt8) : (s.step radio (.sendFragment seq data)).Sound := by
  have kept : s.sr.Genuine (s.step radio (.sendFragment seq data)).made :=
    sound.genuine.rerecord fun _ => made_of_pending sound seq data
  have wf := (sendFragment_spec radio.recorded sound.wf (s.io, []) small data).1
  have outcome := sendFragment_outcome radio.recorded (s.io, []) s.sr seq data
  have made := @made_of_new _ radio _ sound seq data
  refine ⟨wf, ?_, ?_⟩
  all_goals
    generalize (s.step radio (.sendFragment seq data)).made = record at kept made
    simp only [step, call]
    generalize SelectiveRepeat.sendFragment radio.recorded (s.io, []) s.sr seq data = result
      at wf outcome
    cases outcome
  case refine_1.duplicate => exact sound.based
  case refine_1.refused => exact sound.based
  case refine_1.failed => exact based_recompute (Wf.of_recompute wf)
  case refine_1.placed => exact based_recompute (Wf.of_recompute wf)
  case refine_2.duplicate => exact kept
  case refine_2.refused => exact kept
  case refine_2.failed => exact kept.vacate rfl rfl
  case refine_2.placed free _ _ =>
    rw [← made (not_pending_of_free sound free)]
    exact kept.place

theorem Sound.handleAck (sound : s.Sound) (seq : Nat) :
    (s.step radio (.handleAck seq)).Sound := by
  have wf := (handleAck_spec radio.recorded sound.wf (s.io, []) seq).1
  have shape := handleAck_eq radio.recorded (s.io, []) s.sr seq
  obtain ⟨srtt, rttvar, rto, initialized, sampledEq⟩ :=
    sampled_eq radio.recorded (s.io, []) s.sr seq
  have record : (s.step radio (.handleAck seq)).made = s.made := by simp [step, restarts]
  refine ⟨wf, ?_, record ▸ ?_⟩
  all_goals
    simp only [step, call]
    rw [shape] at wf ⊢
    cases active : s.sr.acknowledges seq
    all_goals simp only [active, Bool.false_eq_true, ↓reduceIte] at wf ⊢
  · exact sound.based
  · exact based_recompute (Wf.of_recompute wf)
  · exact sound.genuine
  · rw [sampledEq]
    exact sound.genuine.vacate rfl rfl

/-- A call that keeps the fragments and the bounds. -/
theorem Sound.passive (sound : s.Sound) {after : Sender σ} (same : SameFragments s.sr after.sr)
    (bounds : after.sr.baseSeq = s.sr.baseSeq ∧ after.sr.nextSeq = s.sr.nextSeq)
    (record : after.made = s.made) : after.Sound where
  wf := same.wf sound.wf
  based := sound.based.congr same.pending bounds.1 bounds.2
  genuine := record ▸ sound.genuine.sameFragments same

theorem Sound.resetSender (sound : s.Sound) : (s.step radio .resetSender).Sound where
  wf := wf_resetSender sound.wf.sized
  based :=
    { idle := fun _ => rfl
      least := fun some => absurd (pending_resetSender s.sr) some }
  genuine index inUse := by simp [step, call, SelectiveRepeat.resetSender, occupied] at inUse

end Sender

/-- The sequence number of the call, if it names one, is below the tag of a free slot. -/
def SenderCall.Small : SenderCall → Prop
  | .sendFragment seq _ => seq < noSeqTag
  | .handleAck seq => seq < noSeqTag
  | .handleNack seq => seq < noSeqTag
  | .tick _ => True
  | .resetSender => True

namespace Sender

open SelectiveRepeat

variable {σ : Type} {radio : Radio σ} {s : Sender σ}

theorem Sound.step (sound : s.Sound) {c : SenderCall} (small : c.Small) :
    (s.step radio c).Sound := by
  cases c with
  | sendFragment seq data => exact sound.sendFragment small data
  | handleAck seq => exact sound.handleAck seq
  | handleNack seq =>
      obtain ⟨window, failed, shape⟩ := handleNack_shape radio.recorded (s.io, []) s.sr seq
      exact sound.passive (handleNack_sameFragments radio.recorded (s.io, []) s.sr seq)
        (by simp [Sender.step, call, shape]) (by simp [Sender.step, restarts])
  | tick maxSends =>
      obtain ⟨window, shape⟩ := tickSlots_shape radio.recorded
        (radio.recorded.nowMs (s.io, [])).1 maxSends (List.range s.sr.windowSize)
        (radio.recorded.nowMs (s.io, [])).2 s.sr 0
      exact sound.passive (tick_sameFragments radio.recorded (s.io, []) s.sr maxSends)
        (by simp [Sender.step, call, tick, shape]) (by simp [Sender.step, restarts])
  | resetSender => exact sound.resetSender

theorem Sound.run (sound : s.Sound) {calls : List SenderCall} (small : ∀ c ∈ calls, c.Small) :
    (s.run radio calls).Sound := by
  induction calls generalizing s with
  | nil => exact sound
  | cons c rest inductionHypothesis =>
      exact inductionHypothesis (sound.step (small c List.mem_cons_self))
        fun later member => small later (List.mem_cons_of_mem _ member)

theorem windowSize_step (sound : s.Sound) {c : SenderCall} (small : c.Small) :
    (s.step radio c).sr.windowSize = s.sr.windowSize := by
  cases c with
  | sendFragment seq data =>
      exact (sendFragment_spec radio.recorded sound.wf (s.io, []) small data).2.1
  | handleAck seq => exact (handleAck_spec radio.recorded sound.wf (s.io, []) seq).2.1
  | handleNack seq =>
      exact (handleNack_sameFragments radio.recorded (s.io, []) s.sr seq).windowSize
  | tick maxSends => exact (tick_sameFragments radio.recorded (s.io, []) s.sr maxSends).windowSize
  | resetSender => rfl

theorem windowSize_run (sound : s.Sound) {calls : List SenderCall}
    (small : ∀ c ∈ calls, c.Small) : (s.run radio calls).sr.windowSize = s.sr.windowSize := by
  induction calls generalizing s with
  | nil => rfl
  | cons c rest inductionHypothesis =>
      have first := small c List.mem_cons_self
      exact (inductionHypothesis (sound.step first) fun later member =>
        small later (List.mem_cons_of_mem _ member)).trans (windowSize_step sound first)

/-! ## Answers in a sound state -/

/-- A refused fragment leaves the window's fragments, bounds and counter. -/
theorem Sound.refused (sound : s.Sound) {seq : Nat} (small : seq < noSeqTag) (data : List UInt8) :
    let sent := SelectiveRepeat.sendFragment radio s.io s.sr seq data
    sent.1 = -1 → sent.2.1.pending = s.sr.pending ∧ sent.2.1.baseSeq = s.sr.baseSeq ∧
      sent.2.1.nextSeq = s.sr.nextSeq ∧ sent.2.1.inFlight = s.sr.inFlight := by
  obtain ⟨wf, -, pending⟩ := sendFragment_spec radio sound.wf s.io small data
  have outcome := sendFragment_outcome radio s.io s.sr seq data
  dsimp only at wf pending ⊢
  intro refused
  have kept : (SelectiveRepeat.sendFragment radio s.io s.sr seq data).2.1.pending =
      s.sr.pending := by
    rcases pending with ⟨accepted, -⟩ | ⟨-, same⟩
    · rw [accepted] at refused
      contradiction
    · exact same
  generalize SelectiveRepeat.sendFragment radio s.io s.sr seq data = result
    at wf outcome refused kept ⊢
  cases outcome with
  | duplicate => contradiction
  | refused => exact ⟨rfl, rfl, rfl, rfl⟩
  | failed => exact ⟨kept, sound.based.unique (based_recompute (Wf.of_recompute wf)) kept rfl,
      rfl, rfl⟩
  | placed => contradiction

/-- An ACK without a pending fragment changes nothing. -/
theorem Sound.ignored (sound : s.Sound) {seq : Nat} (absent : seq ∉ s.sr.pending) :
    SelectiveRepeat.handleAck radio s.io s.sr seq = (s.sr, s.io) := by
  have missing : s.sr.containsSequence seq = false := by
    rw [← Bool.not_eq_true, containsSequence_iff sound.wf]
    exact absent
  rw [containsSequence, if_neg (Nat.pos_iff_ne_zero.mp sound.wf.sized)] at missing
  have guard : (!(s.sr.slotOf seq).sent || (s.sr.slotOf seq).seqTag != seq ||
      (s.sr.slotOf seq).data.isEmpty) = true := by
    rw [← Bool.not_eq_false', ← missing]
    simp [bne]
  simp [SelectiveRepeat.handleAck, guard]

/-- A snapshot with room lists the pending sequence numbers in ascending order. -/
theorem Sound.snapshot (sound : s.Sound) {max : Nat} (room : s.sr.inFlight ≤ max) :
    (s.sr.snapshotPendingSequences max).Pairwise (· < ·) ∧
      ∀ seq, seq ∈ s.sr.snapshotPendingSequences max ↔ seq ∈ s.sr.pending := by
  have whole : s.sr.occupiedTags.take max = s.sr.occupiedTags :=
    List.take_of_length_le (sound.wf.length_occupiedTags ▸ room)
  have perm : (s.sr.snapshotPendingSequences max).Perm s.sr.occupiedTags := by
    rw [snapshotPendingSequences, whole]
    exact List.perm_insertionSort _ _
  constructor
  · have sorted : (s.sr.snapshotPendingSequences max).Pairwise (· ≤ ·) :=
      List.pairwise_insertionSort _ _
    have distinct : (s.sr.snapshotPendingSequences max).Nodup :=
      perm.nodup_iff.mpr sound.wf.nodup_occupiedTags
    exact sorted.imp₂ (fun _ _ below different => Nat.lt_of_le_of_ne below different) distinct
  · intro seq
    rw [perm.mem_iff, sound.wf.mem_occupiedTags]

end Sender

/-- After any calls on a window of 1 to 64 slots: the counter counts the slots in use; each
holds, at its own index, a different sequence number and the bytes of the call that made it
pending; the base is the least of them or the next one; a snapshot lists them in order; a
refused fragment and an ACK of none of them change nothing of this. -/
theorem sender_window_invariant {σ : Type} (radio : Radio σ) (io : σ) {windowSize : Nat}
    (positive : 1 ≤ windowSize) (atMost : windowSize ≤ arqWindow)
    (timeoutMs minRtoFloorMs peerAddr : Nat) (calls : List SenderCall)
    (small : ∀ c ∈ calls, c.Small) :
    let s := (Sender.init io windowSize timeoutMs minRtoFloorMs peerAddr).run radio calls
    (s.sr.windowSize = windowSize ∧ s.sr.inFlight = s.sr.occupied.card ∧
      s.sr.inFlight ≤ windowSize) ∧
    (∀ index < windowSize, (s.sr.window index).sent = true →
      (s.sr.window index).seqTag % windowSize = index ∧
        (s.sr.window index).data = s.made (s.sr.window index).seqTag ∧
        ∀ other < windowSize, (s.sr.window other).sent = true →
          (s.sr.window other).seqTag = (s.sr.window index).seqTag → other = index) ∧
    (s.sr.pending = ∅ → s.sr.baseSeq = s.sr.nextSeq) ∧
    (s.sr.pending ≠ ∅ → IsLeast (s.sr.pending : Set Nat) s.sr.baseSeq) ∧
    (∀ max, s.sr.inFlight ≤ max → (s.sr.snapshotPendingSequences max).Pairwise (· < ·) ∧
      ∀ seq, seq ∈ s.sr.snapshotPendingSequences max ↔ seq ∈ s.sr.pending) ∧
    (∀ seq < noSeqTag, ∀ data,
      let sent := SelectiveRepeat.sendFragment radio s.io s.sr seq data
      sent.1 = -1 → sent.2.1.pending = s.sr.pending ∧ sent.2.1.baseSeq = s.sr.baseSeq ∧
        sent.2.1.nextSeq = s.sr.nextSeq ∧ sent.2.1.inFlight = s.sr.inFlight) ∧
    (∀ seq ∉ s.sr.pending, SelectiveRepeat.handleAck radio s.io s.sr seq = (s.sr, s.io)) := by
  have start := Sender.sound_init io positive timeoutMs minRtoFloorMs peerAddr
  have sound : Sender.Sound ((Sender.init io windowSize timeoutMs minRtoFloorMs peerAddr).run radio
      calls) := start.run small
  have size : ((Sender.init io windowSize timeoutMs minRtoFloorMs peerAddr).run radio
      calls).sr.windowSize = windowSize :=
    (Sender.windowSize_run start small).trans (Nat.min_eq_left atMost)
  dsimp only
  generalize (Sender.init io windowSize timeoutMs minRtoFloorMs peerAddr).run radio calls = s
    at sound size ⊢
  have inUse : ∀ index < windowSize, (s.sr.window index).sent = true →
      index ∈ s.sr.occupied := fun index inside sent =>
    SelectiveRepeat.mem_occupied.mpr ⟨size ▸ inside, sent⟩
  refine ⟨⟨size, sound.wf.counted, size ▸ sound.wf.inFlight_le⟩, ?_, sound.based.idle,
    sound.based.least, fun max room => sound.snapshot room,
    fun seq below data => sound.refused below data, fun seq absent => sound.ignored absent⟩
  intro index inside sent
  have home := (sound.wf.holds index (inUse index inside sent)).indexed
  refine ⟨size ▸ home, sound.genuine index (inUse index inside sent), ?_⟩
  intro other otherInside otherSent sameTag
  have otherHome := (sound.wf.holds other (inUse other otherInside otherSent)).indexed
  rw [← home, ← otherHome, sameTag]

/-- Four slots: fragment 4 takes the slot of the acknowledged fragment 0. -/
theorem sender_window_four_slots :
    let s := (Sender.init ([], []) 4 3000 200 7).run Radio.scripted
      [.sendFragment 0 [1], .sendFragment 1 [2], .handleAck 0, .sendFragment 4 [3]]
    s.sr.pending = {1, 4} ∧ IsLeast (s.sr.pending : Set Nat) s.sr.baseSeq ∧
      (s.sr.window 0).data = s.made (s.sr.window 0).seqTag := by
  intro s
  have sound := sender_window_invariant Radio.scripted ([], []) (by decide : 1 ≤ 4) (by decide)
    3000 200 7 [.sendFragment 0 [1], .sendFragment 1 [2], .handleAck 0, .sendFragment 4 [3]]
    (by simp [SenderCall.Small, noSeqTag])
  have pending : s.sr.pending = {1, 4} := by decide +kernel
  refine ⟨pending, sound.2.2.2.1 ?_, (sound.2.1 0 (by decide) (by decide +kernel)).2.1⟩
  exact pending ▸ Finset.insert_ne_empty _ _

end ForestLink.Protocol
