/-
Module: ForestLink.Proofs.ReceiverPointer
Purpose: When the cumulative pointer of the receiver, which finds its bits through an 8-bit
  byte index, names the first missing fragment, and what its NACKs name.
Trusted boundary: none
Main exports: Receiver.PointerExact, Receiver.Overrun, Receiver.Pointed, pointer_exact_iff
-/
import Mathlib.Order.Bounds.Basic
import ForestLink.Proofs.ReceiverIntegrity

namespace ForestLink.Protocol

open ForestLink.Lib

namespace Receiver

variable {r after : Receiver}

/-- `expected_seq_` is the least sequence number that is not marked, or the number of
fragments. -/
def PointerExact (r : Receiver) : Prop :=
  IsLeast {seq | seq = r.totalFragments ∨
    seq < r.totalFragments ∧ ¬ r.recvBitmap.Marked seq} r.expectedSeq

/-- The bits that a byte index of 8 bits reaches are all set. -/
def LowFull (r : Receiver) : Prop := ∀ seq < 2048, r.recvBitmap.Marked seq

/-- The low bits are all set and a later fragment is missing. -/
def Overrun (r : Receiver) : Prop :=
  r.LowFull ∧ ∃ seq < r.totalFragments, ¬ r.recvBitmap.Marked seq

/-- Unless the low bits are all set everything below the pointer is marked. -/
def Pointed (r : Receiver) : Prop :=
  ¬ r.LowFull → ∀ seq < r.expectedSeq, r.recvBitmap.Marked seq

theorem narrowBit_eq (seq : Nat) : narrowBit seq = seq % 2048 := by
  unfold narrowBit
  omega

theorem LowFull.flagged (full : r.LowFull) (seq : Nat) : r.Flagged seq :=
  full _ (narrowBit_lt seq)

theorem flagged_iff {seq : Nat} (small : seq < 2048) :
    r.Flagged seq ↔ r.recvBitmap.Marked seq := by
  rw [Flagged, narrowBit_of_lt small]

/-- While a low bit is clear the pointer does not pass it, and reads its own bits. -/
theorem Advanced.marked (pointed : r.Pointed) (open_ : ¬ r.LowFull) {pointer : Nat}
    (advanced : r.Advanced pointer) :
    (∀ seq < pointer, r.recvBitmap.Marked seq) ∧
      (pointer < r.totalFragments → ¬ r.recvBitmap.Marked pointer) := by
  obtain ⟨clear, small, unmarked⟩ : ∃ seq < 2048, ¬ r.recvBitmap.Marked seq := by
    simpa [LowFull] using open_
  have below := pointed open_
  have stops : pointer ≤ clear := by
    by_contra passed
    rcases Nat.lt_or_ge clear r.expectedSeq with before | reached
    · exact unmarked (below clear before)
    · exact unmarked ((flagged_iff small).mp
        (advanced.passed clear reached (Nat.lt_of_not_le passed)))
  constructor
  · intro seq before
    rcases Nat.lt_or_ge seq r.expectedSeq with early | reached
    · exact below seq early
    · exact (flagged_iff (by omega)).mp (advanced.passed seq reached before)
  · intro inside
    rw [← flagged_iff (stops.trans_lt small)]
    exact advanced.stopped inside

/-- With all low bits set the pointer runs to the end. -/
theorem Advanced.full (full : r.LowFull) {pointer : Nat} (advanced : r.Advanced pointer) :
    pointer = r.totalFragments := by
  by_contra short
  exact advanced.stopped (Nat.lt_of_le_of_ne advanced.below short) (full.flagged pointer)

section Finished

variable {seq : Nat} {nacks : List Reply}

theorem Finished.lowFull_iff (finished : Finished r after seq nacks) :
    after.LowFull ↔ r.LowFull := by
  rw [LowFull, LowFull, finished.bitmap]

theorem Finished.pointed (finished : Finished r after seq nacks) (pointed : r.Pointed) :
    after.Pointed := by
  intro open_
  rw [finished.bitmap]
  exact (finished.pointer.marked pointed (finished.lowFull_iff.not.mp open_)).1

theorem Finished.exact_iff (finished : Finished r after seq nacks) (pointed : r.Pointed) :
    after.PointerExact ↔ ¬ after.Overrun := by
  have total := finished.session.totalFragments
  by_cases full : r.LowFull
  · have last := finished.pointer.full full
    have overrun : after.Overrun ↔ ∃ seq < after.totalFragments, ¬ after.recvBitmap.Marked seq :=
      and_iff_right (finished.lowFull_iff.mpr full)
    rw [overrun, PointerExact, last, ← total]
    constructor
    · rintro least ⟨missing, inside, unmarked⟩
      exact absurd (least.2 (.inr ⟨inside, unmarked⟩)) (Nat.not_le.mpr inside)
    · intro complete
      refine ⟨.inl rfl, ?_⟩
      rintro other (rfl | ⟨inside, unmarked⟩)
      · exact le_rfl
      · exact absurd ⟨other, inside, unmarked⟩ complete
  · obtain ⟨marked, stopped⟩ := finished.pointer.marked pointed full
    refine iff_of_true ⟨?_, ?_⟩ fun overrun => full (finished.lowFull_iff.mp overrun.1)
    · rcases Nat.lt_or_eq_of_le finished.pointer.below with inside | atEnd
      · exact .inr ⟨total ▸ inside, finished.bitmap ▸ stopped inside⟩
      · exact .inl (atEnd.trans total.symm)
    · rintro other (rfl | ⟨_, unmarked⟩)
      · rw [total]
        exact finished.pointer.below
      · by_contra before
        rw [finished.bitmap] at unmarked
        exact unmarked (marked other (Nat.lt_of_not_le before))

/-- NACKs name missing fragments of the window in front of the pointer. -/
theorem Finished.sound (finished : Finished r after seq nacks) (pointed : r.Pointed)
    (window : r.windowSize ≤ arqWindow) {reply : Reply} (sent : reply ∈ nacks) :
    ¬ after.recvBitmap.Marked reply.seq ∧ after.expectedSeq ≤ reply.seq ∧
      reply.seq < after.expectedSeq + after.windowSize := by
  obtain ⟨-, fromPointer, inWindow, -, unflagged⟩ := finished.nacked reply sent
  refine ⟨?_, fromPointer, inWindow⟩
  have open_ : ¬ after.LowFull := fun full => unflagged (full.flagged reply.seq)
  have marked := finished.pointed pointed open_
  have small : reply.seq < 2048 := by
    by_contra large
    have low : after.expectedSeq ≤ narrowBit reply.seq := by
      by_contra before
      exact unflagged (marked _ (Nat.lt_of_not_le before))
    rw [narrowBit_eq] at low
    have cap : after.windowSize ≤ 64 := finished.session.windowSize ▸ window
    omega
  rwa [← flagged_iff small]

end Finished

/-! ## One call -/

/-- What every call keeps. -/
structure Sound (r : Receiver) : Prop where
  wf : r.Wf
  pointed : r.Pointed
  window : r.windowSize ≤ arqWindow

theorem Sound.stored (sound : r.Sound) {seq : Nat} {data : List UInt8} (wf : after.Wf)
    (stored : Stored r after seq data) : after.Sound where
  wf := wf
  pointed open_ other before := by
    have wasOpen : ¬ r.LowFull := fun full =>
      open_ fun low small => (stored.marks low).mpr (.inr (full low small))
    rw [stored.pointer] at before
    exact (stored.marks other).mpr (.inr (sound.pointed wasOpen other before))
  window := stored.session.windowSize ▸ sound.window

theorem Sound.finished (sound : r.Sound) {seq : Nat} {nacks : List Reply}
    (finished : Finished r after seq nacks) : after.Sound where
  wf := finished.wf
  pointed := finished.pointed sound.pointed
  window := finished.session.windowSize ▸ sound.window

theorem Sound.recovered (sound : r.Sound) {seq : Nat} {data : List UInt8} {recovered : Receiver}
    {acks : List Reply} (outcome : Recovered r recovered acks seq data) :
    recovered.Sound ∧ SameSession r recovered ∧ ∀ reply ∈ acks, reply.type = .ack := by
  have fed : (r.fed seq data).Sound := ⟨sound.wf.fed seq data, sound.pointed, sound.window⟩
  rcases outcome with ⟨rfl, rfl⟩ | ⟨-, recovery⟩
  · exact ⟨fed, sameSession_fed r seq data, fun _ impossible => nomatch impossible⟩
  cases recovery with
  | nothing =>
      exact ⟨fed, sameSession_fed r seq data, fun _ impossible => nomatch impossible⟩
  | stored wf _ stored =>
      refine ⟨fed.stored wf stored, (sameSession_fed r seq data).trans stored.session, ?_⟩
      intro reply member
      rw [List.mem_singleton.mp member]

/-- The answers of a call that accepts its fragment. -/
structure Answers (after : Receiver) (replies : List Reply) : Prop where
  pointer : after.PointerExact ↔ ¬ after.Overrun
  nacks : ∀ reply ∈ replies, reply.type = .nack →
    ¬ after.recvBitmap.Marked reply.seq ∧ after.expectedSeq ≤ reply.seq ∧
      reply.seq < after.expectedSeq + after.windowSize

theorem Sound.receive (sound : r.Sound) (arrival : Arrival) :
    ∃ accepted after replies,
      r.receiveFragment arrival.now arrival.seq arrival.data = some (accepted, after, replies) ∧
      after.Sound ∧ SameSession r after ∧ (accepted = true → Answers after replies) := by
  by_cases small : arrival.seq < r.totalFragments
  · obtain ⟨recovered, acks, accepted, after, replies, ran, recovery, outcome⟩ :=
      receiveFragment_outcome sound.wf arrival.now small arrival.data
    obtain ⟨middle, same, onlyAcks⟩ := sound.recovered recovery
    refine ⟨accepted, after, acks ++ replies, ran, ?_⟩
    cases outcome with
    | duplicate => exact ⟨middle, same, fun impossible => nomatch impossible⟩
    | dropped wf stored _ _ =>
        exact ⟨middle.stored wf stored, same.trans stored.session,
          fun impossible => nomatch impossible⟩
    | accepted wf stored _ finished =>
        have kept := middle.stored wf stored
        refine ⟨kept.finished finished, same.trans (stored.session.trans finished.session),
          fun _ => ⟨finished.exact_iff kept.pointed, ?_⟩⟩
        intro reply member isNack
        rcases List.mem_append.mp member with ack | own
        · rw [onlyAcks reply ack] at isNack
          contradiction
        · rcases List.mem_cons.mp own with rfl | nack
          · contradiction
          · exact finished.sound kept.pointed kept.window nack
  · refine ⟨false, r, [], ?_, sound, .refl r, fun impossible => nomatch impossible⟩
    simp [receiveFragment, Nat.le_of_not_lt small]

/-! ## Runs -/

theorem Sound.run (sound : r.Sound) (arrivals : List Arrival) :
    ∃ reached, r.run arrivals = some reached ∧ reached.Sound ∧ SameSession r reached := by
  induction arrivals generalizing r with
  | nil => exact ⟨r, rfl, sound, .refl r⟩
  | cons arrival rest inductionHypothesis =>
      obtain ⟨accepted, next, replies, ran, nextSound, same, -⟩ := sound.receive arrival
      obtain ⟨reached, ranRest, reachedSound, sameRest⟩ := inductionHypothesis nextSound
      exact ⟨reached, by simp [Receiver.run, ran, ranRest], reachedSound, same.trans sameRest⟩

/-- A call at the end of a run. -/
theorem Sound.call (sound : r.Sound) (arrivals : List Arrival) (arrival : Arrival) :
    ∃ reached accepted after replies, r.run arrivals = some reached ∧
      reached.receiveFragment arrival.now arrival.seq arrival.data =
        some (accepted, after, replies) ∧
      SameSession r after ∧ (accepted = true → Answers after replies) := by
  obtain ⟨reached, ran, reachedSound, same⟩ := sound.run arrivals
  obtain ⟨accepted, after, replies, received, -, sameAfter, answers⟩ :=
    reachedSound.receive arrival
  exact ⟨reached, accepted, after, replies, ran, received, same.trans sameAfter, answers⟩

theorem Sound.answers (sound : r.Sound) (arrivals : List Arrival) (arrival : Arrival)
    {reached : Receiver} {replies : List Reply} (ran : r.run arrivals = some reached)
    (received : reached.receiveFragment arrival.now arrival.seq arrival.data =
      some (true, after, replies)) : Answers after replies ∧ SameSession r after := by
  obtain ⟨_, accepted, _, _, sameRun, sameCall, same, answers⟩ := sound.call arrivals arrival
  rw [ran, Option.some.injEq] at sameRun
  subst sameRun
  rw [received, Option.some.injEq, Prod.mk.injEq, Prod.mk.injEq] at sameCall
  obtain ⟨rfl, rfl, rfl⟩ := sameCall
  exact ⟨answers rfl, same⟩

theorem run_append (r : Receiver) (first second : List Arrival) :
    r.run (first ++ second) = (r.run first).bind fun middle => middle.run second := by
  induction first generalizing r with
  | nil => rfl
  | cons arrival rest inductionHypothesis =>
      simp only [List.cons_append, Receiver.run, Option.bind_eq_bind, Option.bind_assoc,
        inductionHypothesis]

theorem sound_started {totalFragments fragmentSize fileSize windowSize : Nat}
    (started : r.Started totalFragments fragmentSize fileSize windowSize)
    (window : windowSize ≤ arqWindow) : r.Sound where
  wf := started.wf
  pointed _ seq before := by
    rw [started.pointer] at before
    exact absurd before (Nat.not_lt_zero seq)
  window := started.windowSize ▸ window

/-! ## Running past the bits -/

section InOrder

variable {truth : Nat → List UInt8} {arrived : List Nat}

/-- What the decoder adds is no parity. -/
theorem Tracks.parity_fresh (tracks : r.Tracks truth arrived)
    (wellFormed : WellFormedGroups truth) {seq : Nat} (small : seq < r.totalFragments)
    (parity : isParitySlot seq = true) (absent : seq ∉ arrived) {recovered : Receiver}
    {acks : List Reply} (outcome : Recovered r recovered acks seq (truth seq)) :
    ¬ recovered.recvBitmap.Marked seq := by
  have fresh : ¬ r.recvBitmap.Marked seq := by
    intro isMarked
    rcases tracks.explained seq isMarked with here | ⟨isData, -⟩
    · exact absent here
    · rw [parity] at isData
      contradiction
  obtain ⟨-, reports⟩ := tracks.fed wellFormed small
  rcases outcome with ⟨rfl, -⟩ | ⟨reported, recovery⟩
  · exact fresh
  cases recovery with
  | nothing => exact fresh
  | stored _ _ stored =>
      intro isMarked
      rcases (stored.marks seq).mp isMarked with same | before
      · have isData := (reports reported).isData
        rw [← same, parity] at isData
        contradiction
      · exact fresh before

theorem Tracks.receive (tracks : r.Tracks truth arrived) (wellFormed : WellFormedGroups truth)
    (now : Nat) {seq : Nat} (small : seq < r.totalFragments) :
    ∃ accepted after replies,
      r.receiveFragment now seq (truth seq) = some (accepted, after, replies) ∧
      after.Tracks truth (seq :: arrived) ∧ SameSession r after ∧
      (∀ other, other = seq ∨ r.recvBitmap.Marked other → after.recvBitmap.Marked other) ∧
      (isParitySlot seq = true → seq ∉ arrived → accepted = true) := by
  obtain ⟨recovered, acks, accepted, after, replies, ran, recovery, outcome⟩ :=
    receiveFragment_outcome tracks.wf now small (truth seq)
  obtain ⟨middle, same⟩ := tracks.recovered wellFormed small recovery
  obtain ⟨tracked, sameAfter⟩ := middle.accepted List.mem_cons_self outcome
  have grown : ∀ other, r.recvBitmap.Marked other → recovered.recvBitmap.Marked other := by
    intro other before
    rcases recovery with ⟨rfl, -⟩ | ⟨-, recovery⟩
    · exact before
    · cases recovery with
      | nothing => exact before
      | stored _ _ stored => exact (stored.marks other).mpr (.inr before)
  refine ⟨accepted, after, acks ++ replies, ran, tracked, same.trans sameAfter, ?_, ?_⟩
  · intro other marked
    cases outcome with
    | duplicate known =>
        rcases marked with rfl | before
        · exact known
        · exact grown other before
    | dropped _ stored _ _ => exact (stored.marks other).mpr (marked.imp_right (grown other))
    | accepted _ stored _ finished =>
        rw [finished.bitmap]
        exact (stored.marks other).mpr (marked.imp_right (grown other))
  · intro parity absent
    cases outcome with
    | duplicate known =>
        exact absurd known (tracks.parity_fresh wellFormed small parity absent recovery)
    | dropped _ _ isData _ =>
        rw [parity] at isData
        contradiction
    | accepted => rfl

/-- The first fragments, one after the other. -/
def inOrder (truth : Nat → List UInt8) (count : Nat) : List Arrival :=
  (List.range count).map fun seq => { now := 0, seq := seq, data := truth seq }

theorem Tracks.run_inOrder (tracks : r.Tracks truth []) (wellFormed : WellFormedGroups truth)
    (count : Nat) (fits : count ≤ r.totalFragments) :
    ∃ reached arrived, r.run (inOrder truth count) = some reached ∧
      reached.Tracks truth arrived ∧ SameSession r reached ∧
      (∀ seq ∈ arrived, seq < count) ∧ ∀ seq < count, reached.recvBitmap.Marked seq := by
  induction count with
  | zero => exact ⟨r, [], rfl, tracks, .refl r, by simp, by simp⟩
  | succ count inductionHypothesis =>
      obtain ⟨middle, arrived, ran, middleTracks, same, older, marks⟩ :=
        inductionHypothesis (Nat.le_of_succ_le fits)
      have small : count < middle.totalFragments := same.totalFragments ▸ fits
      obtain ⟨accepted, reached, replies, ranLast, tracked, sameLast, grown, -⟩ :=
        middleTracks.receive wellFormed 0 small
      refine ⟨reached, count :: arrived, ?_, tracked, same.trans sameLast, ?_, ?_⟩
      · rw [inOrder, List.range_succ, List.map_append, run_append]
        rw [inOrder] at ran
        simp [ran, Receiver.run, ranLast]
      · intro seq member
        rcases List.mem_cons.mp member with rfl | before
        · exact Nat.lt_succ_self _
        · exact Nat.lt_succ_of_lt (older seq before)
      · intro seq below
        rcases Nat.lt_succ_iff_lt_or_eq.mp below with before | rfl
        · exact grown seq (.inr (marks seq before))
        · exact grown seq (.inl rfl)

/-- With more than 2048 fragments the 2048 first, in order, lead the pointer past one that is
missing. -/
theorem Tracks.overrun (tracks : r.Tracks truth []) (wellFormed : WellFormedGroups truth)
    (many : 2048 < r.totalFragments) :
    ∃ reached after replies, r.run (inOrder truth 2047) = some reached ∧
      reached.receiveFragment 0 2047 (truth 2047) = some (true, after, replies) ∧
      after.Overrun ∧ ¬ after.recvBitmap.Marked 2048 := by
  obtain ⟨reached, arrived, ran, reachedTracks, same, older, marks⟩ :=
    tracks.run_inOrder wellFormed 2047 (by omega)
  have small : 2047 < reached.totalFragments := by
    rw [same.totalFragments]
    omega
  have absent : 2047 ∉ arrived := fun member => absurd (older 2047 member) (by decide)
  obtain ⟨accepted, after, replies, ranLast, tracked, sameLast, grown, accepts⟩ :=
    reachedTracks.receive wellFormed 0 small
  have missing : ¬ after.recvBitmap.Marked 2048 := by
    intro isMarked
    have known : ∀ seq ∈ 2047 :: arrived, seq < 2048 := by
      intro seq member
      rcases List.mem_cons.mp member with rfl | before
      · decide
      · exact (older seq before).trans (by decide)
    rcases tracked.explained 2048 isMarked with here | ⟨-, others⟩
    · exact absurd (known 2048 here) (by decide)
    · exact absurd (known 2049 (others 2049 (by decide) (by decide))) (by decide)
  refine ⟨reached, after, replies, ran, ?_, ⟨?_, 2048, ?_, missing⟩, missing⟩
  · rw [ranLast, accepts (by decide) absent]
  · intro seq low
    rcases Nat.lt_or_eq_of_le (Nat.le_of_lt_succ low) with before | rfl
    · exact grown seq (.inr (marks seq before))
    · exact grown _ (.inl rfl)
  · rw [sameLast.totalFragments, same.totalFragments]
    exact many

end InOrder

end Receiver

/-- In every session and after every call that accepts its fragment: the pointer is exact
unless the first 2048 fragments are marked and a later one is missing, and the NACKs name
missing fragments of the window.  So the pointer is exact after all such calls precisely in
the sessions of at most 2048 fragments. -/
theorem pointer_exact_iff (r : Receiver) (window : r.windowSize ≤ arqWindow)
    {totalFragments : Nat} (fits : totalFragments < 2 ^ 16) (fragmentSize fileSize : Nat)
    (heap : Allocations) :
    let started := r.initReceiver totalFragments fragmentSize fileSize heap
    (∀ (arrivals : List Receiver.Arrival) (arrival : Receiver.Arrival),
      ∃ reached accepted after replies, started.2.run arrivals = some reached ∧
        reached.receiveFragment arrival.now arrival.seq arrival.data =
          some (accepted, after, replies) ∧
        (accepted = true → Receiver.Answers after replies)) ∧
    (started.1 = true →
      ((∀ (arrivals : List Receiver.Arrival) (arrival : Receiver.Arrival) reached after replies,
        started.2.run arrivals = some reached →
        reached.receiveFragment arrival.now arrival.seq arrival.data =
          some (true, after, replies) → after.PointerExact) ↔ totalFragments ≤ 2048)) := by
  obtain ⟨refused, granted⟩ :=
    Receiver.initReceiver_outcome (r := r) fits fragmentSize fileSize heap
  dsimp only at refused granted ⊢
  generalize r.initReceiver totalFragments fragmentSize fileSize heap = started at refused granted
  refine ⟨fun arrivals arrival => ?_, fun success => ?_⟩
  · cases result : started.1 with
    | false =>
        have refusing := refused result
        exact ⟨started.2, false, started.2, [], refusing.run arrivals, refusing.receive _ _ _,
          fun impossible => nomatch impossible⟩
    | true =>
        obtain ⟨reached, accepted, after, replies, ran, received, -, answers⟩ :=
          (Receiver.sound_started (granted result) window).call arrivals arrival
        exact ⟨reached, accepted, after, replies, ran, received, answers⟩
  · have start := granted success
    have sound := Receiver.sound_started start window
    constructor
    · intro everywhere
      by_contra large
      have many : 2048 < started.2.totalFragments := by
        rw [start.totalFragments]
        omega
      obtain ⟨reached, after, replies, ran, received, overrun, -⟩ :=
        (Receiver.tracks_started (withParity fun _ => []) start).overrun
          (wellFormed_withParity _) many
      have exact_ := everywhere _ ⟨0, 2047, _⟩ reached after replies ran received
      have answers := (sound.answers _ ⟨0, 2047, _⟩ ran received).1
      exact answers.pointer.mp exact_ overrun
    · intro few arrivals arrival reached after replies ran received
      obtain ⟨answers, same⟩ := sound.answers arrivals arrival ran received
      refine answers.pointer.mpr fun overrun => ?_
      obtain ⟨low, seq, inside, missing⟩ := overrun
      rw [same.totalFragments, start.totalFragments] at inside
      exact missing (low seq (by omega))

/-- Ten fragments. -/
theorem pointer_exact_ten_fragments :
    let started := (Receiver.init 64 3000).initReceiver 10 1 9 .plenty
    ∀ (arrivals : List Receiver.Arrival) (arrival : Receiver.Arrival) reached after replies,
      started.2.run arrivals = some reached →
      reached.receiveFragment arrival.now arrival.seq arrival.data =
        some (true, after, replies) → after.PointerExact :=
  ((pointer_exact_iff (Receiver.init 64 3000) (by decide) (by decide : 10 < 2 ^ 16) 1 9
    .plenty).2 (initReceiver_plenty _ _ _ (by decide))).mpr (by decide)

/-- A file of 1793 fragments of 1456 bytes, 2049 with the parities: when the 2048 first have
arrived the pointer is past the last, which is missing. -/
theorem long_session_overruns_pointer :
    let sent := meshPayload 1456 (List.replicate (1793 * 1456) 0)
    let started := (Receiver.init 64 3000).initReceiver (meshTotal 1456 (1793 * 1456)) 1456
      (1793 * 1456) .plenty
    ∃ reached after replies, started.2.run (Receiver.inOrder sent 2047) = some reached ∧
      reached.receiveFragment 0 2047 (sent 2047) = some (true, after, replies) ∧
      ¬ after.recvBitmap.Marked 2048 ∧ ¬ after.PointerExact := by
  intro sent started
  have wellFormed : WellFormedGroups sent := wellFormed_meshPayload (by decide) _
  have start : started.2.Started (meshTotal 1456 (1793 * 1456)) 1456 (1793 * 1456) 64 :=
    (Receiver.initReceiver_outcome (by decide) _ _ _).2 (initReceiver_plenty _ _ _ (by decide))
  clear_value sent started
  have many : 2048 < started.2.totalFragments := by
    rw [start.totalFragments]
    decide
  obtain ⟨reached, after, replies, ran, received, overrun, missing⟩ :=
    (Receiver.tracks_started sent start).overrun wellFormed many
  have answers :=
    ((Receiver.sound_started start (by decide)).answers _ ⟨0, 2047, _⟩ ran received).1
  exact ⟨reached, after, replies, ran, received, missing, fun exact_ =>
    answers.pointer.mp exact_ overrun⟩

end ForestLink.Protocol
