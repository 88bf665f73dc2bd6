/-
Module: ForestLink.Proofs.RttSamples
Purpose: Which transmissions the round-trip samples of a sender window measure.
Trusted boundary: none
Main exports: Clocked, Karn, Sender.Unambiguous, samples_of_single_transmissions
-/
import ForestLink.Proofs.SenderInvariant

namespace ForestLink.Protocol

/-! ## Transmissions of a call -/

@[simp] theorem airTimes_clock (seq ms : Nat) (events : List RadioEvent) :
    airTimes seq (.clock ms :: events) = airTimes seq events := rfl

/-- Only the fragment that is sent goes on the air. -/
theorem airTimes_sent_of_ne {seq other : Nat} (different : other ≠ seq) (result : Int)
    (events : List RadioEvent) :
    airTimes seq (.sent other result :: events) = airTimes seq events :=
  if_neg fun both => different both.1

theorem airTimes_sent_of_neg {result : Int} (negative : result < 0) (seq other : Nat)
    (events : List RadioEvent) :
    airTimes seq (.sent other result :: events) = airTimes seq events :=
  if_neg fun both => absurd both.2 (Int.not_le.mpr negative)

namespace SelectiveRepeat

/-! ## Slots whose timer shows the only transmission -/

/-- A slot in use; while it counts no retry its timer shows the only transmission. -/
structure Clocked (onAir : Nat → List Nat) (windowSize index : Nat) (slot : FragmentSlot) :
    Prop where
  indexed : slot.seqTag % windowSize = index
  nonempty : slot.data ≠ []
  once : slot.retries = 0 → onAir slot.seqTag = [slot.sendTimeMs]

/-- Every slot in use is clocked. -/
structure Karn (onAir : Nat → List Nat) (sr : SelectiveRepeat) : Prop where
  sized : 0 < sr.windowSize
  clocked : ∀ index ∈ sr.occupied, Clocked onAir sr.windowSize index (sr.window index)

variable {sr after : SelectiveRepeat} {earlier later : Nat → List Nat}

theorem Clocked.rerecord {windowSize index : Nat} {slot : FragmentSlot}
    (clocked : Clocked earlier windowSize index slot)
    (same : later slot.seqTag = earlier slot.seqTag) : Clocked later windowSize index slot where
  indexed := clocked.indexed
  nonempty := clocked.nonempty
  once fresh := same.trans (clocked.once fresh)

theorem Karn.rerecord (karn : sr.Karn earlier)
    (same : ∀ index ∈ sr.occupied,
      later (sr.window index).seqTag = earlier (sr.window index).seqTag) : sr.Karn later where
  sized := karn.sized
  clocked index inUse := (karn.clocked index inUse).rerecord (same index inUse)

/-- Different slots hold different sequence numbers. -/
theorem Karn.tag_ne (karn : sr.Karn earlier) {index : Nat} (inUse : index ∈ sr.occupied)
    {seq : Nat} (elsewhere : index ≠ sr.slotIndex seq) : seq ≠ (sr.window index).seqTag := by
  intro same
  apply elsewhere
  rw [slotIndex, same]
  exact (karn.clocked index inUse).indexed.symm

theorem Karn.slotOf_tag (karn : sr.Karn earlier) {index : Nat} (inUse : index ∈ sr.occupied) :
    sr.slotOf (sr.window index).seqTag = sr.window index := by
  rw [slotOf, slotIndex, (karn.clocked index inUse).indexed]

/-- One slot is written, and only its fragment's record changes. -/
theorem Karn.setSlot (karn : sr.Karn earlier) {home : Nat} {slot : FragmentSlot}
    (window : after.window = (sr.setSlot home slot).window)
    (windowSize : after.windowSize = sr.windowSize)
    (here : slot.sent = true → Clocked later sr.windowSize home slot)
    (others : ∀ index ∈ sr.occupied, index ≠ home →
      later (sr.window index).seqTag = earlier (sr.window index).seqTag) :
    after.Karn later where
  sized := windowSize ▸ karn.sized
  clocked index inUse := by
    obtain ⟨inside, sent⟩ := mem_occupied.mp inUse
    rw [windowSize] at inside ⊢
    by_cases same : index = home
    · have written : after.window index = slot := by simp [window, same, SelectiveRepeat.setSlot]
      rw [written] at sent ⊢
      exact same ▸ here sent
    · have kept := window_setSlot_of_ne window same
      rw [kept] at sent ⊢
      have before : index ∈ sr.occupied := mem_occupied.mpr ⟨inside, sent⟩
      exact (karn.clocked index before).rerecord (others index before same)

/-- A retransmission with this answer leaves the timer honest: it is not put off before the
first retry, and it does not turn the counter back to zero. -/
def Tells (slot : FragmentSlot) (result : Int) : Prop :=
  (result = sendBackpressure → slot.retries ≠ 0) ∧
    (0 ≤ result → (slot.retries + 1) % 2 ^ 8 ≠ 0)

theorem Clocked.retried {windowSize index : Nat} {slot : FragmentSlot}
    (clocked : Clocked earlier windowSize index slot) {retries : Nat} (counted : retries ≠ 0)
    (time : Nat) : Clocked later windowSize index
      { slot with sendTimeMs := time, retries := retries } where
  indexed := clocked.indexed
  nonempty := clocked.nonempty
  once fresh := absurd fresh counted

section Retransmissions

variable {σ : Type} {radio : Radio σ}

/-- A NACKed fragment is put off, fails to go out, or goes out and counts a retry. -/
theorem Karn.handleNack (karn : sr.Karn earlier) (io : σ) (seq : Nat)
    (tells : ∀ other result,
      .sent other result ∈ (handleNack radio.recorded (io, []) sr seq).2.2 →
        Tells (sr.slotOf other) result) :
    (handleNack radio.recorded (io, []) sr seq).1.Karn fun tag =>
      airTimes tag (handleNack radio.recorded (io, []) sr seq).2.2 ++ earlier tag := by
  have others : ∀ result now, ∀ index ∈ sr.occupied, index ≠ sr.slotIndex seq →
      airTimes (sr.window index).seqTag [.sent seq result, .clock now] ++
        earlier (sr.window index).seqTag = earlier (sr.window index).seqTag := by
    intro result now index inUse elsewhere
    rw [airTimes_sent_of_ne (karn.tag_ne inUse elsewhere)]
    rfl
  have clocked : sr.acknowledges seq = true →
      Clocked earlier sr.windowSize (sr.slotIndex seq) (sr.slotOf seq) := fun active =>
    karn.clocked _ (mem_occupied.mpr ⟨Nat.mod_lt seq karn.sized, sent_of_acknowledges active⟩)
  have outcome := handleNack_outcome radio.recorded (io, []) sr seq
  generalize SelectiveRepeat.handleNack radio.recorded (io, []) sr seq = result
    at tells outcome ⊢
  cases outcome with
  | ignored => exact karn
  | putOff active busy =>
      have counted := (tells seq _ List.mem_cons_self).1 busy
      exact karn.setSlot rfl rfl (fun _ => (clocked active).retried counted _) (others _ _)
  | failed active negative =>
      refine karn.rerecord fun index _ => ?_
      have silent := airTimes_sent_of_neg negative (sr.window index).seqTag seq
        [.clock (radio.nowMs io).1]
      exact congrArg (· ++ earlier (sr.window index).seqTag) silent
  | resent active accepted time failed =>
      have counted := (tells seq _ List.mem_cons_self).2 accepted
      exact karn.setSlot rfl rfl (fun _ => (clocked active).retried counted _) (others _ _)

/-- A tick only adds to the record. -/
theorem tickSlots_events (radio : Radio σ) (now maxSends : Nat) (indices : List Nat)
    (io : σ × List RadioEvent) (sr : SelectiveRepeat) (sentCount : Nat) :
    io.2 ⊆ (tickSlots radio.recorded now maxSends indices io sr sentCount).2.2.2 := by
  induction indices generalizing io sr sentCount with
  | nil => exact List.Subset.refl _
  | cons index rest inductionHypothesis =>
      have outcome := tickSlots_outcome radio.recorded now maxSends index rest io sr sentCount
      generalize tickSlots radio.recorded now maxSends (index :: rest) io sr sentCount = result
        at outcome ⊢
      cases outcome with
      | skipped => exact inductionHypothesis io sr sentCount
      | spent => exact List.Subset.refl _
      | putOff => exact List.subset_cons_self _ _
      | failed => exact List.subset_cons_self _ _
      | resent =>
          have later := inductionHypothesis
            (radio.recorded.send io sr.peerAddr .data (sr.window index).seqTag
              (sr.window index).data).2
          exact List.Subset.trans (List.subset_cons_self _ _) (later _ _)

/-- The slots that a tick has still to look at are as they were before it. -/
theorem Karn.tickSlots {start : SelectiveRepeat} (before : start.Karn earlier) (now maxSends : Nat)
    {indices : List Nat} (nodup : indices.Nodup)
    (inside : ∀ index ∈ indices, index < start.windowSize)
    (io : σ × List RadioEvent) (sentCount : Nat) (same : SameFragments start sr)
    (untouched : ∀ index ∈ indices, sr.window index = start.window index)
    (karn : sr.Karn fun tag => airTimes tag io.2 ++ earlier tag)
    (tells : ∀ other result,
      .sent other result ∈
          (tickSlots radio.recorded now maxSends indices io sr sentCount).2.2.2 →
        Tells (start.slotOf other) result) :
    (tickSlots radio.recorded now maxSends indices io sr sentCount).2.1.Karn fun tag =>
      airTimes tag (tickSlots radio.recorded now maxSends indices io sr sentCount).2.2.2 ++
        earlier tag := by
  induction indices generalizing io sr sentCount with
  | nil => exact karn
  | cons index rest inductionHypothesis =>
      obtain ⟨fresh, nodupRest⟩ := List.nodup_cons.mp nodup
      have insideRest : ∀ other ∈ rest, other < start.windowSize := fun other member =>
        inside other (List.mem_cons_of_mem _ member)
      have untouchedRest : ∀ other ∈ rest, sr.window other = start.window other :=
        fun other member => untouched other (List.mem_cons_of_mem _ member)
      have here : sr.window index = start.window index := untouched index List.mem_cons_self
      have inUse : (sr.window index).sent = true → index ∈ sr.occupied := fun sent =>
        mem_occupied.mpr ⟨same.windowSize ▸ inside index List.mem_cons_self, sent⟩
      have home : (sr.window index).sent = true →
          start.slotOf (sr.window index).seqTag = sr.window index := by
        intro sent
        rw [here]
        exact before.slotOf_tag (same.occupied ▸ inUse sent)
      have others : (sr.window index).sent = true → ∀ result, ∀ other ∈ sr.occupied,
          other ≠ index →
            airTimes (sr.window other).seqTag (.sent (sr.window index).seqTag result :: io.2) ++
                earlier (sr.window other).seqTag =
              airTimes (sr.window other).seqTag io.2 ++ earlier (sr.window other).seqTag := by
        intro sent result other otherInUse different
        have indexed : sr.slotIndex (sr.window index).seqTag = index :=
          (karn.clocked index (inUse sent)).indexed
        rw [airTimes_sent_of_ne (karn.tag_ne otherInUse (indexed.symm ▸ different))]
      have outcome := tickSlots_outcome radio.recorded now maxSends index rest io sr sentCount
      generalize SelectiveRepeat.tickSlots radio.recorded now maxSends (index :: rest) io sr
        sentCount = result at tells outcome ⊢
      cases outcome with
      | skipped =>
          exact inductionHypothesis nodupRest insideRest io sentCount same untouchedRest karn tells
      | spent => exact karn
      | putOff sent busy =>
          have counted := (tells _ _ List.mem_cons_self).1 busy
          rw [home sent] at counted
          exact karn.setSlot rfl rfl
            (fun _ => (karn.clocked index (inUse sent)).retried counted now) (others sent _)
      | failed sent negative =>
          refine karn.rerecord fun other _ => ?_
          exact congrArg (· ++ earlier (sr.window other).seqTag)
            (airTimes_sent_of_neg negative (sr.window other).seqTag _ io.2)
      | resent sent _ accepted =>
          have counted := (tells _ _ (tickSlots_events _ _ _ _ _ _ _ List.mem_cons_self)).2
            accepted
          rw [home sent] at counted
          refine inductionHypothesis nodupRest insideRest _ _
            (same.trans (sameFragments_setSlot sr index now _)) ?_ ?_ tells
          · intro other member
            have different : other ≠ index := fun equal => fresh (equal ▸ member)
            exact (window_setSlot_of_ne rfl different).trans (untouchedRest other member)
          · exact karn.setSlot rfl rfl
              (fun _ => (karn.clocked index (inUse sent)).retried counted now)
              (others sent _)

end Retransmissions

/-- An ACK feeds the estimate with its sample only. -/
theorem handleAck_estimate {σ : Type} (radio : Radio σ) (io : σ) (sr : SelectiveRepeat)
    (seq : Nat) :
    (SelectiveRepeat.handleAck radio io sr seq).1.srttMs = (sr.sampled radio io seq).srttMs ∧
      (SelectiveRepeat.handleAck radio io sr seq).1.rttvarMs =
        (sr.sampled radio io seq).rttvarMs := by
  rw [handleAck_eq]
  split
  · exact ⟨rfl, rfl⟩
  · rename_i ignored
    have none : sr.rttSample radio io seq = none := by simp [rttSample, ignored]
    rw [sampled, none]
    exact ⟨rfl, rfl⟩

end SelectiveRepeat

/-! ## Runs -/

namespace Sender

open SelectiveRepeat

variable {σ : Type} {radio : Radio σ} {s : Sender σ}

/-- The sender's slots in use are clocked by its own record. -/
abbrev Punctual (s : Sender σ) : Prop := s.sr.Karn s.onAir

variable (radio) in
/-- The answers to the retransmissions of the call leave the timers honest: none of a fragment
without retries is put off, and no counter turns back to zero. -/
def Unambiguous (s : Sender σ) : SenderCall → Prop
  | .handleNack seq => ∀ other result,
      .sent other result ∈ (s.call radio (.handleNack seq)).2.2 →
        Tells (s.sr.slotOf other) result
  | .tick maxSends => ∀ other result,
      .sent other result ∈ (s.call radio (.tick maxSends)).2.2 →
        Tells (s.sr.slotOf other) result
  | _ => True

/-- The record of a fragment that is pending is not started anew. -/
theorem restarts_of_clocked (punctual : s.Punctual) {index : Nat} (inUse : index ∈ s.sr.occupied)
    (seq : Nat) (data : List UInt8) :
    s.restarts (s.sr.window index).seqTag (.sendFragment seq data) = false := by
  have clocked := punctual.clocked index inUse
  have contains : s.sr.containsSequence (s.sr.window index).seqTag = true := by
    simp [containsSequence, punctual.slotOf_tag inUse, (mem_occupied.mp inUse).2,
      clocked.nonempty, punctual.sized.ne']
  simp [restarts, contains]

theorem restarts_of_free (seq : Nat) (data : List UInt8) (free : (s.sr.slotOf seq).sent = false) :
    s.restarts seq (.sendFragment seq data) = true := by
  simp [restarts, containsSequence, free]

theorem punctual_sendFragment (punctual : s.Punctual) (seq : Nat) (data : List UInt8) :
    (s.step radio (.sendFragment seq data)).Punctual := by
  have restarted := restarts_of_free (s := s) seq data
  have kept : s.sr.Karn fun tag =>
      if s.restarts tag (.sendFragment seq data) then [] else s.onAir tag :=
    punctual.rerecord fun index inUse => by
      simp [restarts_of_clocked punctual inUse seq data]
  simp only [Punctual, step, call]
  generalize s.restarts = restarts at restarted kept ⊢
  have others : ∀ result now, ∀ index ∈ s.sr.occupied, index ≠ s.sr.slotIndex seq →
      airTimes (s.sr.window index).seqTag [.sent seq result, .clock now] = [] := by
    intro result now index inUse elsewhere
    rw [airTimes_sent_of_ne (punctual.tag_ne inUse elsewhere)]
    rfl
  have outcome := sendFragment_outcome radio.recorded (s.io, []) s.sr seq data
  generalize SelectiveRepeat.sendFragment radio.recorded (s.io, []) s.sr seq data = result
    at outcome ⊢
  cases outcome with
  | duplicate => exact kept
  | refused => exact kept
  | failed free negative =>
      refine kept.setSlot rfl rfl (fun sent => by contradiction) fun index inUse elsewhere => ?_
      exact congrArg (· ++ _) (others _ _ index inUse elsewhere)
  | placed free nonempty accepted =>
      refine kept.setSlot rfl rfl (fun _ => ⟨rfl, nonempty, fun _ => ?_⟩)
        fun index inUse elsewhere => congrArg (· ++ _) (others _ _ index inUse elsewhere)
      have onAir : airTimes seq [.sent seq _, .clock (radio.nowMs s.io).1] =
        [(radio.nowMs s.io).1] := if_pos ⟨rfl, accepted⟩
      simp only [restarted free, ↓reduceIte, List.append_nil]
      exact onAir

/-- An ACK empties a slot and transmits nothing. -/
theorem punctual_handleAck (punctual : s.Punctual) (seq : Nat) :
    (s.step radio (.handleAck seq)).Punctual := by
  have quiet : ∀ tag,
      airTimes tag (SelectiveRepeat.handleAck radio.recorded (s.io, []) s.sr seq).2.2 = [] := by
    intro tag
    unfold SelectiveRepeat.handleAck
    dsimp only
    split
    · rfl
    split <;> rfl
  have silent : (s.step radio (.handleAck seq)).onAir = s.onAir := by
    simp [step, call, quiet, restarts]
  have shape := handleAck_eq radio.recorded (s.io, []) s.sr seq
  obtain ⟨_, _, _, _, sampledEq⟩ := sampled_eq radio.recorded (s.io, []) s.sr seq
  rw [Punctual, silent]
  simp only [step, call, shape]
  split
  · rw [sampledEq]
    exact punctual.setSlot rfl rfl (fun sent => by contradiction) fun _ _ _ => rfl
  · exact punctual

theorem punctual_step (punctual : s.Punctual) {c : SenderCall}
    (unambiguous : s.Unambiguous radio c) : (s.step radio c).Punctual := by
  cases c with
  | sendFragment seq data => exact punctual_sendFragment punctual seq data
  | handleAck seq => exact punctual_handleAck punctual seq
  | handleNack seq => 
      exact punctual.handleNack s.io seq unambiguous
  | tick maxSends =>
      have started : s.sr.Karn fun tag =>
          airTimes tag (radio.recorded.nowMs (s.io, [])).2.2 ++ s.onAir tag := punctual
      exact punctual.tickSlots _ maxSends List.nodup_range
        (fun index member => List.mem_range.mp member) _ 0 (.refl s.sr) (fun _ _ => rfl) started
        unambiguous
  | resetSender =>
      exact ⟨punctual.sized, fun index inUse => by
        simp [step, call, SelectiveRepeat.resetSender, occupied] at inUse⟩

theorem punctual_init (io : σ) {windowSize : Nat} (positive : 1 ≤ windowSize)
    (timeoutMs minRtoFloorMs peerAddr : Nat) :
    (init io windowSize timeoutMs minRtoFloorMs peerAddr).Punctual where
  sized := Nat.lt_min.mpr ⟨positive, by decide⟩
  clocked index inUse := by simp [init, occupied] at inUse

/-- A sample of a punctual sender measures from the only transmission. -/
theorem Punctual.sample (punctual : s.Punctual) {seq rtt : Nat}
    (sample : s.sr.rttSample radio s.io seq = some rtt) :
    ∃ sentAt, s.onAir seq = [sentAt] ∧ rtt = sub32 (radio.nowMs s.io).1 sentAt := by
  unfold rttSample at sample
  split at sample
  · rename_i taken
    simp only [acknowledges, Bool.and_eq_true, beq_iff_eq] at taken
    have inUse : s.sr.slotIndex seq ∈ s.sr.occupied :=
      mem_occupied.mpr ⟨Nat.mod_lt seq punctual.sized, taken.1.1.1.1⟩
    have once := (punctual.clocked _ inUse).once taken.2
    have tag : (s.sr.window (s.sr.slotIndex seq)).seqTag = seq := taken.1.1.1.2
    rw [tag] at once
    exact ⟨_, once, (Option.some.inj sample).symm⟩
  · contradiction

end Sender

/-- As long as no retransmission of a fragment without retries is put off and no counter turns
back to zero: an ACK takes into the estimate its round-trip sample only, and the sample is the
time since the one transmission of the fragment. -/
theorem samples_of_single_transmissions {σ : Type} (radio : Radio σ) (io : σ) {windowSize : Nat}
    (positive : 1 ≤ windowSize) (timeoutMs minRtoFloorMs peerAddr : Nat)
    (calls : List SenderCall)
    (each : Sender.Each radio (Sender.Unambiguous radio)
      (Sender.init io windowSize timeoutMs minRtoFloorMs peerAddr) calls) (seq : Nat) :
    let s := (Sender.init io windowSize timeoutMs minRtoFloorMs peerAddr).run radio calls
    let acked := (SelectiveRepeat.handleAck radio s.io s.sr seq).1
    (acked.srttMs = (s.sr.sampled radio s.io seq).srttMs ∧
      acked.rttvarMs = (s.sr.sampled radio s.io seq).rttvarMs) ∧
    ∀ rtt, s.sr.rttSample radio s.io seq = some rtt →
      ∃ sentAt, s.onAir seq = [sentAt] ∧ rtt = sub32 (radio.nowMs s.io).1 sentAt := by
  have punctual : Sender.Punctual
      ((Sender.init io windowSize timeoutMs minRtoFloorMs peerAddr).run radio calls) :=
    Sender.Each.keeps (fun s _ unambiguous (held : s.Punctual) =>
      Sender.punctual_step held unambiguous) each
      (Sender.punctual_init io positive timeoutMs minRtoFloorMs peerAddr)
  exact ⟨SelectiveRepeat.handleAck_estimate _ _ _ _, fun _ sample => punctual.sample sample⟩

/-- Fragment 0 is acknowledged 40 ms after its only transmission. -/
theorem samples_of_single_transmissions_forty :
    let s := (Sender.init ([100, 140], []) 4 3000 200 7).run Radio.scripted [.sendFragment 0 [1]]
    (SelectiveRepeat.handleAck Radio.scripted s.io s.sr 0).1.srttMs = 40 ∧
      ∃ sentAt, s.onAir 0 = [sentAt] ∧ 40 = sub32 140 sentAt := by
  intro s
  have result := samples_of_single_transmissions Radio.scripted ([100, 140], [])
    (by decide : 1 ≤ 4) 3000 200 7 [.sendFragment 0 [1]] ⟨trivial, trivial⟩ 0
  exact ⟨result.1.1.trans (by decide +kernel), result.2 40 (by decide +kernel)⟩

/-- A retransmission put off at 3000 ms: the ACK a millisecond later gives a sample of 1 ms,
though the fragment went out at 0 ms and never again. -/
theorem put_off_retransmission_misleads_sample :
    let s := (Sender.init ([0, 3000, 3001], [0, -2]) 4 3000 200 7).run Radio.scripted
      [.sendFragment 0 [1], .tick 4]
    s.onAir 0 = [0] ∧ s.sr.rttSample Radio.scripted s.io 0 = some 1 ∧
      (SelectiveRepeat.handleAck Radio.scripted s.io s.sr 0).1.srttMs = 1 := by
  decide +kernel

end ForestLink.Protocol
