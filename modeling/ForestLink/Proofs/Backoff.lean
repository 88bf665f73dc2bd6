/-
Module: ForestLink.Proofs.Backoff
Purpose: When the 32-bit backoff of a retransmission is the capped power-of-two multiple of the
  base timeout.
Trusted boundary: none
Main exports: baseRtoMs, BackoffExact, backoffExact_iff, Sender.Restrained, backoff_exact
-/
import ForestLink.Proofs.SenderInvariant

namespace ForestLink.Protocol

namespace SelectiveRepeat

/-- `base_rto` of `tick`. -/
def baseRtoMs (sr : SelectiveRepeat) : Nat :=
  max (if sr.rttInitialized then sr.rtoMs else sr.timeoutMs) sr.minRtoFloorMs

/-- The shift is defined and gives the capped multiple of the base timeout. -/
def BackoffExact (sr : SelectiveRepeat) (retries : Nat) : Prop :=
  retries < 32 ∧ sr.backoffMs retries = min rtoMaxMs (sr.baseRtoMs * 2 ^ retries)

/-- From thirteen doublings on what is left of a wrapped product is zero or above the cap. -/
theorem min_wrapped_iff {base retries : Nat} (small : base ≤ 8000) :
    min (base * 2 ^ retries % 2 ^ 32) rtoMaxMs = min rtoMaxMs (base * 2 ^ retries) ↔
      base = 0 ∨ ¬ 2 ^ 32 ∣ base * 2 ^ retries := by
  have cap : rtoMaxMs = 5000 := rfl
  rw [cap]
  by_cases few : retries ≤ 12
  · have power : 2 ^ retries ≤ 2 ^ 12 := Nat.pow_le_pow_right (by decide) few
    have fits : base * 2 ^ retries < 2 ^ 32 :=
      calc base * 2 ^ retries ≤ 8000 * 2 ^ 12 := Nat.mul_le_mul small power
        _ < 2 ^ 32 := by decide
    have undivided : base = 0 ∨ ¬ 2 ^ 32 ∣ base * 2 ^ retries := by
      rcases Nat.eq_zero_or_pos base with zero | positive
      · exact .inl zero
      · exact .inr (Nat.not_dvd_of_pos_of_lt (Nat.mul_pos positive (Nat.two_pow_pos _)) fits)
    rw [Nat.mod_eq_of_lt fits, Nat.min_comm]
    exact iff_of_true rfl undivided
  · obtain ⟨more, rfl⟩ := Nat.exists_eq_add_of_le (Nat.lt_of_not_le few)
    have shape : base * 2 ^ (Nat.succ 12 + more) = 2 ^ 13 * (base * 2 ^ more) := by
      rw [Nat.pow_add, Nat.mul_left_comm]
    have wrapped : 2 ^ 13 * (base * 2 ^ more) % 2 ^ 32 =
        2 ^ 13 * (base * 2 ^ more % 2 ^ 19) := by
      rw [show (2 : Nat) ^ 32 = 2 ^ 13 * 2 ^ 19 from rfl, Nat.mul_mod_mul_left]
    have divides : 2 ^ 32 ∣ 2 ^ 13 * (base * 2 ^ more) ↔ base * 2 ^ more % 2 ^ 19 = 0 := by
      rw [Nat.dvd_iff_mod_eq_zero, wrapped]
      omega
    have zero : base = 0 ↔ base * 2 ^ more = 0 := by
      rw [Nat.mul_eq_zero]
      exact ⟨.inl, fun either => either.resolve_right (Nat.two_pow_pos _).ne'⟩
    rw [shape, wrapped, divides, zero]
    have below := Nat.mod_le (base * 2 ^ more) (2 ^ 19)
    omega

theorem backoffExact_iff {sr : SelectiveRepeat} (small : sr.baseRtoMs ≤ 8000) (retries : Nat) :
    sr.BackoffExact retries ↔
      retries < 32 ∧ (sr.baseRtoMs = 0 ∨ ¬ 2 ^ 32 ∣ sr.baseRtoMs * 2 ^ retries) :=
  and_congr_right fun _ => min_wrapped_iff small

/-- Up to nineteen doublings of 8000 ms fit into 32 bits. -/
theorem backoffExact_of_few {sr : SelectiveRepeat} (small : sr.baseRtoMs ≤ 8000) {retries : Nat}
    (few : retries ≤ 19) : sr.BackoffExact retries := by
  rw [backoffExact_iff small]
  refine ⟨by omega, ?_⟩
  rcases Nat.eq_zero_or_pos sr.baseRtoMs with zero | positive
  · exact .inl zero
  · have power : 2 ^ retries ≤ 2 ^ 19 := Nat.pow_le_pow_right (by decide) few
    have fits : sr.baseRtoMs * 2 ^ retries < 2 ^ 32 :=
      calc sr.baseRtoMs * 2 ^ retries ≤ 8000 * 2 ^ 19 := Nat.mul_le_mul small power
        _ < 2 ^ 32 := by decide
    exact .inr (Nat.not_dvd_of_pos_of_lt (Nat.mul_pos positive (Nat.two_pow_pos _)) fits)

/-! ## The base timeout -/

/-- Configured and measured timeouts stay below 8000 ms. -/
structure Timed (sr : SelectiveRepeat) : Prop where
  timeout : sr.timeoutMs ≤ 8000
  floor : sr.minRtoFloorMs ≤ 8000
  measured : sr.rtoMs ≤ rtoMaxMs

theorem Timed.baseRtoMs_le {sr : SelectiveRepeat} (timed : sr.Timed) : sr.baseRtoMs ≤ 8000 := by
  have cap : rtoMaxMs = 5000 := rfl
  have measured := timed.measured
  unfold baseRtoMs
  split
  · exact Nat.max_le.mpr ⟨by omega, timed.floor⟩
  · exact Nat.max_le.mpr ⟨timed.timeout, timed.floor⟩

theorem updateRto_le (sr : SelectiveRepeat) (rtt : Nat) : (sr.updateRto rtt).rtoMs ≤ rtoMaxMs :=
  Nat.min_le_right _ _

/-! ## Retry counters -/

/-- No slot's retry counter is above the bound. -/
def AtMost (bound : Nat) (sr : SelectiveRepeat) : Prop :=
  ∀ index, (sr.window index).retries ≤ bound

theorem AtMost.setSlot {bound : Nat} {sr : SelectiveRepeat} (few : sr.AtMost bound) {index : Nat}
    {slot : FragmentSlot} (fits : slot.retries ≤ bound) : (sr.setSlot index slot).AtMost bound := by
  intro other
  by_cases same : other = index
  · simpa [SelectiveRepeat.setSlot, same] using fits
  · simpa [SelectiveRepeat.setSlot, same] using few other

section Calls

variable {σ : Type} (radio : Radio σ) {sr : SelectiveRepeat} {bound : Nat}

theorem AtMost.handleNack (few : sr.AtMost bound) (io : σ) {seq : Nat}
    (below : sr.acknowledges seq = true → (sr.slotOf seq).retries < bound) :
    (SelectiveRepeat.handleNack radio io sr seq).1.AtMost bound := by
  have outcome := handleNack_outcome radio io sr seq
  generalize SelectiveRepeat.handleNack radio io sr seq = result at outcome ⊢
  cases outcome with
  | ignored => exact few
  | putOff => exact few.setSlot (few _)
  | failed => exact few
  | resent active _ _ _ => exact few.setSlot ((Nat.mod_le _ _).trans (below active))

theorem AtMost.tickSlots (few : sr.AtMost bound) (enough : maxRetries ≤ bound)
    (now maxSends : Nat) (indices : List Nat) (io : σ) (sentCount : Nat) :
    (SelectiveRepeat.tickSlots radio now maxSends indices io sr sentCount).2.1.AtMost bound := by
  induction indices generalizing io sr sentCount with
  | nil => exact few
  | cons index rest inductionHypothesis =>
      have outcome := tickSlots_outcome radio now maxSends index rest io sr sentCount
      generalize SelectiveRepeat.tickSlots radio now maxSends (index :: rest) io sr sentCount =
        result at outcome ⊢
      cases outcome with
      | skipped => exact inductionHypothesis few io sentCount
      | spent => exact few
      | putOff => exact few.setSlot (few index)
      | failed => exact few
      | resent _ more _ =>
          have next : ((sr.window index).retries + 1) % 2 ^ 8 ≤ bound :=
            (Nat.mod_le _ _).trans (more.trans_le enough)
          exact inductionHypothesis (few.setSlot next) _ _

end Calls

end SelectiveRepeat

/-! ## Runs -/

namespace Sender

open SelectiveRepeat

variable {σ : Type} {radio : Radio σ} {s : Sender σ}

/-- A NACK comes for a fragment that has been resent less than nineteen times. -/
def Restrained (s : Sender σ) : SenderCall → Prop
  | .handleNack seq => s.sr.acknowledges seq = true → (s.sr.slotOf seq).retries < 19
  | _ => True

theorem timed_step (timed : s.sr.Timed) (c : SenderCall) : (s.step radio c).sr.Timed := by
  cases c with
  | sendFragment seq data =>
      have outcome := sendFragment_outcome radio.recorded (s.io, []) s.sr seq data
      simp only [step, call]
      generalize SelectiveRepeat.sendFragment radio.recorded (s.io, []) s.sr seq data = result
        at outcome ⊢
      cases outcome <;> exact ⟨timed.timeout, timed.floor, timed.measured⟩
  | handleAck seq =>
      simp only [step, call]
      rw [handleAck_eq]
      split
      · rw [sampled]
        split
        · exact ⟨timed.timeout, timed.floor, timed.measured⟩
        · exact ⟨timed.timeout, timed.floor, updateRto_le s.sr _⟩
      · exact timed
  | handleNack seq =>
      obtain ⟨window, failed, shape⟩ := handleNack_shape radio.recorded (s.io, []) s.sr seq
      simp only [step, call, shape]
      exact ⟨timed.timeout, timed.floor, timed.measured⟩
  | tick maxSends =>
      obtain ⟨window, shape⟩ := tickSlots_shape radio.recorded
        (radio.recorded.nowMs (s.io, [])).1 maxSends (List.range s.sr.windowSize)
        (radio.recorded.nowMs (s.io, [])).2 s.sr 0
      simp only [step, call, tick, shape]
      exact ⟨timed.timeout, timed.floor, timed.measured⟩
  | resetSender => exact ⟨timed.timeout, timed.floor, Nat.zero_le _⟩

theorem timed_run (timed : s.sr.Timed) (calls : List SenderCall) :
    (s.run radio calls).sr.Timed := by
  induction calls generalizing s with
  | nil => exact timed
  | cons c rest inductionHypothesis => exact inductionHypothesis (timed_step timed c)

theorem atMost_step (few : s.sr.AtMost 19) {c : SenderCall} (restrained : s.Restrained c) :
    (s.step radio c).sr.AtMost 19 := by
  cases c with
  | sendFragment seq data =>
      have outcome := sendFragment_outcome radio.recorded (s.io, []) s.sr seq data
      simp only [step, call]
      generalize SelectiveRepeat.sendFragment radio.recorded (s.io, []) s.sr seq data = result
        at outcome ⊢
      cases outcome with
      | duplicate => exact few
      | refused => exact few
      | failed => exact few.setSlot (Nat.zero_le _)
      | placed => exact few.setSlot (Nat.zero_le _)
  | handleAck seq =>
      simp only [step, call]
      rw [handleAck_eq]
      split
      · obtain ⟨_, _, _, _, sampledEq⟩ := sampled_eq radio.recorded (s.io, []) s.sr seq
        rw [sampledEq]
        exact few.setSlot (Nat.zero_le _)
      · exact few
  | handleNack seq => exact few.handleNack radio.recorded (s.io, []) restrained
  | tick maxSends => exact few.tickSlots radio.recorded (by decide) _ _ _ _ _
  | resetSender => exact fun _ => Nat.zero_le _

end Sender

/-- The backoff of a slot is exact precisely when its counter is below 32 and the product is no
multiple of 2^32; as long as no fragment is resent on a NACK a twentieth time, all backoffs
are exact. -/
theorem backoff_exact {σ : Type} (radio : Radio σ) (io : σ) (windowSize : Nat)
    {timeoutMs minRtoFloorMs : Nat} (timeout : timeoutMs ≤ 8000) (floor : minRtoFloorMs ≤ 8000)
    (peerAddr : Nat) (calls : List SenderCall) :
    let start := Sender.init io windowSize timeoutMs minRtoFloorMs peerAddr
    let sr := (start.run radio calls).sr
    sr.baseRtoMs ≤ 8000 ∧
    (∀ index, sr.BackoffExact (sr.window index).retries ↔
      (sr.window index).retries < 32 ∧
        (sr.baseRtoMs = 0 ∨ ¬ 2 ^ 32 ∣ sr.baseRtoMs * 2 ^ (sr.window index).retries)) ∧
    (Sender.Each radio Sender.Restrained start calls →
      ∀ index, sr.BackoffExact (sr.window index).retries) := by
  intro start sr
  have base : sr.baseRtoMs ≤ 8000 :=
    (Sender.timed_run (s := start) ⟨timeout, floor, Nat.zero_le _⟩ calls).baseRtoMs_le
  refine ⟨base, fun index => SelectiveRepeat.backoffExact_iff base _, fun each index => ?_⟩
  have few : sr.AtMost 19 :=
    Sender.Each.keeps (fun s _ restrained (few : s.sr.AtMost 19) =>
      Sender.atMost_step few restrained) each fun _ => Nat.zero_le _
  exact SelectiveRepeat.backoffExact_of_few base (few index)

/-- Two NACKs. -/
theorem backoff_exact_two_nacks :
    let sr := ((Sender.init ([], []) 64 1000 200 7).run Radio.scripted
      [.sendFragment 0 [1], .handleNack 0, .handleNack 0]).sr
    sr.backoffMs 2 = min rtoMaxMs (sr.baseRtoMs * 2 ^ 2) ∧ sr.baseRtoMs = 1000 := by
  have exact_ := (backoff_exact Radio.scripted ([], []) 64 (by decide : 1000 ≤ 8000)
    (by decide : 200 ≤ 8000) 7 [.sendFragment 0 [1], .handleNack 0, .handleNack 0]).2.2
    ⟨trivial, fun _ => by decide +kernel, fun _ => by decide +kernel, trivial⟩ 0
  exact ⟨exact_.2, by decide +kernel⟩

/-- 26 NACKs between two ticks: the backoff of 8000 ms wraps to zero. -/
theorem many_nacks_wrap_backoff :
    let sr := ((Sender.init ([], []) 64 8000 3600 7).run Radio.scripted
      (.sendFragment 0 [1] :: List.replicate 26 (.handleNack 0))).sr
    (sr.window 0).sent = true ∧ (sr.window 0).retries = 26 ∧ sr.baseRtoMs = 8000 ∧
      sr.backoffMs (sr.window 0).retries = 0 ∧
      min rtoMaxMs (sr.baseRtoMs * 2 ^ (sr.window 0).retries) = 5000 := by
  decide +kernel

end ForestLink.Protocol
