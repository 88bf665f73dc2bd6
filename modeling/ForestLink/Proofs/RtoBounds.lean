/-
Module: ForestLink.Proofs.RtoBounds
Purpose: The round-trip estimate of a sender window stays between the samples it was made of,
  its 32-bit arithmetic never wraps, and the timeout stays inside its limits.
Trusted boundary: none
Main exports: FitsIn32, exactRto, updateRto_exact, Estimates, Sender.samples,
  rto_estimator_bounded
-/
import ForestLink.Mesh.Engine
import ForestLink.Proofs.SenderInvariant

namespace ForestLink.Mesh

/-- The floor that a transfer over the mesh sets is at most 4000 ms. -/
theorem computeMinRtoFloorMs_le (hops : Nat) : computeMinRtoFloorMs hops ≤ 4000 := by
  unfold computeMinRtoFloorMs
  split
  · decide
  · exact Nat.min_le_right _ _

end ForestLink.Mesh

namespace ForestLink.Protocol

/-! ## Weighted means -/

/-- A mean with truncating division is no greater than both its parts. -/
theorem mean_le (weight : Nat) {old new bound : Nat} (oldBelow : old ≤ bound)
    (newBelow : new ≤ bound) :
    (weight * old + new) / (weight + 1) ≤ bound := by
  apply Nat.div_le_of_le_mul
  calc weight * old + new ≤ weight * bound + bound :=
        Nat.add_le_add (Nat.mul_le_mul_left weight oldBelow) newBelow
    _ = (weight + 1) * bound := (Nat.succ_mul weight bound).symm

/-- A mean with truncating division is no less than both its parts. -/
theorem le_mean (weight : Nat) {old new bound : Nat} (oldAbove : bound ≤ old)
    (newAbove : bound ≤ new) :
    bound ≤ (weight * old + new) / (weight + 1) := by
  rw [Nat.le_div_iff_mul_le (Nat.succ_pos weight), Nat.mul_comm, Nat.succ_mul]
  exact Nat.add_le_add (Nat.mul_le_mul_left weight oldAbove) newAbove

namespace SelectiveRepeat

/-! ## One update -/

/-- Every value that the update of `handle_ack` computes with this sample fits its 32 bits:
the two casts and `delta` as signed numbers, the sums as unsigned ones. -/
structure FitsIn32 (sr : SelectiveRepeat) (rtt : Nat) : Prop where
  sample : rtt < 2 ^ 31
  estimate : sr.srttMs < 2 ^ 31
  delta : (rtt - sr.srttMs : Int).natAbs < 2 ^ 31
  varied : 3 * sr.rttvarMs + (rtt - sr.srttMs : Int).natAbs < 2 ^ 32
  smoothed : 7 * sr.srttMs + rtt < 2 ^ 32
  timeout : (sr.updateRto rtt).srttMs + 4 * (sr.updateRto rtt).rttvarMs < 2 ^ 32

/-- The update in unbounded arithmetic. -/
def exactRto (sr : SelectiveRepeat) (rtt : Nat) : SelectiveRepeat :=
  let srtt := if sr.rttInitialized then (7 * sr.srttMs + rtt) / 8 else rtt
  let rttvar :=
    if sr.rttInitialized then (3 * sr.rttvarMs + (rtt - sr.srttMs : Int).natAbs) / 4
    else rtt / 2
  { sr with
    srttMs := srtt
    rttvarMs := rttvar
    rttInitialized := true
    rtoMs := min (max (max (srtt + 4 * rttvar) rtoMinMs) sr.minRtoFloorMs) rtoMaxMs }

theorem toInt32_sub32 {a b : Nat} (aSmall : a < 2 ^ 31) (bSmall : b < 2 ^ 31) :
    toInt32 (sub32 a b) = (a - b : Int) := by
  unfold toInt32 sub32
  split <;> omega

theorem updateRto_exact {sr : SelectiveRepeat} {rtt : Nat} (fits : sr.FitsIn32 rtt) :
    sr.updateRto rtt = sr.exactRto rtt := by
  have timeout := fits.timeout
  unfold updateRto at timeout ⊢
  unfold exactRto
  dsimp only at timeout ⊢
  rw [toInt32_sub32 fits.sample fits.estimate, Nat.mod_eq_of_lt fits.varied,
    Nat.mod_eq_of_lt fits.smoothed] at timeout ⊢
  rw [Nat.mod_eq_of_lt timeout]

/-! ## What the estimate is made of -/

/-- The estimate of a window with this floor after these samples: it lies between them, and
the variation is no greater than the greatest. -/
structure Estimates (floor : Nat) (seen : List Nat) (sr : SelectiveRepeat) : Prop where
  limit : sr.minRtoFloorMs = floor
  started : sr.rttInitialized = true ↔ seen ≠ []
  below : ∀ rtt ∈ seen, rtt < 2 ^ 28
  least : seen ≠ [] → ∀ lo, (∀ rtt ∈ seen, lo ≤ rtt) → lo ≤ sr.srttMs
  greatest : ∀ hi, (∀ rtt ∈ seen, rtt ≤ hi) → sr.srttMs ≤ hi ∧ sr.rttvarMs ≤ hi
  timeout : seen ≠ [] → max rtoMinMs floor ≤ sr.rtoMs ∧ sr.rtoMs ≤ rtoMaxMs

variable {floor : Nat} {seen : List Nat} {sr after : SelectiveRepeat}

theorem Estimates.congr (estimates : sr.Estimates floor seen)
    (same : (after.minRtoFloorMs, after.rttInitialized, after.srttMs, after.rttvarMs,
        after.rtoMs) =
      (sr.minRtoFloorMs, sr.rttInitialized, sr.srttMs, sr.rttvarMs, sr.rtoMs)) :
    after.Estimates floor seen := by
  simp only [Prod.mk.injEq] at same
  obtain ⟨sameFloor, started, srtt, rttvar, rto⟩ := same
  exact
    { limit := sameFloor.trans estimates.limit
      started := started ▸ estimates.started
      below := estimates.below
      least := srtt ▸ estimates.least
      greatest := srtt ▸ rttvar ▸ estimates.greatest
      timeout := rto ▸ estimates.timeout }

theorem estimates_start (limit : sr.minRtoFloorMs = floor) (fresh : sr.rttInitialized = false)
    (srtt : sr.srttMs = 0) (rttvar : sr.rttvarMs = 0) : sr.Estimates floor [] where
  limit := limit
  started := by simp [fresh]
  below _ none := absurd none List.not_mem_nil
  least some := absurd rfl some
  greatest hi _ := by
    rw [srtt, rttvar]
    exact ⟨Nat.zero_le hi, Nat.zero_le hi⟩
  timeout some := absurd rfl some

/-- A sample no greater than a bound on the earlier ones differs from the estimate by no more
than the bound. -/
theorem Estimates.delta_le (estimates : sr.Estimates floor seen) {rtt hi : Nat}
    (below : ∀ earlier ∈ rtt :: seen, earlier ≤ hi) : (rtt - sr.srttMs : Int).natAbs ≤ hi := by
  have sample := below rtt List.mem_cons_self
  have estimate := (estimates.greatest hi fun earlier member =>
    below earlier (List.mem_cons_of_mem rtt member)).1
  omega

theorem Estimates.fitsIn32 (estimates : sr.Estimates floor seen) {rtt : Nat}
    (small : rtt < 2 ^ 28) : sr.FitsIn32 rtt := by
  have all : ∀ earlier ∈ rtt :: seen, earlier ≤ 2 ^ 28 - 1 := by
    intro earlier member
    rcases List.mem_cons.mp member with rfl | before
    · exact Nat.le_sub_one_of_lt small
    · exact Nat.le_sub_one_of_lt (estimates.below earlier before)
  have delta := estimates.delta_le all
  obtain ⟨srtt, rttvar⟩ := estimates.greatest _ fun earlier member =>
    all earlier (List.mem_cons_of_mem rtt member)
  have timeout : (sr.updateRto rtt).srttMs + 4 * (sr.updateRto rtt).rttvarMs < 2 ^ 32 := by
    have smoothed : 7 * sr.srttMs + rtt < 2 ^ 32 := by omega
    have varied : 3 * sr.rttvarMs + (rtt - sr.srttMs : Int).natAbs < 2 ^ 32 := by omega
    unfold updateRto
    dsimp only
    rw [toInt32_sub32 (by omega) (by omega), Nat.mod_eq_of_lt smoothed, Nat.mod_eq_of_lt varied]
    split <;> omega
  exact ⟨by omega, by omega, by omega, by omega, by omega, timeout⟩

/-- One more sample. -/
theorem Estimates.sample (estimates : sr.Estimates floor seen) (low : floor ≤ 4000) {rtt : Nat}
    (small : rtt < 2 ^ 28) : (sr.updateRto rtt).Estimates floor (rtt :: seen) := by
  rw [updateRto_exact (estimates.fitsIn32 small)]
  have limits : rtoMinMs = 200 ∧ rtoMaxMs = 5000 := ⟨rfl, rfl⟩
  refine
    { limit := estimates.limit
      started := by simp [exactRto]
      below := ?_
      least := ?_
      greatest := ?_
      timeout := ?_ }
  · intro earlier member
    rcases List.mem_cons.mp member with rfl | before
    · exact small
    · exact estimates.below earlier before
  · intro _ lo above
    have here := above rtt List.mem_cons_self
    unfold exactRto
    dsimp only
    split
    · rename_i started
      exact le_mean 7 (estimates.least (estimates.started.mp started) lo
        fun earlier member => above earlier (List.mem_cons_of_mem rtt member)) here
    · exact here
  · intro hi below
    have here := below rtt List.mem_cons_self
    obtain ⟨srtt, rttvar⟩ := estimates.greatest hi fun earlier member =>
      below earlier (List.mem_cons_of_mem rtt member)
    unfold exactRto
    dsimp only
    split
    · exact ⟨mean_le 7 srtt here,
        mean_le 3 rttvar (estimates.delta_le below)⟩
    · exact ⟨here, (Nat.div_le_self rtt 2).trans here⟩
  · intro _
    unfold exactRto
    dsimp only
    rw [estimates.limit]
    omega

end SelectiveRepeat

/-! ## Runs -/

namespace Sender

open SelectiveRepeat

variable {σ : Type} (radio : Radio σ)

/-- The sample that a call takes into the estimate. -/
def sampleOf (s : Sender σ) : SenderCall → Option Nat
  | .handleAck seq => s.sr.rttSample radio s.io seq
  | _ => none

/-- The samples after a call, newest first; a reset forgets them. -/
def sampledAfter (s : Sender σ) (seen : List Nat) : SenderCall → List Nat
  | .resetSender => []
  | c => (s.sampleOf radio c).toList ++ seen

/-- The samples of a run since the last reset, behind those seen before it. -/
def samples : Sender σ → List Nat → List SenderCall → List Nat
  | _, seen, [] => seen
  | s, seen, c :: rest => samples (s.step radio c) (s.sampledAfter radio seen c) rest

/-- A sample that the call takes is below 2^28 ms. -/
def SamplesBelow (s : Sender σ) (c : SenderCall) : Prop :=
  ∀ rtt ∈ s.sampleOf radio c, rtt < 2 ^ 28

instance (s : Sender σ) (c : SenderCall) : Decidable (s.SamplesBelow radio c) :=
  inferInstanceAs (Decidable (∀ rtt ∈ s.sampleOf radio c, rtt < 2 ^ 28))

variable {radio} {s : Sender σ} {floor : Nat} {seen : List Nat}

theorem estimates_step (estimates : s.sr.Estimates floor seen) (low : floor ≤ 4000)
    {c : SenderCall} (below : s.SamplesBelow radio c) :
    (s.step radio c).sr.Estimates floor (s.sampledAfter radio seen c) := by
  cases c with
  | sendFragment seq data =>
      have outcome := sendFragment_outcome radio.recorded (s.io, []) s.sr seq data
      simp only [step, call]
      generalize SelectiveRepeat.sendFragment radio.recorded (s.io, []) s.sr seq data = result
        at outcome ⊢
      cases outcome <;> exact estimates.congr rfl
  | handleAck seq =>
      have sampled : (s.sr.sampled radio.recorded (s.io, []) seq).Estimates floor
          ((s.sr.rttSample radio s.io seq).toList ++ seen) := by
        have same : s.sr.rttSample radio.recorded (s.io, []) seq = s.sr.rttSample radio s.io seq :=
          rfl
        unfold SelectiveRepeat.sampled
        rw [same]
        cases taken : s.sr.rttSample radio s.io seq with
        | none => exact estimates
        | some rtt => exact estimates.sample low (below rtt taken)
      simp only [step, call]
      rw [handleAck_eq]
      split
      · exact sampled.congr rfl
      · rename_i ignored
        have none : s.sr.rttSample radio.recorded (s.io, []) seq = none := by
          simp [rttSample, ignored]
        rw [SelectiveRepeat.sampled, none] at sampled
        exact sampled
  | handleNack seq =>
      obtain ⟨window, failed, shape⟩ := handleNack_shape radio.recorded (s.io, []) s.sr seq
      simp only [step, call, shape]
      exact estimates.congr rfl
  | tick maxSends =>
      obtain ⟨window, shape⟩ := tickSlots_shape radio.recorded
        (radio.recorded.nowMs (s.io, [])).1 maxSends (List.range s.sr.windowSize)
        (radio.recorded.nowMs (s.io, [])).2 s.sr 0
      simp only [step, call, tick, shape]
      exact estimates.congr rfl
  | resetSender => exact estimates_start estimates.limit rfl rfl rfl

theorem estimates_run (estimates : s.sr.Estimates floor seen) (low : floor ≤ 4000)
    {calls : List SenderCall} (each : Each radio (SamplesBelow radio) s calls) :
    (s.run radio calls).sr.Estimates floor (s.samples radio seen calls) := by
  induction calls generalizing s seen with
  | nil => exact estimates
  | cons c rest inductionHypothesis =>
      exact inductionHypothesis (estimates_step estimates low each.1) each.2

end Sender

/-- In every run whose samples stay below 2^28 ms, with a floor of at most 4000 ms: the
smoothed time lies between the least and the greatest sample since the last reset, the
variation is at most the greatest, after the first sample the timeout lies between the greater
of 200 ms and the floor and 5000 ms, and taking one more sample does not wrap anywhere. -/
theorem rto_estimator_bounded {σ : Type} (radio : Radio σ) (io : σ)
    (windowSize timeoutMs : Nat) {floor : Nat} (low : floor ≤ 4000) (peerAddr : Nat)
    (calls : List SenderCall)
    (each : Sender.Each radio (Sender.SamplesBelow radio)
      (Sender.init io windowSize timeoutMs floor peerAddr) calls) :
    let start := Sender.init io windowSize timeoutMs floor peerAddr
    let sr := (start.run radio calls).sr
    let seen := start.samples radio [] calls
    (∀ least, IsLeast { rtt | rtt ∈ seen } least → least ≤ sr.srttMs) ∧
    (∀ greatest, IsGreatest { rtt | rtt ∈ seen } greatest →
      sr.srttMs ≤ greatest ∧ sr.rttvarMs ≤ greatest) ∧
    (seen ≠ [] → max rtoMinMs floor ≤ sr.rtoMs ∧ sr.rtoMs ≤ rtoMaxMs) ∧
    ∀ rtt < 2 ^ 28, sr.FitsIn32 rtt ∧ sr.updateRto rtt = sr.exactRto rtt := by
  intro start sr seen
  have estimates : sr.Estimates floor seen :=
    Sender.estimates_run (s := start) (SelectiveRepeat.estimates_start rfl rfl rfl rfl) low each
  refine ⟨fun least isLeast => ?_, fun greatest isGreatest => ?_, estimates.timeout,
    fun rtt small => ?_⟩
  · exact estimates.least (List.ne_nil_of_mem isLeast.1) least fun rtt member => isLeast.2 member
  · exact estimates.greatest greatest fun rtt member => isGreatest.2 member
  · have fits := estimates.fitsIn32 small
    exact ⟨fits, SelectiveRepeat.updateRto_exact fits⟩

/-- Two samples of 100 ms and 300 ms. -/
theorem rto_estimator_bounded_two_samples :
    let sr := ((Sender.init ([0, 100, 200, 500], []) 4 3000 200 7).run Radio.scripted
      [.sendFragment 0 [1], .handleAck 0, .sendFragment 1 [1], .handleAck 1]).sr
    100 ≤ sr.srttMs ∧ sr.srttMs ≤ 300 ∧ sr.rttvarMs ≤ 300 ∧ sr.srttMs = 125 ∧
      sr.rtoMs = 473 := by
  intro sr
  have low : 200 ≤ 4000 := Mesh.computeMinRtoFloorMs_le 1
  have bounded := rto_estimator_bounded Radio.scripted ([0, 100, 200, 500], []) 4 3000 low 7
    [.sendFragment 0 [1], .handleAck 0, .sendFragment 1 [1], .handleAck 1]
    ⟨by decide +kernel, by decide +kernel, by decide +kernel, by decide +kernel, trivial⟩
  have seen : (Sender.init ([0, 100, 200, 500], []) 4 3000 200 7).samples Radio.scripted []
      [.sendFragment 0 [1], .handleAck 0, .sendFragment 1 [1], .handleAck 1] = [300, 100] := by
    decide +kernel
  dsimp only at bounded
  rw [seen] at bounded
  have least : IsLeast { rtt | rtt ∈ [300, 100] } 100 := ⟨by decide, by simp [lowerBounds]⟩
  have greatest : IsGreatest { rtt | rtt ∈ [300, 100] } 300 := ⟨by decide, by simp [upperBounds]⟩
  exact ⟨bounded.1 100 least, (bounded.2.1 300 greatest).1, (bounded.2.1 300 greatest).2,
    by decide +kernel, by decide +kernel⟩

end ForestLink.Protocol
