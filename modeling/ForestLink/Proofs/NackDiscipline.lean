/-
Module: ForestLink.Proofs.NackDiscipline
Purpose: Over any interleaving of its calls, the cloud's selective repeat asks only for missing
  chunks near its base, in order, a few at a time, and for each one every four seconds at most.
Trusted boundary: none
Main exports: SelectiveRepeat.Scanned, scanTimeouts_scanned, scanStalled_scanned, NackRun,
  NackRun.step, NackRun.Spaced, cloud_nack_discipline
-/
import ForestLink.Cloud.SelectiveRepeat
import Mathlib.Data.List.Nodup
import Mathlib.Data.List.Range

namespace ForestLink.Cloud

namespace SelectiveRepeat

variable {sr after : SelectiveRepeat} {now cooldown : Int} {seqs sent : List Nat}

/-! ## What a scan sends -/

/-- A scan of `seqs` sent the numbers `sent`: in scan order, at most `cap` of them, each missing
and past its cooldown; they are stamped, and nothing else is. -/
structure Scanned (sr after : SelectiveRepeat) (now cooldown : Int) (seqs sent : List Nat)
    (cap : Nat) : Prop where
  sublist : sent.Sublist seqs
  few : sent.length ≤ cap
  missing : ∀ seq ∈ sent, ¬ sr.Received seq
  cooled : ∀ seq ∈ sent, ∀ last, sr.lastNackTime seq = some last → cooldown ≤ now - last
  stamped : ∀ seq ∈ sent, after.lastNackTime seq = some now
  others : ∀ seq, seq ∉ sent → after.lastNackTime seq = sr.lastNackTime seq
  marks : SameMarks sr after
  window : after.windowSize = sr.windowSize

namespace Scanned

theorem nothing (sr : SelectiveRepeat) (now cooldown : Int) (seqs : List Nat) (cap : Nat) :
    Scanned sr sr now cooldown seqs [] cap where
  sublist := List.nil_sublist seqs
  few := Nat.zero_le cap
  missing _ none := absurd none List.not_mem_nil
  cooled _ none := absurd none List.not_mem_nil
  stamped _ none := absurd none List.not_mem_nil
  others _ _ := rfl
  marks := ⟨rfl, rfl, rfl⟩
  window := rfl

theorem skip {seq : Nat} {cap : Nat} (scanned : Scanned sr after now cooldown seqs sent cap) :
    Scanned sr after now cooldown (seq :: seqs) sent cap :=
  { scanned with sublist := scanned.sublist.cons seq }

/-- A number that is sent in front of a scan of others. -/
theorem send {seq cap count : Nat} (missing : ¬ sr.Received seq)
    (cooled : sr.coolingDown seq now cooldown = false) (distinct : seq ∉ seqs)
    (scanned : Scanned { sr.stampNack seq now with nackCount := count } after now cooldown seqs
      sent cap) :
    Scanned sr after now cooldown (seq :: seqs) (seq :: sent) (cap + 1) := by
  have fresh : seq ∉ sent := fun member => distinct (scanned.sublist.subset member)
  have other : ∀ later, later ≠ seq →
      (Function.update sr.lastNackTime seq (some now)) later = sr.lastNackTime later :=
    fun later ne => Function.update_of_ne ne ..
  refine ⟨scanned.sublist.cons_cons seq, Nat.succ_le_succ scanned.few, ?_, ?_, ?_, ?_,
    ⟨scanned.marks.bitmap, scanned.marks.totalChunks, scanned.marks.expectedBase⟩,
    scanned.window⟩
  · intro later member
    rcases List.mem_cons.mp member with rfl | behind
    · exact missing
    · exact scanned.missing later behind
  · intro later member last known
    rcases List.mem_cons.mp member with rfl | behind
    · unfold coolingDown at cooled
      rw [known] at cooled
      exact Int.not_lt.mp (of_decide_eq_false cooled)
    · have ne : later ≠ seq := fun same => fresh (same ▸ behind)
      exact scanned.cooled later behind last ((other later ne).trans known)
  · intro later member
    by_cases behind : later ∈ sent
    · exact scanned.stamped later behind
    · obtain rfl := (List.mem_cons.mp member).resolve_right behind
      exact (scanned.others later behind).trans (Function.update_self ..)
  · intro later absent
    have ne : later ≠ seq := fun same => absent (same ▸ List.mem_cons_self)
    exact (scanned.others later fun behind => absent (List.mem_cons_of_mem seq behind)).trans
      (other later ne)

end Scanned

theorem scanTimeouts_scanned (sr : SelectiveRepeat) (now : Int) (left : Nat)
    (positive : 0 < left) {seqs : List Nat} (distinct : seqs.Nodup) :
    Scanned sr (sr.scanTimeouts now left seqs).1 now 4000 seqs
      (sr.scanTimeouts now left seqs).2 left := by
  induction seqs generalizing sr left with
  | nil => exact .nothing sr now 4000 [] left
  | cons seq rest inductionHypothesis =>
      obtain ⟨fresh, later⟩ := List.nodup_cons.mp distinct
      rw [scanTimeouts]
      split
      · exact (inductionHypothesis sr left positive later).skip
      · rename_i missing
        split
        · exact (inductionHypothesis sr left positive later).skip
        · rename_i cooled
          have ready := Bool.eq_false_iff.mpr cooled
          split
          · rename_i last
            obtain rfl : left = 0 + 1 := by omega
            exact .send missing ready fresh (.nothing _ now 4000 rest 0)
          · obtain ⟨less, rfl⟩ : ∃ less, left = less + 1 := ⟨left - 1, by omega⟩
            exact .send missing ready fresh (inductionHypothesis _ less (by omega) later)

theorem scanStalled_scanned (sr : SelectiveRepeat) (now cooldown : Int) (left : Nat)
    {seqs : List Nat} (distinct : seqs.Nodup) :
    Scanned sr (sr.scanStalled now cooldown left seqs).1 now cooldown seqs
      (sr.scanStalled now cooldown left seqs).2 left := by
  induction seqs generalizing sr left with
  | nil => cases left <;> exact .nothing sr now cooldown [] _
  | cons seq rest inductionHypothesis =>
      obtain ⟨fresh, later⟩ := List.nodup_cons.mp distinct
      cases left with
      | zero => exact .nothing sr now cooldown (seq :: rest) 0
      | succ left =>
          rw [scanStalled]
          split
          · exact (inductionHypothesis sr (left + 1) later).skip
          · rename_i missing
            split
            · exact (inductionHypothesis sr (left + 1) later).skip
            · rename_i cooled
              exact .send missing (Bool.eq_false_iff.mpr cooled) fresh
                (inductionHypothesis _ left later)

/-- The numbers from the base on, in order. -/
def probed (sr : SelectiveRepeat) (stop : Nat) : List Nat :=
  (List.range (stop - sr.expectedBase)).map (sr.expectedBase + ·)

theorem probed_ascending (sr : SelectiveRepeat) (stop : Nat) :
    (sr.probed stop).Pairwise (· < ·) := by
  refine List.pairwise_map.mpr (List.pairwise_lt_range.imp fun less => ?_)
  exact Nat.add_lt_add_left less _

theorem mem_probed {stop seq : Nat} (member : seq ∈ sr.probed stop) :
    sr.expectedBase ≤ seq ∧ seq < stop := by
  obtain ⟨offset, inside, rfl⟩ := List.mem_map.mp member
  have below := List.mem_range.mp inside
  omega

/-- `CheckTimeouts(6)` scans the near part of the window. -/
theorem checkTimeouts_scanned (sr : SelectiveRepeat) (now : Int) :
    ∃ stop, stop ≤ sr.expectedBase + 64 ∧ stop ≤ sr.expectedBase + sr.windowSize ∧
      Scanned sr (sr.checkTimeouts 6 now).1 now 4000 (sr.probed stop)
        (sr.checkTimeouts 6 now).2 6 := by
  refine ⟨min (min (sr.expectedBase + sr.windowSize) sr.totalChunks) (sr.expectedBase + 64),
    Nat.min_le_right _ _, ?_, ?_⟩
  · exact Nat.le_trans (Nat.min_le_left _ _) (Nat.min_le_left _ _)
  · unfold checkTimeouts
    split
    · exact .nothing ..
    · have distinct := (sr.probed_ascending (min (min (sr.expectedBase + sr.windowSize)
        sr.totalChunks) (sr.expectedBase + 64))).imp Nat.ne_of_lt
      exact scanTimeouts_scanned sr now 6 (by decide) distinct

/-- `BuildFilteredStallNACKs(8, 64, cooldown)` scans the chunks near the base. -/
theorem buildFilteredStallNacks_scanned (sr : SelectiveRepeat) {cooldown : Int}
    (positive : 0 < cooldown) (now : Int) :
    ∃ stop, stop ≤ sr.expectedBase + 64 ∧
      Scanned sr (sr.buildFilteredStallNacks 8 64 cooldown now).1 now cooldown (sr.probed stop)
        (sr.buildFilteredStallNacks 8 64 cooldown now).2 8 := by
  refine ⟨min (sr.expectedBase + 64) sr.totalChunks, Nat.min_le_left _ _, ?_⟩
  unfold buildFilteredStallNacks
  split
  · exact .nothing ..
  · have distinct := (sr.probed_ascending (min (sr.expectedBase + 64) sr.totalChunks)).imp
      Nat.ne_of_lt
    dsimp only
    rw [if_neg (Int.not_le.mpr positive)]
    exact scanStalled_scanned sr now cooldown 8 distinct

end SelectiveRepeat

/-! ## Runs -/

/-- The calls of the engine; a stall NACK in the tail phase has the shorter cooldown. -/
inductive NackCall where
  | chunk (seq : Int)
  | timeouts
  | stall (tailPhase : Bool)

/-- A transfer with the NACKs so far and their times in milliseconds, newest first. -/
structure NackRun where
  sr : SelectiveRepeat
  sent : List (Nat × Int) := []

namespace NackRun

/-- The cooldown that the engine passes to `BuildFilteredStallNACKs`. -/
def perSeqCooldown (tailPhase : Bool) : Int := if tailPhase then 4000 else 8000

/-- A call at a clock reading: the state after it, and the numbers that it NACKs. -/
def call (sr : SelectiveRepeat) (now : Int) : NackCall → SelectiveRepeat × List Nat
  | .chunk seq => (if seq < 0 then sr else (sr.onChunkReceived seq.toNat).1, [])
  | .timeouts => sr.checkTimeouts 6 now
  | .stall tailPhase => sr.buildFilteredStallNacks 8 64 (perSeqCooldown tailPhase) now

def step (r : NackRun) (timed : NackCall × Int) : NackRun :=
  let called := call r.sr timed.2 timed.1
  { sr := called.1
    sent := (called.2.map fun seq => (seq, timed.2)).reverse ++ r.sent }

def run (r : NackRun) (calls : List (NackCall × Int)) : NackRun := calls.foldl step r

/-- The most NACKs of one call. -/
def cap : NackCall → Nat
  | .chunk _ => 0
  | .timeouts => 6
  | .stall _ => 8

variable {r : NackRun}

/-- The base is the least missing number, every NACK is stamped, and two NACKs of one number are
four seconds apart. -/
structure Spaced (r : NackRun) : Prop where
  started : r.sr.Started
  stamped : ∀ nack ∈ r.sent, ∃ last, r.sr.lastNackTime nack.1 = some last ∧ nack.2 ≤ last
  apart : r.sent.Pairwise fun newer older => newer.1 = older.1 → older.2 + 4000 ≤ newer.2

theorem advanceBase_lastNackTime (sr : SelectiveRepeat) (fuel : Nat) :
    (sr.advanceBase fuel).lastNackTime = sr.lastNackTime := by
  induction fuel generalizing sr with
  | zero => rfl
  | succ fuel inductionHypothesis =>
      unfold SelectiveRepeat.advanceBase
      split
      · exact inductionHypothesis { sr with expectedBase := sr.expectedBase + 1 }
      · rfl

theorem onChunkReceived_lastNackTime (sr : SelectiveRepeat) (seq : Nat) :
    (sr.onChunkReceived seq).1.lastNackTime = sr.lastNackTime := by
  unfold SelectiveRepeat.onChunkReceived
  split
  · rfl
  · refine (advanceBase_lastNackTime ..).trans ?_
    unfold SelectiveRepeat.markReceived
    split <;> rfl

theorem Spaced.chunk (spaced : r.Spaced) (seq : Int) (now : Int) :
    (r.step (.chunk seq, now)).Spaced := by
  have stamps : (call r.sr now (.chunk seq)).1.lastNackTime = r.sr.lastNackTime := by
    change (if seq < 0 then r.sr else (r.sr.onChunkReceived seq.toNat).1).lastNackTime = _
    split
    · rfl
    · exact onChunkReceived_lastNackTime ..
  refine ⟨?_, ?_, spaced.apart⟩
  · change (if seq < 0 then r.sr else (r.sr.onChunkReceived seq.toNat).1).Started
    split
    · exact spaced.started
    · by_cases inside : seq.toNat < r.sr.totalChunks
      · exact (SelectiveRepeat.onChunkReceived_spec spaced.started inside).1
      · unfold SelectiveRepeat.onChunkReceived
        rw [if_pos (Nat.le_of_not_lt inside)]
        exact spaced.started
  · intro nack member
    change ∃ last, (call r.sr now (.chunk seq)).1.lastNackTime nack.1 = some last ∧ _
    rw [stamps]
    exact spaced.stamped nack member

/-- A scan with a cooldown of four seconds or more keeps the distance. -/
theorem Spaced.scan (spaced : r.Spaced) {now cooldown : Int} {after : SelectiveRepeat}
    {seqs sent : List Nat} {most : Nat} (long : 4000 ≤ cooldown) (distinct : sent.Nodup)
    (scanned : SelectiveRepeat.Scanned r.sr after now cooldown seqs sent most) :
    Spaced ⟨after, (sent.map fun seq => (seq, now)).reverse ++ r.sent⟩ where
  started := scanned.marks.started spaced.started
  stamped := by
    intro nack member
    rcases List.mem_append.mp member with new | old
    · obtain ⟨seq, known, rfl⟩ := List.mem_map.mp (List.mem_reverse.mp new)
      exact ⟨now, scanned.stamped seq known, Int.le_refl now⟩
    · obtain ⟨last, stamp, before⟩ := spaced.stamped nack old
      by_cases again : nack.1 ∈ sent
      · have cooled := scanned.cooled nack.1 again last stamp
        exact ⟨now, scanned.stamped nack.1 again, by omega⟩
      · exact ⟨last, (scanned.others nack.1 again).trans stamp, before⟩
  apart := by
    refine List.pairwise_append.mpr ⟨?_, spaced.apart, ?_⟩
    · have apart : (sent.map fun seq => (seq, now)).Pairwise fun first second =>
          first.1 ≠ second.1 := List.pairwise_map.mpr distinct
      exact List.pairwise_reverse.mpr (apart.imp fun ne same => absurd same.symm ne)
    · intro newer new older old same
      obtain ⟨seq, known, rfl⟩ := List.mem_map.mp (List.mem_reverse.mp new)
      obtain ⟨last, stamp, before⟩ := spaced.stamped older old
      dsimp only at same ⊢
      rw [← same] at stamp
      have cooled := scanned.cooled seq known last stamp
      omega

theorem nodup_of_scanned {sr after : SelectiveRepeat} {now cooldown : Int} {sent : List Nat}
    {stop most : Nat}
    (scanned : SelectiveRepeat.Scanned sr after now cooldown (sr.probed stop) sent most) :
    sent.Pairwise (· < ·) :=
  (sr.probed_ascending stop).sublist scanned.sublist

theorem four_seconds_le (tailPhase : Bool) : 4000 ≤ perSeqCooldown tailPhase := by
  cases tailPhase <;> decide

theorem perSeqCooldown_pos (tailPhase : Bool) : 0 < perSeqCooldown tailPhase := by
  cases tailPhase <;> decide

theorem Spaced.step (spaced : r.Spaced) (timed : NackCall × Int) : (r.step timed).Spaced := by
  obtain ⟨made, now⟩ := timed
  cases made with
  | chunk seq => exact spaced.chunk seq now
  | timeouts =>
      obtain ⟨stop, _, _, scanned⟩ := r.sr.checkTimeouts_scanned now
      exact spaced.scan (Int.le_refl 4000) ((nodup_of_scanned scanned).imp Nat.ne_of_lt) scanned
  | stall tailPhase =>
      obtain ⟨stop, _, scanned⟩ :=
        r.sr.buildFilteredStallNacks_scanned (perSeqCooldown_pos tailPhase) now
      exact spaced.scan (four_seconds_le tailPhase)
        ((nodup_of_scanned scanned).imp Nat.ne_of_lt) scanned

theorem Spaced.run (spaced : r.Spaced) (calls : List (NackCall × Int)) :
    (r.run calls).Spaced := by
  induction calls generalizing r with
  | nil => exact spaced
  | cons timed rest inductionHypothesis => exact inductionHypothesis (spaced.step timed)

end NackRun

open NackRun in
/-- For every transfer, any interleaving of the calls and any clock: the base is the least missing
number; two NACKs of one number are four seconds apart, whoever sent them; and each call NACKs
at most its cap of numbers, in ascending order, each missing and less than 64 above the base, for
`CheckTimeouts` also inside the window. -/
theorem cloud_nack_discipline (sr : SelectiveRepeat) (totalChunks : Nat)
    (calls : List (NackCall × Int)) :
    let r := NackRun.run ⟨sr.startSession totalChunks, []⟩ calls
    (∀ seq < r.sr.expectedBase, r.sr.Received seq) ∧ ¬ r.sr.Received r.sr.expectedBase ∧
    (r.sent.Pairwise fun newer older => newer.1 = older.1 → older.2 + 4000 ≤ newer.2) ∧
    ∀ made now, (call r.sr now made).2.length ≤ cap made ∧
      (call r.sr now made).2.Pairwise (· < ·) ∧
      ∀ seq ∈ (call r.sr now made).2, ¬ r.sr.Received seq ∧ r.sr.expectedBase ≤ seq ∧
        seq < r.sr.expectedBase + 64 ∧
        (made = .timeouts → seq < r.sr.expectedBase + r.sr.windowSize) := by
  intro r
  have fresh : Spaced ⟨sr.startSession totalChunks, []⟩ :=
    ⟨SelectiveRepeat.started_startSession sr totalChunks,
      fun _ none => absurd none List.not_mem_nil, .nil⟩
  have spaced : r.Spaced := fresh.run calls
  refine ⟨spaced.started.belowBase, spaced.started.atBase, spaced.apart, fun made now => ?_⟩
  cases made with
  | chunk seq => exact ⟨Nat.le_refl 0, .nil, fun _ none => absurd none List.not_mem_nil⟩
  | timeouts =>
      obtain ⟨stop, near, window, scanned⟩ := r.sr.checkTimeouts_scanned now
      refine ⟨scanned.few, nodup_of_scanned scanned, fun seq member => ?_⟩
      have range := SelectiveRepeat.mem_probed (scanned.sublist.subset member)
      exact ⟨scanned.missing seq member, range.1, by omega, fun _ => by omega⟩
  | stall tailPhase =>
      obtain ⟨stop, near, scanned⟩ :=
        r.sr.buildFilteredStallNacks_scanned (perSeqCooldown_pos tailPhase) now
      refine ⟨scanned.few, nodup_of_scanned scanned, fun seq member => ?_⟩
      have range := SelectiveRepeat.mem_probed (scanned.sublist.subset member)
      exact ⟨scanned.missing seq member, range.1, by omega, fun other => by cases other⟩

end ForestLink.Cloud
