/-
Module: ForestLink.Lib.Streak
Purpose: Detectors that report a name when it is seen a number of times in a row, against the
  history of what they saw and reported.
Trusted boundary: none
Main exports: Streak.count, Streak.observe, Streak.leading, Streak.Counts, Counts.observe,
  Counts.reports_iff, le_leading_iff
-/
import Mathlib.Data.List.TakeWhile

namespace ForestLink.Lib.Streak

variable {α : Type*} [DecidableEq α]

/-- The name that is followed, and how many times it was seen. -/
abbrev State (α : Type*) := Option (α × Nat)

/-- How many times a name was seen, now that it is seen again. -/
def count (state : State α) (name : α) : Nat :=
  match state with
  | some followed => if followed.1 = name then followed.2 + 1 else 1
  | none => 1

/-- What is reported, and the state after it; a report or a miss starts from the beginning. -/
def observe (threshold : Nat) (state : State α) : Option α → Option α × State α
  | none => (none, none)
  | some name =>
      if threshold ≤ count state name then (some name, none)
      else (none, some (name, count state name))

/-! ## Histories -/

/-- What was seen, and what was reported then. -/
structure Entry (α : Type*) where
  seen : Option α
  reported : Option α
deriving DecidableEq

/-- The name was seen and nothing was reported. -/
def Entry.Of (name : α) (entry : Entry α) : Prop :=
  entry.seen = some name ∧ entry.reported = none

instance (name : α) (entry : Entry α) : Decidable (entry.Of name) :=
  inferInstanceAs (Decidable (_ ∧ _))

/-- How many of the newest entries saw the name and reported nothing. -/
def leading (name : α) (history : List (Entry α)) : Nat :=
  (history.takeWhile fun entry => decide (entry.Of name)).length

theorem leading_cons_of {name : α} {entry : Entry α} (here : entry.Of name)
    (history : List (Entry α)) : leading name (entry :: history) = leading name history + 1 := by
  unfold leading
  rw [List.takeWhile_cons, decide_eq_true here]
  rfl

theorem leading_cons_not {name : α} {entry : Entry α} (other : ¬ entry.Of name)
    (history : List (Entry α)) : leading name (entry :: history) = 0 := by
  unfold leading
  rw [List.takeWhile_cons, decide_eq_false other]
  rfl

theorem le_leading_iff {name : α} {n : Nat} {history : List (Entry α)} :
    n ≤ leading name history ↔
      ∃ streak earlier, history = streak ++ earlier ∧ streak.length = n ∧
        ∀ entry ∈ streak, entry.Of name := by
  constructor
  · intro long
    refine ⟨history.take n, history.drop n, (List.take_append_drop n history).symm, ?_, ?_⟩
    · have inside := (List.takeWhile_prefix (p := fun entry => decide (Entry.Of name entry))
        (l := history)).length_le
      exact List.length_take_of_le (Nat.le_trans long inside)
    · have start : history.take n =
          (history.takeWhile fun entry => decide (entry.Of name)).take n := calc
        history.take n
            = (history.takeWhile (fun entry => decide (entry.Of name)) ++
                history.dropWhile fun entry => decide (entry.Of name)).take n := by
              rw [List.takeWhile_append_dropWhile]
          _ = _ := List.take_append_of_le_length long
      intro entry member
      rw [start] at member
      have kept := List.mem_takeWhile_imp (List.mem_of_mem_take member)
      exact of_decide_eq_true kept
  · rintro ⟨streak, earlier, rfl, rfl, same⟩
    induction streak with
    | nil => exact Nat.zero_le _
    | cons head rest inductionHypothesis =>
        rw [List.cons_append, leading_cons_of (same head List.mem_cons_self)]
        exact Nat.succ_le_succ
          (inductionHypothesis fun entry member => same entry (List.mem_cons_of_mem _ member))

/-! ## The count is the length of the streak -/

/-- The state counts, for every name, how often the newest entries saw it. -/
def Counts (threshold : Nat) (state : State α) (history : List (Entry α)) : Prop :=
  ∀ name, count state name = leading name history + 1 ∧ leading name history < threshold

variable {threshold : Nat} {state : State α} {history : List (Entry α)}

theorem counts_start (positive : 0 < threshold) : Counts threshold (none : State α) [] :=
  fun _ => ⟨rfl, positive⟩

/-- An entry after which the state starts from the beginning. -/
theorem counts_reset (positive : 0 < threshold) {entry : Entry α}
    (ended : ∀ name, ¬ entry.Of name) : Counts threshold none (entry :: history) := by
  intro name
  rw [leading_cons_not (ended name)]
  exact ⟨rfl, positive⟩

theorem Counts.observe (counts : Counts threshold state history) (seen : Option α) :
    Counts threshold (observe threshold state seen).2
      (⟨seen, (Streak.observe threshold state seen).1⟩ :: history) := by
  cases seen with
  | none =>
      intro name
      have positive : 0 < threshold := Nat.lt_of_le_of_lt (Nat.zero_le _) (counts name).2
      refine counts_reset positive (fun other of => ?_) name
      cases of.1
  | some name =>
      have positive : 0 < threshold := Nat.lt_of_le_of_lt (Nat.zero_le _) (counts name).2
      unfold Streak.observe
      dsimp only
      by_cases reached : threshold ≤ count state name
      · rw [if_pos reached]
        apply counts_reset positive
        intro other of
        cases of.2
      · rw [if_neg reached]
        intro other
        by_cases same : name = other
        · subst same
          have kept : Entry.Of name ⟨some name, none⟩ := ⟨rfl, rfl⟩
          rw [leading_cons_of kept, ← (counts name).1]
          exact ⟨if_pos rfl, Nat.lt_of_not_le reached⟩
        · have ended : ¬ Entry.Of other ⟨some name, none⟩ := fun of => same (Option.some.inj of.1)
          rw [leading_cons_not ended]
          exact ⟨if_neg same, positive⟩

/-- A name is reported when it is seen after a streak that lacks only this time. -/
theorem Counts.reports_iff (counts : Counts threshold state history) {seen : Option α} {name : α} :
    (Streak.observe threshold state seen).1 = some name ↔
      seen = some name ∧ threshold ≤ leading name history + 1 := by
  cases seen with
  | none => simp [Streak.observe]
  | some other =>
      have counted := (counts other).1
      unfold Streak.observe
      dsimp only
      split
      · rename_i reached
        rw [counted] at reached
        constructor
        · intro same
          obtain rfl := Option.some.inj same
          exact ⟨rfl, reached⟩
        · exact fun same => same.1
      · rename_i short
        rw [counted] at short
        constructor
        · intro none
          cases none
        · rintro ⟨same, reached⟩
          obtain rfl := Option.some.inj same
          exact absurd reached short

end ForestLink.Lib.Streak
