/-
Module: ForestLink.Lib.FirstFree
Purpose: The search for the first index whose candidate is free: a bounded number of names
  cannot take all of a sequence of different candidates, so the search ends among the first
  ones, if it ends at all.
Trusted boundary: none
Main exports: firstFree, firstFree_eq_some_iff, firstFree_eq_none_iff, exists_untaken
-/
import Mathlib.Data.Finset.Card
import Mathlib.Data.Finset.Range
import Mathlib.Order.Interval.Finset.Nat

namespace ForestLink.Lib

/-- The loop `for i := first; ; i++` that stops at the first free index, given up after `fuel`
rounds. -/
def firstFree (free : Nat → Bool) : Nat → Nat → Option Nat
  | 0, _ => none
  | fuel + 1, i => if free i then some i else firstFree free fuel (i + 1)

variable {free : Nat → Bool}

theorem firstFree_eq_some_iff {fuel first found : Nat} :
    firstFree free fuel first = some found ↔
      first ≤ found ∧ found < first + fuel ∧ free found = true ∧
        ∀ i, first ≤ i → i < found → free i = false := by
  induction fuel generalizing first with
  | zero =>
      rw [firstFree]
      refine iff_of_false (by simp) ?_
      rintro ⟨atLeast, below, _⟩
      omega
  | succ fuel inductionHypothesis =>
      rw [firstFree]
      split
      · rename_i isFree
        constructor
        · rintro ⟨⟩
          exact ⟨Nat.le_refl _, by omega, isFree, fun i atLeast below => by omega⟩
        · rintro ⟨atLeast, _, _, earlier⟩
          by_contra other
          have here := earlier first (Nat.le_refl _) (by
            rcases Nat.lt_or_eq_of_le atLeast with less | same
            · exact less
            · exact absurd (congrArg some same) other)
          rw [isFree] at here
          cases here
      · rename_i taken
        rw [inductionHypothesis]
        constructor
        · rintro ⟨atLeast, below, isFree, earlier⟩
          refine ⟨by omega, by omega, isFree, fun i least less => ?_⟩
          rcases Nat.lt_or_eq_of_le least with later | rfl
          · exact earlier i later less
          · exact Bool.eq_false_iff.mpr taken
        · rintro ⟨atLeast, below, isFree, earlier⟩
          have notFirst : found ≠ first := by
            rintro rfl
            exact taken isFree
          exact ⟨by omega, by omega, isFree, fun i least less => earlier i (by omega) less⟩

theorem firstFree_eq_none_iff {fuel first : Nat} :
    firstFree free fuel first = none ↔ ∀ i, first ≤ i → i < first + fuel → free i = false := by
  induction fuel generalizing first with
  | zero =>
      refine iff_of_true rfl ?_
      intro i atLeast below
      omega
  | succ fuel inductionHypothesis =>
      rw [firstFree]
      split
      · rename_i isFree
        refine iff_of_false (Option.some_ne_none _) fun all => ?_
        rw [all first (Nat.le_refl _) (by omega)] at isFree
        cases isFree
      · rename_i taken
        rw [inductionHypothesis]
        constructor
        · intro all i atLeast below
          rcases Nat.lt_or_eq_of_le atLeast with later | rfl
          · exact all i later (by omega)
          · exact Bool.eq_false_iff.mpr taken
        · exact fun all i atLeast below => all i (by omega) (by omega)

/-- Among one candidate more than there are names one is not a name. -/
theorem exists_untaken {α : Type} {candidate : Nat → α} (different : candidate.Injective)
    (names : List α) (first : Nat) :
    ∃ i, first ≤ i ∧ i < first + (names.length + 1) ∧ candidate i ∉ names := by
  classical
  have more : names.toFinset.card <
      ((Finset.Ico first (first + (names.length + 1))).image candidate).card := by
    rw [Finset.card_image_of_injective _ different, Nat.card_Ico]
    have few := List.toFinset_card_le names
    omega
  obtain ⟨name, among, untaken⟩ := Finset.exists_mem_notMem_of_card_lt_card more
  obtain ⟨i, inside, rfl⟩ := Finset.mem_image.mp among
  obtain ⟨atLeast, below⟩ := Finset.mem_Ico.mp inside
  exact ⟨i, atLeast, below, fun member => untaken (List.mem_toFinset.mpr member)⟩

end ForestLink.Lib
