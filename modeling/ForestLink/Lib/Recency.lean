/-
Module: ForestLink.Lib.Recency
Purpose: Cells that are overwritten in any order, with the number of the write that filled each
  one: how many writes a value has survived that is the least recent of all.
Trusted boundary: none
Main exports: Stamped, Recency, Recency.write, Recency.Distinct, Recency.LeastRecent,
  Distinct.write, Distinct.count_of_leastRecent, Distinct.survives
-/
import Mathlib.Data.List.Nodup
import Mathlib.Order.Interval.Finset.Nat

namespace ForestLink.Lib

/-- A value and the number of its write, counted from 1. -/
structure Stamped (α : Type) where
  number : Nat
  value : α
deriving Repr

/-- Cells, blank or with the value that was written last, and how many writes there were. -/
structure Recency (α : Type) where
  cells : List (Option (Stamped α))
  count : Nat := 0
deriving Repr

namespace Recency

variable {α : Type} {r : Recency α} {i : Nat} {value : α}

def blank (size : Nat) : Recency α where
  cells := List.replicate size none

def write (r : Recency α) (i : Nat) (value : α) : Recency α where
  cells := r.cells.set i (some ⟨r.count + 1, value⟩)
  count := r.count + 1

/-- The value in a cell. -/
def get? (r : Recency α) (i : Nat) : Option (Stamped α) := r.cells[i]?.join

/-- No cell is blank or was written before the value. -/
def LeastRecent (r : Recency α) (stamped : Stamped α) : Prop :=
  ∀ cell ∈ r.cells, ∃ other ∈ cell, stamped.number ≤ other.number

instance (r : Recency α) (stamped : Stamped α) : Decidable (r.LeastRecent stamped) :=
  inferInstanceAs (Decidable (∀ cell ∈ r.cells, _))

/-- Different cells show different writes that were made. -/
structure Distinct (r : Recency α) : Prop where
  made : ∀ i, ∀ stamped ∈ r.get? i, stamped.number ≤ r.count
  apart : ∀ i j, ∀ stamped ∈ r.get? i, ∀ other ∈ r.get? j, stamped.number = other.number → i = j

theorem get?_eq_some {stamped : Stamped α} :
    r.get? i = some stamped ↔ r.cells[i]? = some (some stamped) := Option.join_eq_some_iff

theorem get?_write_self (inside : i < r.cells.length) :
    (r.write i value).get? i = some ⟨r.count + 1, value⟩ := by
  rw [get?_eq_some]
  exact List.getElem?_set_self inside

theorem get?_write_of_ne {j : Nat} (other : i ≠ j) : (r.write i value).get? j = r.get? j :=
  congrArg Option.join (List.getElem?_set_ne other)

/-- A cell after a write: the written one, or as before. -/
theorem get?_write {j : Nat} {stamped : Stamped α} (here : stamped ∈ (r.write i value).get? j) :
    j = i ∧ stamped = ⟨r.count + 1, value⟩ ∨ j ≠ i ∧ stamped ∈ r.get? j := by
  by_cases hit : j = i
  · subst hit
    have some := get?_eq_some.mp here
    have inside : j < r.cells.length := by
      have := (List.getElem?_eq_some_iff.mp some).1
      rwa [write, List.length_set] at this
    rw [get?_write_self inside] at here
    exact .inl ⟨rfl, (Option.some.inj here).symm⟩
  · rw [get?_write_of_ne (Ne.symm hit)] at here
    exact .inr ⟨hit, here⟩

theorem get?_blank (size i : Nat) : (blank size : Recency α).get? i = none := by
  unfold get? blank
  dsimp only
  rw [List.getElem?_replicate]
  split <;> rfl

theorem distinct_blank (size : Nat) : Distinct (blank size : Recency α) := by
  constructor
  · intro i stamped here
    rw [get?_blank] at here
    exact absurd here (Option.not_mem_none _)
  · intro i j stamped here
    rw [get?_blank] at here
    exact absurd here (Option.not_mem_none _)

namespace Distinct

theorem write (distinct : r.Distinct) (i : Nat) (value : α) : (r.write i value).Distinct := by
  constructor
  · intro j stamped here
    rcases get?_write here with ⟨_, rfl⟩ | ⟨_, old⟩
    · exact Nat.le_refl _
    · exact (distinct.made j stamped old).trans (Nat.le_succ _)
  · intro j k stamped here other there same
    rcases get?_write here with ⟨rfl, rfl⟩ | ⟨_, old⟩
    · rcases get?_write there with ⟨rfl, _⟩ | ⟨_, otherOld⟩
      · rfl
      · exact absurd same (Nat.ne_of_gt (Nat.lt_succ_of_le (distinct.made k other otherOld)))
    · rcases get?_write there with ⟨rfl, rfl⟩ | ⟨_, otherOld⟩
      · exact absurd same (Nat.ne_of_lt (Nat.lt_succ_of_le (distinct.made j stamped old)))
      · exact distinct.apart j k stamped old other otherOld same

/-- The least recent value has seen all other cells being written. -/
theorem count_of_leastRecent (distinct : r.Distinct) {stamped : Stamped α}
    (here : stamped ∈ r.get? i) (least : r.LeastRecent stamped) :
    stamped.number + r.cells.length ≤ r.count + 1 := by
  -- The number of each cell; the cells have different ones, from the least up to the count.
  let number := fun i => (r.get? i).elim 0 Stamped.number
  have filled : ∀ i ∈ Finset.range r.cells.length,
      ∃ other ∈ r.get? i, number i = other.number ∧ stamped.number ≤ other.number := by
    intro i inside
    have cell := List.getElem?_eq_getElem (Finset.mem_range.mp inside)
    obtain ⟨other, here, older⟩ := least _ (List.getElem_mem (Finset.mem_range.mp inside))
    have found : r.get? i = some other := get?_eq_some.mpr (cell.trans (congrArg some here))
    refine ⟨other, found, ?_, older⟩
    change (r.get? i).elim 0 Stamped.number = other.number
    rw [found]
    rfl
  have cards : (Finset.range r.cells.length).card ≤
      (Finset.Icc stamped.number r.count).card := by
    apply Finset.card_le_card_of_injOn number
    · intro i inside
      obtain ⟨other, here, same, older⟩ := filled i inside
      rw [same]
      exact Finset.mem_coe.mpr (Finset.mem_Icc.mpr ⟨older, distinct.made i other here⟩)
    · intro i first j second same
      obtain ⟨one, here, oneNumber, _⟩ := filled i first
      obtain ⟨other, there, otherNumber, _⟩ := filled j second
      exact distinct.apart i j one here other there
        (oneNumber.symm.trans (same.trans otherNumber))
  rw [Finset.card_range, Nat.card_Icc] at cards
  have made := distinct.made i stamped here
  omega

/-- A write that takes the place of a value of some kind only if that is the least recent of all
or another one of its kind is there leaves a value of the kind, unless as many writes as there are
cells were made since. -/
theorem survives (distinct : r.Distinct) (i : Nat) (value : α) {P : Stamped α → Prop} {first : Nat}
    (here : ∃ j, ∃ stamped ∈ r.get? j, P stamped)
    (since : ∀ stamped, P stamped → first ≤ stamped.number)
    (spares : ∀ stamped ∈ r.get? i, P stamped →
      r.LeastRecent stamped ∨ ∃ j, j ≠ i ∧ ∃ other ∈ r.get? j, P other) :
    (∃ j, ∃ stamped ∈ (r.write i value).get? j, P stamped) ∨
      first + r.cells.length ≤ (r.write i value).count := by
  obtain ⟨j, stamped, found, kind⟩ := here
  by_cases hit : j = i
  · subst hit
    rcases spares stamped found kind with least | ⟨k, other, spared, there, otherKind⟩
    · have count := distinct.count_of_leastRecent found least
      have after := since stamped kind
      change _ ∨ first + r.cells.length ≤ r.count + 1
      exact .inr (by omega)
    · refine .inl ⟨k, spared, ?_, otherKind⟩
      rwa [get?_write_of_ne (Ne.symm other)]
  · refine .inl ⟨j, stamped, ?_, kind⟩
    rwa [get?_write_of_ne (Ne.symm hit)]

end Distinct

end Recency

end ForestLink.Lib
