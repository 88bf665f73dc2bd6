/-
Module: ForestLink.Lib.ParallelArrays
Purpose: Two arrays of one length that hold the parts of one record at each place.
Trusted boundary: none
Main exports: zip_set, zip_getElem?
-/
import Mathlib.Data.List.Basic

namespace ForestLink.Lib

variable {α β : Type} {first : List α} {second : List β}

/-- Writing both parts at one place writes the record. -/
theorem zip_set (first : List α) (second : List β) (i : Nat) (x : α) (y : β) :
    (first.set i x).zip (second.set i y) = (first.zip second).set i (x, y) := by
  induction first generalizing second i with
  | nil => simp
  | cons head rest inductionHypothesis =>
      cases second with
      | nil => simp
      | cons other more =>
          cases i with
          | zero => rfl
          | succ i => exact congrArg _ (inductionHypothesis more i)

theorem length_zip_of_even (even : first.length = second.length) :
    (first.zip second).length = first.length := by
  rw [List.length_zip, ← even, Nat.min_self]

/-- Both arrays have a part at a place, or neither has. -/
theorem zip_getElem? (even : first.length = second.length) (i : Nat) :
    (∃ x y, first[i]? = some x ∧ second[i]? = some y ∧ (first.zip second)[i]? = some (x, y)) ∨
      first[i]? = none ∧ second[i]? = none ∧ (first.zip second)[i]? = none := by
  by_cases inside : i < first.length
  · have other : i < second.length := even ▸ inside
    refine .inl ⟨first[i], second[i], List.getElem?_eq_getElem inside,
      List.getElem?_eq_getElem other, ?_⟩
    exact List.getElem?_zip_eq_some.mpr
      ⟨List.getElem?_eq_getElem inside, List.getElem?_eq_getElem other⟩
  · have beyond := Nat.not_lt.mp inside
    refine .inr ⟨List.getElem?_eq_none beyond, List.getElem?_eq_none (even ▸ beyond), ?_⟩
    apply List.getElem?_eq_none
    rw [length_zip_of_even even]
    exact beyond

/-- The records of two arrays of one length, part by part. -/
theorem map_zip_of_even (even : first.length = second.length) :
    (first.zip second).map Prod.fst = first ∧ (first.zip second).map Prod.snd = second :=
  ⟨List.map_fst_zip (Nat.le_of_eq even), List.map_snd_zip (Nat.le_of_eq even.symm)⟩

end ForestLink.Lib
