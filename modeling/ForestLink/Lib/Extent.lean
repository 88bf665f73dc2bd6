/-
Module: ForestLink.Lib.Extent
Purpose: Ranges of a list, and buffers that hold copies of them.
Trusted boundary: none
Main exports: extent, length_extent, extent_append, extent_congr, extent_copyAt_self,
  extent_copyAt_apart
-/
import ForestLink.Lib.Bytes

namespace ForestLink.Lib

variable {α : Type}

/-- The elements from `offset` on, `len` of them where there are as many. -/
def extent (xs : List α) (offset len : Nat) : List α := (xs.drop offset).take len

variable {xs ys : List α} {offset len : Nat}

@[simp] theorem length_extent (xs : List α) (offset len : Nat) :
    (extent xs offset len).length = min len (xs.length - offset) := by
  simp [extent]

theorem length_extent_of_le (inside : offset + len ≤ xs.length) :
    (extent xs offset len).length = len := by
  rw [length_extent]
  omega

theorem extent_all (xs : List α) : extent xs 0 xs.length = xs := by
  simp [extent]

theorem extent_of_length_le (beyond : xs.length ≤ offset) : extent xs offset len = [] := by
  rw [extent, List.drop_eq_nil_of_le beyond, List.take_nil]

/-- Beyond the end of the list nothing follows. -/
theorem extent_min (xs : List α) (offset len : Nat) :
    extent xs offset (min len (xs.length - offset)) = extent xs offset len := by
  rw [extent, extent, ← List.length_drop, ← List.take_eq_take_min]

theorem extent_append (xs : List α) (offset first second : Nat) :
    extent xs offset first ++ extent xs (offset + first) second =
      extent xs offset (first + second) := by
  rw [extent, extent, extent, List.take_add, List.drop_drop]

/-- A range of a range. -/
theorem extent_extent {inner count : Nat} (inside : inner + count ≤ len) :
    extent (extent xs offset len) inner count = extent xs (offset + inner) count := by
  rw [extent, extent, extent, List.drop_take, List.take_take, List.drop_drop,
    Nat.min_eq_left (by omega)]

/-- Two lists that agree on a range agree on its parts. -/
theorem extent_congr {here there inner count : Nat}
    (same : extent xs here len = extent ys there len) (inside : inner + count ≤ len) :
    extent xs (here + inner) count = extent ys (there + inner) count := by
  rw [← extent_extent inside, same, extent_extent inside]

/-! ## Buffers -/

variable {target source : List α} {place : Nat}

/-- What was copied into a buffer is found where it was put. -/
theorem extent_copyAt_self (fits : place ≤ target.length) :
    extent (copyAt target place source) place source.length = source := by
  have before : (target.take place).length = place := List.length_take_of_le fits
  rw [extent, copyAt, List.append_assoc, List.drop_left' before, List.take_left]

/-- The ranges beside it are as they were. -/
theorem extent_copyAt_apart (fits : place + source.length ≤ target.length)
    (apart : offset + len ≤ place ∨ place + source.length ≤ offset) :
    extent (copyAt target place source) offset len = extent target offset len := by
  apply List.ext_getElem?
  intro i
  rw [extent, extent, List.getElem?_take, List.getElem?_take, List.getElem?_drop,
    List.getElem?_drop, getElem?_copyAt fits]
  split
  · rw [if_neg (by omega)]
  · rfl

end ForestLink.Lib
