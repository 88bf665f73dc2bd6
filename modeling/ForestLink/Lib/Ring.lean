/-
Module: ForestLink.Lib.Ring
Purpose: Ring buffers: the entries between a read and a write position, and what
  writing, reading and taking back an entry do to them.
Trusted boundary: none
Main exports: Ring.position, Ring.window, Ring.window_push, Ring.window_pop,
  Ring.window_unpush, Ring.position_injective
-/
import Mathlib.Logic.Function.Basic
import Mathlib.Data.Nat.ModEq

namespace ForestLink.Lib.Ring

variable {α : Type*} {size : Nat}

/-- The cell `k` places behind `start`. -/
def position (size start k : Nat) : Nat := (start + k) % size

/-- The entries of `count` cells from `start` on. -/
def window (size : Nat) (ring : Nat → α) (start count : Nat) : List α :=
  (List.range count).map fun k => ring (position size start k)

theorem position_zero {start : Nat} (inside : start < size) : position size start 0 = start :=
  Nat.mod_eq_of_lt inside

theorem position_add (start k m : Nat) :
    position size (position size start k) m = position size start (k + m) := by
  unfold position
  rw [Nat.mod_add_mod, Nat.add_assoc]

/-- Less than one turn apart, different distances are different cells. -/
theorem position_injective {start k m : Nat} (kInside : k < size) (mInside : m < size)
    (same : position size start k = position size start m) : k = m := by
  have reduced : Nat.ModEq size k m := Nat.ModEq.add_left_cancel' start same
  exact Nat.ModEq.eq_of_lt_of_lt reduced kInside mInside

/-- Writing the cell behind the entries appends to them, while there is room. -/
theorem window_push (ring : Nat → α) (start : Nat) {count : Nat} (room : count < size)
    (value : α) :
    window size (Function.update ring (position size start count) value) start (count + 1) =
      window size ring start count ++ [value] := by
  unfold window
  rw [List.range_succ, List.map_append, List.map_singleton, Function.update_self]
  congr 1
  apply List.map_congr_left
  intro k member
  have before : k < count := List.mem_range.mp member
  apply Function.update_of_ne
  intro same
  exact absurd (position_injective (Nat.lt_trans before room) room same) (Nat.ne_of_lt before)

/-- Writing outside of the entries leaves them alone. -/
theorem window_frame (ring : Nat → α) (start : Nat) {count : Nat} (room : count < size)
    (value : α) :
    window size (Function.update ring (position size start count) value) start count =
      window size ring start count := by
  have pushed := window_push ring start room value
  have shorter := congrArg (List.take count) pushed
  unfold window at shorter ⊢
  simpa [List.range_succ] using shorter

/-- The first entry, and the entries behind it. -/
theorem window_pop (ring : Nat → α) {start : Nat} (inside : start < size) (count : Nat) :
    window size ring start (count + 1) =
      ring start :: window size ring (position size start 1) count := by
  unfold window
  rw [List.range_succ_eq_map, List.map_cons, position_zero inside, List.map_map]
  congr 1
  apply List.map_congr_left
  intro k _
  rw [Function.comp_apply, position_add, Nat.add_comm 1 k]

/-- Taking back the last entry. -/
theorem window_unpush (ring : Nat → α) (start count : Nat) :
    window size ring start count = (window size ring start (count + 1)).dropLast := by
  unfold window
  rw [List.range_succ, List.map_append, List.map_singleton, List.dropLast_concat]

/-- One step back from the cell `k + 1` places behind `start`. -/
theorem position_pred (positive : 0 < size) (start k : Nat) :
    (position size start (k + 1) + size - 1) % size = position size start k := by
  unfold position
  have whole := Nat.div_add_mod (start + (k + 1)) size
  generalize quotient : (start + (k + 1)) / size = q at whole
  generalize remainder : (start + (k + 1)) % size = r at whole
  have total : start + k + size = size * q + (r + size - 1) := by omega
  calc (r + size - 1) % size = (size * q + (r + size - 1)) % size := (Nat.mul_add_mod ..).symm
    _ = (start + k + size) % size := by rw [total]
    _ = (start + k) % size := Nat.add_mod_right ..

end ForestLink.Lib.Ring
