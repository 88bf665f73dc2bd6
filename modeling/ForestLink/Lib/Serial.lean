/-
Module: ForestLink.Lib.Serial
Purpose: Serial number arithmetic over a circular space of `2 * half` numbers.
Trusted boundary: none
Main exports: Serial.newer, Serial.offset, Serial.newer_iff
-/
import Mathlib.Algebra.Order.Group.Nat

namespace ForestLink.Lib.Serial

/-- How far `a` lies behind `base` when counting upwards around the circle. -/
def offset (half base a : Nat) : Nat := (a + 2 * half - base % (2 * half)) % (2 * half)

/-- `a` is newer than `b`: it follows within less than half of the circle. -/
def newer (half a b : Nat) : Bool := decide (0 < offset half b a ∧ offset half b a < half)

/-- The offset of a number against another one, from the offsets of both. -/
theorem offset_eq {half : Nat} (positive : 0 < half) (base a b : Nat) :
    offset half b a =
      (offset half base a + 2 * half - offset half base b) % (2 * half) := by
  have circle : 0 < 2 * half := Nat.mul_pos Nat.two_pos positive
  obtain ⟨size, sizeEq⟩ : ∃ size, size = 2 * half := ⟨_, rfl⟩
  unfold offset
  rw [← sizeEq] at circle ⊢
  have baseLt := Nat.mod_lt base circle
  have bLt := Nat.mod_lt b circle
  obtain ⟨x, xEq⟩ : ∃ x, x = base % size := ⟨_, rfl⟩
  have reduced : ∀ c, (c + size - x) % size = (c % size + size - x) % size := by
    intro c
    have whole := Nat.div_add_mod c size
    calc (c + size - x) % size = (size * (c / size) + (c % size + size - x)) % size := by
          congr 1
          omega
      _ = (c % size + size - x) % size := Nat.mul_add_mod ..
  rw [← xEq] at baseLt ⊢
  rw [reduced a, reduced b]
  have aLt := Nat.mod_lt a circle
  have left : (a + size - b % size) % size = (a % size + size - b % size) % size := by
    have whole := Nat.div_add_mod a size
    calc (a + size - b % size) % size =
          (size * (a / size) + (a % size + size - b % size)) % size := by
          congr 1
          omega
      _ = (a % size + size - b % size) % size := Nat.mul_add_mod ..
  rw [left]
  obtain ⟨y, yEq⟩ : ∃ y, y = a % size := ⟨_, rfl⟩
  obtain ⟨z, zEq⟩ : ∃ z, z = b % size := ⟨_, rfl⟩
  rw [← yEq] at aLt ⊢
  rw [← zEq] at bLt ⊢
  -- Both offsets and their difference are below the size, up to one turn.
  have turn : ∀ c, c < 2 * size → c % size = if c < size then c else c - size := by
    intro c small
    split
    · exact Nat.mod_eq_of_lt ‹_›
    · rw [Nat.mod_eq_sub_mod (by omega), Nat.mod_eq_of_lt (by omega)]
  rw [turn (y + size - x) (by omega), turn (z + size - x) (by omega),
    turn (y + size - z) (by omega)]
  split <;> split <;> rw [turn _ (by omega)] <;> split <;> split <;> omega

/-- Inside one half of the circle, counted from any base, newer means further. -/
theorem newer_iff {half base a b : Nat} (positive : 0 < half)
    (aInside : offset half base a < half) (bInside : offset half base b < half) :
    newer half a b = true ↔ offset half base b < offset half base a := by
  have difference := offset_eq positive base a b
  unfold newer
  rw [decide_eq_true_eq, difference]
  clear difference
  generalize offset half base a = x at aInside ⊢
  generalize offset half base b = y at bInside ⊢
  by_cases further : y < x
  · have reduced : (x + 2 * half - y) % (2 * half) = x - y := by
      rw [Nat.mod_eq_sub_mod (by omega), Nat.mod_eq_of_lt (by omega)]
      omega
    omega
  · by_cases same : x = y
    · have reduced : (x + 2 * half - y) % (2 * half) = 0 := by
        rw [same, Nat.add_sub_cancel_left]
        exact Nat.mod_self _
      omega
    · have reduced : (x + 2 * half - y) % (2 * half) = x + 2 * half - y :=
        Nat.mod_eq_of_lt (by omega)
      omega

/-- A number of the circle is not newer than itself. -/
theorem newer_self (half a : Nat) : newer half a a = false := by
  have zero : offset half a a = 0 := by
    unfold offset
    have whole := Nat.div_add_mod a (2 * half)
    calc (a + 2 * half - a % (2 * half)) % (2 * half)
        = (2 * half * (a / (2 * half) + 1)) % (2 * half) := by
          congr 1
          rw [Nat.mul_add, Nat.mul_one]
          omega
      _ = 0 := Nat.mul_mod_right ..
  simp [newer, zero]

end ForestLink.Lib.Serial
