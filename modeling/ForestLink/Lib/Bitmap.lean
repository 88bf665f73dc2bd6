/-
Module: ForestLink.Lib.Bitmap
Purpose: Byte-packed bitmaps with partial indexing, as used by array code that
  stores one flag per bit and indexes the backing bytes without a bounds check
  of its own.
Trusted boundary: none
Main exports: Bitmap, Bitmap.zeros, Bitmap.test?, Bitmap.set?, Bitmap.clear?,
  Bitmap.Marked, Bitmap.set?_spec, Bitmap.clear?_spec
-/
import Mathlib.Data.Nat.Bitwise
import Mathlib.Data.List.GetD

namespace ForestLink.Lib

/-- Bit `i` lives in byte `i / 8` at position `i % 8`. -/
abbrev Bitmap := List UInt8

namespace Bitmap

/-- A bitmap for `n` flags, all clear. -/
def zeros (n : Nat) : Bitmap := List.replicate ((n + 7) / 8) 0

/-- The one-bit mask of a bit position. -/
def mask (i : Nat) : UInt8 := 1 <<< UInt8.ofNat (i % 8)

/-- Read flag `i`; `none` is an index outside the backing bytes. -/
def test? (bits : Bitmap) (i : Nat) : Option Bool :=
  bits[i / 8]?.map fun byte => byte &&& mask i != 0

/-- Set flag `i`; `none` is an index outside the backing bytes. -/
def set? (bits : Bitmap) (i : Nat) : Option Bitmap :=
  bits[i / 8]?.map fun byte => bits.set (i / 8) (byte ||| mask i)

/-- Clear flag `i`; `none` is an index outside the backing bytes. -/
def clear? (bits : Bitmap) (i : Nat) : Option Bitmap :=
  bits[i / 8]?.map fun byte => bits.set (i / 8) (byte &&& ~~~ mask i)

/-- Flag `i` is inside the bitmap and set. -/
def Marked (bits : Bitmap) (i : Nat) : Prop := bits.test? i = some true

instance (bits : Bitmap) (i : Nat) : Decidable (bits.Marked i) :=
  inferInstanceAs (Decidable (_ = _))

private theorem mask_toNat (i : Nat) : (mask i).toNat = 2 ^ (i % 8) := by
  have small : i % 8 < 8 := Nat.mod_lt _ (by decide)
  have cases : i % 8 = 0 ∨ i % 8 = 1 ∨ i % 8 = 2 ∨ i % 8 = 3 ∨ i % 8 = 4 ∨
      i % 8 = 5 ∨ i % 8 = 6 ∨ i % 8 = 7 := by omega
  rcases cases with h | h | h | h | h | h | h | h <;> simp only [mask, h] <;> rfl

/-- Masking one bit out is testing that bit of the byte's value. -/
private theorem and_mask_ne_zero (byte : UInt8) (i : Nat) :
    (byte &&& mask i != 0) = byte.toNat.testBit (i % 8) := by
  have value : (byte &&& mask i).toNat =
      (byte.toNat.testBit (i % 8)).toNat * 2 ^ (i % 8) := by
    rw [UInt8.toNat_and, mask_toNat, Nat.and_two_pow]
  have zeroIff : byte &&& mask i = 0 ↔ byte.toNat.testBit (i % 8) = false := by
    rw [← UInt8.toNat_inj, value]
    cases byte.toNat.testBit (i % 8) <;> simp
  cases bit : byte.toNat.testBit (i % 8) with
  | false => simpa using zeroIff.mpr bit
  | true =>
      have nonzero : ¬ byte &&& mask i = 0 := by
        rw [zeroIff, bit]
        simp
      simpa using nonzero

/-- A mask has no other bit than its own. -/
private theorem mask_testBit (i j : Nat) :
    (mask i).toNat.testBit (j % 8) = decide (i % 8 = j % 8) := by
  rw [mask_toNat, Nat.testBit_two_pow]

/-- The complement of a mask lacks only the mask's own bit. -/
private theorem not_mask_testBit (i j : Nat) :
    (~~~ mask i).toNat.testBit (j % 8) = decide (i % 8 ≠ j % 8) := by
  have small : j % 8 < 8 := Nat.mod_lt _ (by decide)
  have bound : (mask i).toNat < 2 ^ 8 := UInt8.toNat_lt _
  have flip : (~~~ mask i).toNat = 2 ^ 8 - ((mask i).toNat + 1) := by
    rw [UInt8.toNat_not, ← Nat.sub_sub, Nat.sub_right_comm]
    rfl
  rw [flip, Nat.testBit_two_pow_sub_succ bound, mask_testBit]
  simp [small]

theorem test?_eq (bits : Bitmap) (i : Nat) :
    bits.test? i = bits[i / 8]?.map fun byte => byte.toNat.testBit (i % 8) := by
  simp only [test?, and_mask_ne_zero]

@[simp] theorem length_zeros (n : Nat) : (zeros n).length = (n + 7) / 8 := by
  simp [zeros]

/-- Reading is defined exactly on the indices the backing bytes cover. -/
theorem test?_isSome {bits : Bitmap} {i : Nat} (inside : i / 8 < bits.length) :
    ∃ flag, bits.test? i = some flag := by
  simp [test?, inside]

theorem div_lt_length {bits : Bitmap} {n i : Nat}
    (covers : bits.length = (n + 7) / 8) (inRange : i < n) :
    i / 8 < bits.length := by
  omega

theorem not_marked_zeros (n i : Nat) : ¬ (zeros n).Marked i := by
  intro marked
  unfold Marked at marked
  rw [test?_eq, Option.map_eq_some_iff] at marked
  obtain ⟨byte, found, bit⟩ := marked
  obtain ⟨_, rfl⟩ := List.getElem?_eq_some_iff.mp found
  simp [zeros] at bit

theorem test?_eq_false_of_not_marked {bits : Bitmap} {i : Nat}
    (inside : i / 8 < bits.length) (clear : ¬ bits.Marked i) :
    bits.test? i = some false := by
  obtain ⟨flag, read⟩ := test?_isSome inside
  cases flag with
  | false => exact read
  | true => exact absurd read clear

/-- Setting an in-range flag succeeds, keeps the backing size, and marks exactly
one more index. -/
theorem set?_spec {bits : Bitmap} {i : Nat} (inside : i / 8 < bits.length) :
    ∃ after, bits.set? i = some after ∧ after.length = bits.length ∧
      ∀ j, after.Marked j ↔ j = i ∨ bits.Marked j := by
  refine ⟨bits.set (i / 8) (bits[i / 8] ||| mask i), ?_, ?_, ?_⟩
  · simp [set?, inside]
  · simp
  · intro j
    unfold Marked
    rw [test?_eq, test?_eq]
    by_cases sameByte : i / 8 = j / 8
    · have insideJ : j / 8 < bits.length := sameByte ▸ inside
      have same : i % 8 = j % 8 ↔ j = i := by omega
      simp [sameByte, insideJ, mask_testBit, same, or_comm]
    · have other : j ≠ i := by
        intro equal
        exact sameByte (by rw [equal])
      simp [List.getElem?_set_ne sameByte, other]

theorem set?_length {bits after : Bitmap} {i : Nat}
    (written : bits.set? i = some after) : after.length = bits.length := by
  rw [set?, Option.map_eq_some_iff] at written
  obtain ⟨_, _, rfl⟩ := written
  simp

theorem set?_inside {bits after : Bitmap} {i : Nat}
    (written : bits.set? i = some after) : i / 8 < bits.length := by
  rw [set?, Option.map_eq_some_iff] at written
  obtain ⟨_, found, _⟩ := written
  exact (List.getElem?_eq_some_iff.mp found).1

/-- The same fact from a successful write. -/
theorem set?_marked {bits after : Bitmap} {i : Nat}
    (written : bits.set? i = some after) (j : Nat) :
    after.Marked j ↔ j = i ∨ bits.Marked j := by
  obtain ⟨other, otherWritten, _, marks⟩ := set?_spec (set?_inside written)
  rw [written] at otherWritten
  cases otherWritten
  exact marks j

/-- Clearing an in-range flag succeeds, keeps the backing size, and unmarks exactly that
index. -/
theorem clear?_spec {bits : Bitmap} {i : Nat} (inside : i / 8 < bits.length) :
    ∃ after, bits.clear? i = some after ∧ after.length = bits.length ∧
      ∀ j, after.Marked j ↔ j ≠ i ∧ bits.Marked j := by
  refine ⟨bits.set (i / 8) (bits[i / 8] &&& ~~~ mask i), ?_, ?_, ?_⟩
  · simp [clear?, inside]
  · simp
  · intro j
    unfold Marked
    rw [test?_eq, test?_eq]
    by_cases sameByte : i / 8 = j / 8
    · have insideJ : j / 8 < bits.length := sameByte ▸ inside
      have same : i % 8 = j % 8 ↔ j = i := by omega
      have bit : (bits[j / 8] &&& ~~~ mask i).toNat.testBit (j % 8) =
          (bits[j / 8].toNat.testBit (j % 8) && decide (i % 8 ≠ j % 8)) := by
        rw [UInt8.toNat_and, Nat.testBit_and, not_mask_testBit]
      simp only [sameByte, List.getElem?_set_self insideJ, Option.map_some, bit, insideJ,
        List.getElem?_eq_getElem, Option.some.injEq, Bool.and_eq_true, decide_eq_true_eq, ne_eq,
        same]
      exact And.comm
    · have other : j ≠ i := by
        intro equal
        exact sameByte (by rw [equal])
      simp [List.getElem?_set_ne sameByte, other]

end Bitmap

end ForestLink.Lib
