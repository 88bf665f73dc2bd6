/-
Module: ForestLink.Lib.Erasure
Purpose: The erasure code with one parity over byte strings of different lengths: the parity
  is the XOR of the strings padded with zeros, and any one string is the XOR of the others
  and the parity.
Trusted boundary: none
Main exports: maxLength, padTo, xorPad, xorPad_eraseIdx, take_foldl_xorInto
-/
import Mathlib.Data.List.InsertIdx
import ForestLink.Lib.Bytes

namespace ForestLink.Lib

/-- The length of the longest string. -/
def maxLength : List (List UInt8) → Nat
  | [] => 0
  | head :: rest => max head.length (maxLength rest)

/-- A string with zeros behind it. -/
def padTo (length : Nat) (string : List UInt8) : List UInt8 :=
  string ++ List.replicate (length - string.length) 0

/-- The XOR of strings padded to the longest of them. -/
def xorPad (strings : List (List UInt8)) : List UInt8 :=
  strings.foldl xorInto (List.replicate (maxLength strings) 0)

variable {strings : List (List UInt8)}

theorem length_le_maxLength {string : List UInt8} (member : string ∈ strings) :
    string.length ≤ maxLength strings := by
  induction strings with
  | nil => cases member
  | cons head rest inductionHypothesis =>
      rcases List.mem_cons.mp member with rfl | later
      · exact Nat.le_max_left _ _
      · exact Nat.le_trans (inductionHypothesis later) (Nat.le_max_right _ _)

theorem maxLength_le {bound : Nat} (all : ∀ string ∈ strings, string.length ≤ bound) :
    maxLength strings ≤ bound := by
  induction strings with
  | nil => exact Nat.zero_le _
  | cons head rest inductionHypothesis =>
      apply Nat.max_le.mpr
      exact ⟨all head List.mem_cons_self, inductionHypothesis fun string member =>
        all string (List.mem_cons_of_mem _ member)⟩

theorem getD_zeros (size i : Nat) : (List.replicate size (0 : UInt8)).getD i 0 = 0 := by
  simp [List.getD_eq_getElem?_getD, List.getElem?_replicate]
  split <;> rfl

@[simp] theorem length_xorPad (strings : List (List UInt8)) :
    (xorPad strings).length = maxLength strings := by
  simp [xorPad]

@[simp] theorem length_padTo {length : Nat} {string : List UInt8} (fits : string.length ≤ length) :
    (padTo length string).length = length := by
  simp [padTo, fits]

theorem getD_padTo (length : Nat) (string : List UInt8) (i : Nat) :
    (padTo length string).getD i 0 = string.getD i 0 := by
  unfold padTo
  by_cases inside : i < string.length
  · rw [List.getD_append _ _ _ _ inside]
  · rw [List.getD_append_right _ _ _ _ (Nat.le_of_not_lt inside), getD_zeros,
      List.getD_eq_default _ _ (Nat.le_of_not_lt inside)]

/-- In a buffer that is long enough each byte is the XOR of the padded strings' bytes. -/
theorem getD_foldl_zeros {size i : Nat} (inside : i < size) :
    (strings.foldl xorInto (List.replicate size 0)).getD i 0 =
      xorAll (strings.map fun string => string.getD i 0) := by
  rw [getD_foldl_xorInto _ _ _ (by simpa using inside), getD_zeros,
    UInt8.zero_xor]

theorem getD_xorPad {i : Nat} (inside : i < maxLength strings) :
    (xorPad strings).getD i 0 = xorAll (strings.map fun string => string.getD i 0) :=
  getD_foldl_zeros inside

theorem ext_getD {first second : List UInt8} (length : first.length = second.length)
    (bytes : ∀ i < first.length, first.getD i 0 = second.getD i 0) : first = second := by
  apply List.ext_getElem length
  intro i here there
  have same := bytes i here
  rwa [List.getD_eq_getElem _ _ here, List.getD_eq_getElem _ _ there] at same

/-- What stands in the used part of a longer buffer. -/
theorem take_foldl_xorInto {size : Nat} (fits : maxLength strings ≤ size) :
    (strings.foldl xorInto (List.replicate size 0)).take (maxLength strings) = xorPad strings := by
  apply ext_getD
  · simp [fits]
  · intro i inside
    have short : i < maxLength strings := by
      rw [List.length_take] at inside
      omega
    rw [getD_xorPad short, ← getD_foldl_zeros (Nat.lt_of_lt_of_le short fits)]
    simp [List.getD_eq_getElem?_getD, short]

/-- With the parity in the place of one string the longest length stays. -/
theorem maxLength_withParity (strings : List (List UInt8)) (k : Nat) :
    maxLength (strings.eraseIdx k ++ [xorPad strings]) = maxLength strings := by
  apply Nat.le_antisymm
  · apply maxLength_le
    intro string member
    rcases List.mem_append.mp member with kept | parity
    · exact length_le_maxLength (List.mem_of_mem_eraseIdx kept)
    · exact Nat.le_of_eq (by rw [List.mem_singleton.mp parity, length_xorPad])
  · have parity : xorPad strings ∈ strings.eraseIdx k ++ [xorPad strings] := by simp
    simpa using length_le_maxLength parity

/-- One erasure: the other strings and the parity give the lost string back, padded. -/
theorem xorPad_eraseIdx {k : Nat} (inside : k < strings.length) :
    xorPad (strings.eraseIdx k ++ [xorPad strings]) =
      padTo (maxLength strings) (strings.getD k []) := by
  have member : strings.getD k [] ∈ strings := by
    rw [List.getD_eq_getElem _ _ inside]
    exact List.getElem_mem inside
  apply ext_getD
  · rw [length_xorPad, maxLength_withParity, length_padTo (length_le_maxLength member)]
  · intro i short
    rw [length_xorPad, maxLength_withParity] at short
    rw [getD_xorPad (by rwa [maxLength_withParity]), getD_padTo, List.map_append, xorAll_append,
      List.map_singleton, getD_xorPad short, xorAll, xorAll, UInt8.xor_zero, ← List.eraseIdx_map,
      xorAll_eraseIdx _ k (by simpa using inside)]
    simp [List.getD_eq_getElem?_getD, inside]

end ForestLink.Lib
