/-
Module: ForestLink.Lib.Bytes
Purpose: Overwriting a range of a list in place, and the XOR arithmetic behind a
  single-erasure parity code over zero-padded byte strings.
Trusted boundary: none
Main exports: copyAt, xorInto, xorAll, xorAll_eraseIdx, getD_xorInto
-/
import Mathlib.Data.List.GetD
import Mathlib.Data.List.Basic

namespace ForestLink.Lib

/-- Overwrite `source.length` elements of `target` from position `offset` on,
leaving every other element as it was. -/
def copyAt {α : Type} (target : List α) (offset : Nat) (source : List α) : List α :=
  target.take offset ++ source ++ target.drop (offset + source.length)

section CopyAt

variable {α : Type} {target source : List α} {offset : Nat}

@[simp] theorem length_copyAt (fits : offset + source.length ≤ target.length) :
    (copyAt target offset source).length = target.length := by
  simp only [copyAt, List.length_append, List.length_take, List.length_drop]
  omega

theorem getElem?_copyAt (fits : offset + source.length ≤ target.length) (i : Nat) :
    (copyAt target offset source)[i]? =
      if offset ≤ i ∧ i < offset + source.length then source[i - offset]? else target[i]? := by
  have takeLength : (target.take offset).length = offset := by
    rw [List.length_take]
    omega
  unfold copyAt
  by_cases before : i < offset
  · rw [List.append_assoc, List.getElem?_append_left (by omega),
      List.getElem?_take_of_lt before, if_neg (by omega)]
  · by_cases inside : i < offset + source.length
    · rw [List.append_assoc, List.getElem?_append_right (by omega), takeLength,
        List.getElem?_append_left (by omega), if_pos (by omega)]
    · rw [List.getElem?_append_right (by rw [List.length_append]; omega),
        List.getElem?_drop, if_neg (by omega), List.length_append, takeLength]
      congr 1
      omega

end CopyAt

/-- XOR the bytes of `data` into the front of `acc`. -/
def xorInto : List UInt8 → List UInt8 → List UInt8
  | [], _ => []
  | acc, [] => acc
  | byte :: acc, datum :: data => (byte ^^^ datum) :: xorInto acc data

@[simp] theorem length_xorInto (acc data : List UInt8) :
    (xorInto acc data).length = acc.length := by
  induction acc generalizing data with
  | nil => rfl
  | cons byte acc inductionHypothesis =>
      cases data with
      | nil => rfl
      | cons datum data => simp [xorInto, inductionHypothesis]

/-- Inside the accumulator, XOR-ing in a shorter string is XOR-ing in the string
padded with zeros. -/
theorem getD_xorInto (acc data : List UInt8) (i : Nat) (inside : i < acc.length) :
    (xorInto acc data).getD i 0 = acc.getD i 0 ^^^ data.getD i 0 := by
  induction acc generalizing data i with
  | nil => simp at inside
  | cons byte acc inductionHypothesis =>
      cases data with
      | nil => simp [xorInto]
      | cons datum data =>
          cases i with
          | zero => simp [xorInto]
          | succ i =>
              have insideTail : i < acc.length := by simpa using inside
              simpa [xorInto] using inductionHypothesis data i insideTail

/-- XOR of all bytes of a list. -/
def xorAll : List UInt8 → UInt8
  | [] => 0
  | byte :: rest => byte ^^^ xorAll rest

theorem xorAll_append (left right : List UInt8) :
    xorAll (left ++ right) = xorAll left ^^^ xorAll right := by
  induction left with
  | nil => simp [xorAll]
  | cons head rest inductionHypothesis =>
      rw [List.cons_append, xorAll, inductionHypothesis, xorAll, UInt8.xor_assoc]

@[simp] theorem length_foldl_xorInto (acc : List UInt8) (fragments : List (List UInt8)) :
    (fragments.foldl xorInto acc).length = acc.length := by
  induction fragments generalizing acc with
  | nil => rfl
  | cons head rest inductionHypothesis =>
      rw [List.foldl_cons, inductionHypothesis, length_xorInto]

/-- Accumulating whole fragments is, at every position, the XOR of their padded
bytes at that position. -/
theorem getD_foldl_xorInto (acc : List UInt8) (fragments : List (List UInt8)) (i : Nat)
    (inside : i < acc.length) :
    (fragments.foldl xorInto acc).getD i 0 =
      acc.getD i 0 ^^^ xorAll (fragments.map fun fragment => fragment.getD i 0) := by
  induction fragments generalizing acc with
  | nil => simp [xorAll]
  | cons head rest inductionHypothesis =>
      rw [List.foldl_cons, inductionHypothesis _ (by simpa using inside),
        getD_xorInto acc head i inside, List.map_cons, xorAll, UInt8.xor_assoc]

/-- The single-erasure law: the XOR of all symbols but one, together with the XOR
of all of them, is the missing symbol. -/
theorem xorAll_eraseIdx (symbols : List UInt8) (missing : Nat)
    (inside : missing < symbols.length) :
    xorAll (symbols.eraseIdx missing) ^^^ xorAll symbols = symbols.getD missing 0 := by
  induction symbols generalizing missing with
  | nil => simp at inside
  | cons head rest inductionHypothesis =>
      cases missing with
      | zero =>
          simp only [List.eraseIdx_zero, List.tail_cons, xorAll, List.getD_cons_zero]
          rw [UInt8.xor_comm head, ← UInt8.xor_assoc, UInt8.xor_self, UInt8.zero_xor]
      | succ missing =>
          have insideRest : missing < rest.length := by simpa using inside
          simp only [List.eraseIdx_cons_succ, xorAll, List.getD_cons_succ]
          rw [← inductionHypothesis missing insideRest, UInt8.xor_comm head,
            UInt8.xor_assoc, ← UInt8.xor_assoc head, UInt8.xor_self, UInt8.zero_xor]

end ForestLink.Lib
