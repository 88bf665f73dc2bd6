/-
Module: ForestLink.Lib.CText
Purpose: Text as bytes, the way C reads it: strings up to their NUL, `strstr`, `strtol`,
  and decimal numbers.
Trusted boundary: none
Main exports: ascii, decimal, cString, strstr, strtol, strtol_decimal
-/
import Mathlib.Data.List.Basic
import Mathlib.Data.List.TakeWhile
import Mathlib.Tactic.IntervalCases

namespace ForestLink.Lib

/-- The bytes of a text whose characters are all below 256. -/
def ascii (text : String) : List UInt8 := text.toList.map fun c => UInt8.ofNat c.toNat

/-! ## Decimal numbers -/

def isDigit (byte : UInt8) : Bool := 0x30 ≤ byte && byte ≤ 0x39

/-- The digits of a number, the first not a zero unless the number is. -/
def decimal (n : Nat) : List UInt8 := (Nat.toDigits 10 n).map fun c => UInt8.ofNat c.toNat

/-- The number that digits stand for. -/
def digitsValue (digits : List UInt8) : Nat :=
  digits.foldl (fun value byte => 10 * value + (byte.toNat - 0x30)) 0

theorem digitByte (d : Nat) (small : d < 10) :
    UInt8.ofNat (Nat.digitChar d).toNat = UInt8.ofNat (0x30 + d) := by
  interval_cases d <;> rfl

theorem decimal_of_lt {n : Nat} (small : n < 10) : decimal n = [UInt8.ofNat (0x30 + n)] := by
  rw [decimal, Nat.toDigits_of_lt_base small, List.map_singleton, digitByte n small]

/-- The last digit comes off the end. -/
theorem decimal_of_le {n : Nat} (large : 10 ≤ n) :
    decimal n = decimal (n / 10) ++ [UInt8.ofNat (0x30 + n % 10)] := by
  rw [decimal, Nat.toDigits_of_base_le (by decide) large, List.map_append, List.map_singleton,
    digitByte _ (Nat.mod_lt _ (by decide))]
  rfl

theorem toNat_digit {d : Nat} (small : d < 10) : (UInt8.ofNat (0x30 + d)).toNat = 0x30 + d := by
  rw [UInt8.toNat_ofNat']
  omega

theorem isDigit_digit {d : Nat} (small : d < 10) : isDigit (UInt8.ofNat (0x30 + d)) = true := by
  interval_cases d <;> rfl

theorem decimal_ne_nil (n : Nat) : decimal n ≠ [] := by
  simp [decimal, Nat.toDigits_ne_nil]

theorem isDigit_of_mem_decimal {n : Nat} : ∀ byte ∈ decimal n, isDigit byte = true := by
  induction n using Nat.strongRecOn with
  | ind n inductionHypothesis =>
      intro byte member
      by_cases small : n < 10
      · rw [decimal_of_lt small, List.mem_singleton] at member
        rw [member, isDigit_digit small]
      · rw [decimal_of_le (not_lt.mp small), List.mem_append, List.mem_singleton] at member
        rcases member with member | rfl
        · exact inductionHypothesis (n / 10) (by omega) byte member
        · exact isDigit_digit (Nat.mod_lt _ (by decide))

theorem decimal_cons (n : Nat) : ∃ byte rest, decimal n = byte :: rest ∧ isDigit byte = true := by
  obtain ⟨byte, rest, written⟩ := List.exists_cons_of_ne_nil (decimal_ne_nil n)
  refine ⟨byte, rest, written, isDigit_of_mem_decimal (n := n) byte ?_⟩
  rw [written]
  exact List.mem_cons_self

@[simp] theorem digitsValue_append_digit (digits : List UInt8) (byte : UInt8) :
    digitsValue (digits ++ [byte]) = 10 * digitsValue digits + (byte.toNat - 0x30) := by
  simp [digitsValue]

@[simp] theorem digitsValue_decimal (n : Nat) : digitsValue (decimal n) = n := by
  induction n using Nat.strongRecOn with
  | ind n inductionHypothesis =>
      by_cases small : n < 10
      · rw [decimal_of_lt small]
        simp [digitsValue]
        omega
      · rw [decimal_of_le (not_lt.mp small), digitsValue_append_digit,
          inductionHypothesis (n / 10) (by omega), toNat_digit (Nat.mod_lt _ (by decide))]
        omega

theorem length_decimal_le {n k : Nat} (positive : 0 < k) (small : n < 10 ^ k) :
    (decimal n).length ≤ k := by
  rw [decimal, List.length_map]
  exact (Nat.length_toDigits_le_iff (by decide) positive).mpr small

/-- Only zero is written with a zero in front. -/
theorem decimal_head {n : Nat} (positive : 0 < n) :
    ∃ byte rest, decimal n = byte :: rest ∧ byte ≠ 0x30 ∧ isDigit byte = true := by
  induction n using Nat.strongRecOn with
  | ind n inductionHypothesis =>
      by_cases small : n < 10
      · refine ⟨_, [], decimal_of_lt small, ?_, isDigit_digit small⟩
        interval_cases n <;> decide
      · obtain ⟨byte, rest, written, nonzero, digit⟩ :=
          inductionHypothesis (n / 10) (by omega) (by omega)
        refine ⟨byte, rest ++ [UInt8.ofNat (0x30 + n % 10)], ?_, nonzero, digit⟩
        rw [decimal_of_le (not_lt.mp small), written, List.cons_append]

/-- Text whose first byte, if there is one, ends a number. -/
def EndsNumber (text : List UInt8) : Prop := ∀ byte ∈ text.head?, isDigit byte = false

theorem takeWhile_digits {digits text : List UInt8} (all : ∀ byte ∈ digits, isDigit byte = true)
    (ends : EndsNumber text) : (digits ++ text).takeWhile isDigit = digits := by
  rw [List.takeWhile_append_of_pos all]
  cases text with
  | nil => simp
  | cons byte rest => simp [ends byte (by simp)]

theorem dropWhile_digits {digits text : List UInt8} (all : ∀ byte ∈ digits, isDigit byte = true)
    (ends : EndsNumber text) : (digits ++ text).dropWhile isDigit = text := by
  rw [List.dropWhile_append_of_pos all]
  cases text with
  | nil => rfl
  | cons byte rest => simp [ends byte (by simp)]

/-! ## C strings -/

/-- The string in a buffer that ends with a NUL. -/
def cString (buffer : List UInt8) : List UInt8 := buffer.takeWhile (· ≠ 0)

theorem cString_eq {text : List UInt8} (noNul : ∀ byte ∈ text, byte ≠ 0) : cString text = text := by
  rw [cString, List.takeWhile_eq_self_iff]
  simpa using noNul

theorem ne_zero_of_isDigit {byte : UInt8} (digit : isDigit byte = true) : byte ≠ 0 := by
  rintro rfl
  cases digit

theorem ne_zero_of_mem_decimal {n : Nat} : ∀ byte ∈ decimal n, byte ≠ 0 :=
  fun byte member => ne_zero_of_isDigit (isDigit_of_mem_decimal byte member)

/-- `strstr`: the text from the first place where `needle` stands. -/
def strstr (needle : List UInt8) : List UInt8 → Option (List UInt8)
  | [] => if needle = [] then some [] else none
  | byte :: rest =>
      if needle.isPrefixOf (byte :: rest) then some (byte :: rest) else strstr needle rest

/-- Text without the first byte of the needle is passed over. -/
theorem strstr_append {first : UInt8} {needle front : List UInt8}
    (absent : ∀ byte ∈ front, byte ≠ first) (text : List UInt8) :
    strstr (first :: needle) (front ++ text) = strstr (first :: needle) text := by
  induction front with
  | nil => rfl
  | cons byte front inductionHypothesis =>
      have differs : first ≠ byte := (absent byte List.mem_cons_self).symm
      have noMatch : ¬ (first :: needle).isPrefixOf (byte :: (front ++ text)) = true := by
        simp [List.isPrefixOf, differs]
      rw [List.cons_append, strstr, if_neg noMatch]
      exact inductionHypothesis fun other member => absent other (List.mem_cons_of_mem _ member)

/-- `isspace` of the C locale. -/
def isCSpace (byte : UInt8) : Bool := byte == 0x20 || (0x09 ≤ byte && byte ≤ 0x0D)

/-- The sign of a number and what follows it. -/
def cSign : List UInt8 → Bool × List UInt8
  | 0x2D :: rest => (true, rest)
  | 0x2B :: rest => (false, rest)
  | digits => (false, digits)

/-- `strtol` with base 10 and a `long` of `width` bits: the value, limited to the range of
the type, and the text behind the number.  Without digits nothing is read. -/
def strtol (width : Nat) (text : List UInt8) : Int × List UInt8 :=
  let (negative, unsigned) := cSign (text.dropWhile isCSpace)
  let digits := unsigned.takeWhile isDigit
  if digits = [] then (0, text)
  else
    let value : Int := if negative then -digitsValue digits else digitsValue digits
    (max (-2 ^ (width - 1)) (min value (2 ^ (width - 1) - 1)), unsigned.dropWhile isDigit)

/-- `strtol` reads a number back. -/
theorem strtol_decimal {width n : Nat} {text : List UInt8} (fits : n < 2 ^ (width - 1))
    (ends : EndsNumber text) : strtol width (decimal n ++ text) = ((n : Int), text) := by
  obtain ⟨byte, rest, written, digit⟩ := decimal_cons n
  have low : 0x30 ≤ byte := by
    simp [isDigit] at digit
    exact digit.1
  have notSpace : isCSpace byte = false := by
    have large : 0x30 ≤ byte.toNat := low
    simp only [isCSpace, Bool.or_eq_false_iff, Bool.and_eq_false_iff, beq_eq_false_iff_ne,
      decide_eq_false_iff_not]
    refine ⟨?_, .inr ?_⟩
    · rintro rfl
      exact absurd large (by decide)
    · intro small
      have bound : byte.toNat ≤ 13 := small
      omega
  have unsigned : cSign (byte :: rest ++ text) = (false, byte :: rest ++ text) := by
    unfold cSign
    split
    · rename_i same
      simp at same
      obtain ⟨rfl, _⟩ := same
      contradiction
    · rename_i same
      simp at same
      obtain ⟨rfl, _⟩ := same
      contradiction
    · rfl
  have start : cSign ((decimal n ++ text).dropWhile isCSpace) = (false, decimal n ++ text) := by
    rw [written, List.cons_append, List.dropWhile_cons_of_neg (by simp [notSpace])]
    exact unsigned
  have bound : (n : Int) < 2 ^ (width - 1) := by
    exact_mod_cast fits
  unfold strtol
  rw [start]
  dsimp only
  rw [takeWhile_digits isDigit_of_mem_decimal ends, dropWhile_digits isDigit_of_mem_decimal ends,
    if_neg (decimal_ne_nil n), digitsValue_decimal]
  simp only [Bool.false_eq_true, ↓reduceIte, Prod.mk.injEq, and_true]
  omega

/-- Where `strtol` reads something, less text is left. -/
theorem length_strtol (width : Nat) (text : List UInt8) :
    (strtol width text).2 = text ∨ (strtol width text).2.length < text.length := by
  have spaces := (List.dropWhile_suffix isCSpace (l := text)).length_le
  have sign : (cSign (text.dropWhile isCSpace)).2.length ≤ (text.dropWhile isCSpace).length := by
    unfold cSign
    split
    · rename_i same
      simp [same]
    · rename_i same
      simp [same]
    · exact le_rfl
  unfold strtol
  dsimp only
  split
  · exact .inl rfl
  · rename_i digits
    have parts := congrArg List.length
      ((cSign (text.dropWhile isCSpace)).2.takeWhile_append_dropWhile (p := isDigit))
    have positive := List.length_pos_of_ne_nil digits
    rw [List.length_append] at parts
    right
    dsimp only
    omega

end ForestLink.Lib
