/-
Module: ForestLink.Lib.Json
Purpose: Reading JSON text from bytes the way Go's `encoding/json` does: strings with their
  escapes, numbers, values, and the members of an object.
Trusted boundary: none
Main exports: readString, readNumber, JsonValue, readValue, readMembers, readObject
-/
import ForestLink.Lib.CText
import ForestLink.Lib.Utf8

namespace ForestLink.Lib

/-!
A value keeps what a field of a record can take from it; arrays and objects inside a value
are checked and passed over.
-/

/-! ## Strings -/

/-- A hexadecimal digit. -/
def hexValue (byte : UInt8) : Option Nat :=
  if isDigit byte then some (byte.toNat - 0x30)
  else if 0x61 ≤ byte ∧ byte ≤ 0x66 then some (byte.toNat - 0x61 + 10)
  else if 0x41 ≤ byte ∧ byte ≤ 0x46 then some (byte.toNat - 0x41 + 10)
  else none

/-- The four digits of `\u`. -/
def hexUnit : List UInt8 → Option Nat
  | a :: b :: c :: d :: _ => do
      let a ← hexValue a
      let b ← hexValue b
      let c ← hexValue c
      let d ← hexValue d
      pure (4096 * a + 256 * b + 16 * c + d)
  | _ => none

/-- U+FFFD -/
def replacement : List UInt8 := [0xEF, 0xBF, 0xBD]

/-- A second `\u` that makes a pair with a high surrogate. -/
def lowSurrogate : List UInt8 → Option Nat
  | 0x5C :: 0x75 :: digits => do
      let unit ← hexUnit digits
      if 0xDC00 ≤ unit ∧ unit < 0xE000 then some unit else none
  | _ => none

/-- What an escape stands for and the bytes it takes, from its backslash on. -/
def readEscape : List UInt8 → Option (List UInt8 × Nat)
  | 0x22 :: _ => some ([0x22], 2)
  | 0x5C :: _ => some ([0x5C], 2)
  | 0x2F :: _ => some ([0x2F], 2)
  | 0x62 :: _ => some ([0x08], 2)
  | 0x66 :: _ => some ([0x0C], 2)
  | 0x6E :: _ => some ([0x0A], 2)
  | 0x72 :: _ => some ([0x0D], 2)
  | 0x74 :: _ => some ([0x09], 2)
  | 0x75 :: digits => do
      let unit ← hexUnit digits
      if unit < 0xD800 ∨ 0xDFFF < unit then pure (utf8Encode unit, 6)
      else
        match if unit < 0xDC00 then lowSurrogate (digits.drop 4) else none with
        | some low => pure (utf8Encode (0x10000 + (unit - 0xD800) * 0x400 + (low - 0xDC00)), 12)
        | none => pure (replacement, 6)
  | _ => none

/-- One character of a string: an escape, a character of UTF-8, or a byte that is neither,
which is replaced.  Bytes below 0x20 do not stand in a string. -/
def readChar : List UInt8 → Option (List UInt8 × Nat)
  | [] => none
  | byte :: rest =>
      if byte = 0x5C then readEscape rest
      else if byte < 0x20 then none
      else
        let length := utf8Length (byte :: rest)
        if length = 0 then some (replacement, 1) else some ((byte :: rest).take length, length)

/-- A string behind its opening quote, and the text behind its closing one.  The first `skip`
bytes belong to a character already read. -/
def readString : Nat → List UInt8 → Option (List UInt8 × List UInt8)
  | _, [] => none
  | skip + 1, _ :: rest => readString skip rest
  | 0, byte :: rest =>
      if byte = 0x22 then some ([], rest)
      else do
        let (char, used) ← readChar (byte :: rest)
        let (more, rest) ← readString (used - 1) rest
        pure (char ++ more, rest)

/-! ## Numbers -/

/-- One digit at least. -/
def readDigits (text : List UInt8) : Option (List UInt8 × List UInt8) :=
  let digits := text.takeWhile isDigit
  if digits = [] then none else some (digits, text.dropWhile isDigit)

/-- An integer without a needless zero in front. -/
def readInteger : List UInt8 → Option (List UInt8 × List UInt8)
  | 0x30 :: rest => some ([0x30], rest)
  | text => readDigits text

/-- A fraction, if there is one. -/
def readFraction : List UInt8 → Option (List UInt8 × List UInt8)
  | 0x2E :: rest => do
      let (digits, rest) ← readDigits rest
      pure (0x2E :: digits, rest)
  | text => some ([], text)

/-- The sign of an exponent, if there is one. -/
def readSign : List UInt8 → List UInt8 × List UInt8
  | 0x2B :: rest => ([0x2B], rest)
  | 0x2D :: rest => ([0x2D], rest)
  | text => ([], text)

/-- An exponent, if there is one. -/
def readExponent : List UInt8 → Option (List UInt8 × List UInt8)
  | [] => some ([], [])
  | letter :: rest =>
      if letter = 0x65 ∨ letter = 0x45 then do
        let (sign, rest) := readSign rest
        let (digits, rest) ← readDigits rest
        pure (letter :: sign ++ digits, rest)
      else some ([], letter :: rest)

/-- The minus of a number, if there is one. -/
def readMinus : List UInt8 → List UInt8 × List UInt8
  | 0x2D :: rest => ([0x2D], rest)
  | text => ([], text)

/-- A number and the text behind it. -/
def readNumber (text : List UInt8) : Option (List UInt8 × List UInt8) := do
  let (sign, text) := readMinus text
  let (integer, text) ← readInteger text
  let (fraction, text) ← readFraction text
  let (exponent, text) ← readExponent text
  pure (sign ++ integer ++ fraction ++ exponent, text)

/-! ## Values -/

inductive JsonValue where
  | null
  | bool (value : Bool)
  | number (text : List UInt8)
  | string (text : List UInt8)
  | array
  | object
deriving Repr, DecidableEq

/-- Blanks between tokens. -/
def isJsonSpace (byte : UInt8) : Bool :=
  byte == 0x20 || byte == 0x09 || byte == 0x0A || byte == 0x0D

def skipSpace (text : List UInt8) : List UInt8 := text.dropWhile isJsonSpace

/-- `true`, `false`, `null` or a number. -/
def readScalar (text : List UInt8) : Option (JsonValue × List UInt8) :=
  match text with
  | 0x74 :: 0x72 :: 0x75 :: 0x65 :: rest => some (.bool true, rest)
  | 0x66 :: 0x61 :: 0x6C :: 0x73 :: 0x65 :: rest => some (.bool false, rest)
  | 0x6E :: 0x75 :: 0x6C :: 0x6C :: rest => some (.null, rest)
  | text => (readNumber text).map fun (number, rest) => (.number number, rest)

mutual

/-- A value, with blanks in front, and the text behind it. -/
def readValue : Nat → List UInt8 → Option (JsonValue × List UInt8)
  | 0, _ => none
  | fuel + 1, text =>
      match skipSpace text with
      | 0x22 :: rest => (readString 0 rest).map fun (text, rest) => (.string text, rest)
      | 0x7B :: rest => (readObject fuel rest).map fun (_, rest) => (.object, rest)
      | 0x5B :: rest => (readArray fuel rest).map fun rest => (.array, rest)
      | text => readScalar text

/-- An object behind its opening brace. -/
def readObject : Nat → List UInt8 → Option (List (List UInt8 × JsonValue) × List UInt8)
  | 0, _ => none
  | fuel + 1, text =>
      match skipSpace text with
      | 0x7D :: rest => some ([], rest)
      | text => readMembers fuel text

/-- The members of an object up to its closing brace. -/
def readMembers : Nat → List UInt8 → Option (List (List UInt8 × JsonValue) × List UInt8)
  | 0, _ => none
  | fuel + 1, text =>
      match skipSpace text with
      | 0x22 :: rest => do
          let (key, rest) ← readString 0 rest
          match skipSpace rest with
          | 0x3A :: rest => do
              let (value, rest) ← readValue fuel rest
              match skipSpace rest with
              | 0x2C :: rest => do
                  let (more, rest) ← readMembers fuel rest
                  pure ((key, value) :: more, rest)
              | 0x7D :: rest => pure ([(key, value)], rest)
              | _ => none
          | _ => none
      | _ => none

/-- An array behind its opening bracket; what is left behind it. -/
def readArray : Nat → List UInt8 → Option (List UInt8)
  | 0, _ => none
  | fuel + 1, text =>
      match skipSpace text with
      | 0x5D :: rest => some rest
      | text => readElements fuel text

/-- The elements of an array up to its closing bracket. -/
def readElements : Nat → List UInt8 → Option (List UInt8)
  | 0, _ => none
  | fuel + 1, text => do
      let (_, rest) ← readValue fuel text
      match skipSpace rest with
      | 0x2C :: rest => readElements fuel rest
      | 0x5D :: rest => pure rest
      | _ => none

end

/-- As deep as calls of the readers of an object behind its brace can nest. -/
def jsonFuel (text : List UInt8) : Nat := 3 * text.length + 3

end ForestLink.Lib
