/-
Module: ForestLink.Lib.JsonText
Purpose: What `readString` makes of a literal: well-formed UTF-8 whose special bytes come from
  escapes; and which text is read as it stands.
Trusted boundary: none
Main exports: Unescapes, readString_unescapes, PlainText, readString_plain
-/
import ForestLink.Lib.Json

namespace ForestLink.Lib

/-! ## Escapes -/

/-- Quotes, backslashes and control bytes. -/
def isSpecial (byte : UInt8) : Bool := byte == 0x22 || byte == 0x5C || byte < 0x20

/-- A part of a string literal and what it stands for: the result is well formed, each of its
special bytes comes from an escape, each quote of the literal shows in it, and a literal that
is well formed itself is not made longer, and made shorter by an escape. -/
structure Unescapes (literal text : List UInt8) : Prop where
  valid : validUtf8 0 text = true
  specials : text.countP isSpecial ≤ literal.count 0x5C
  quotes : literal.count 0x22 ≤ text.count 0x22
  length : validUtf8 0 literal = true →
    text.length ≤ literal.length ∧ (0x5C ∈ literal → text.length < literal.length)

theorem unescapes_nil : Unescapes [] [] where
  valid := rfl
  specials := Nat.le_refl _
  quotes := Nat.le_refl _
  length _ := ⟨Nat.le_refl _, fun member => nomatch member⟩

theorem hexValue_lt {byte : UInt8} {value : Nat} (read : hexValue byte = some value) :
    value < 16 ∧ byte < 0x80 ∧ byte ≠ 0x22 := by
  unfold hexValue at read
  split at read
  · rename_i digit
    simp only [isDigit, Bool.and_eq_true, decide_eq_true_eq] at digit
    obtain ⟨low, high⟩ := digit
    cases read
    have low' : 0x30 ≤ byte.toNat := low
    have high' : byte.toNat ≤ 0x39 := high
    refine ⟨by omega, UInt8.lt_of_le_of_lt high (by decide), ?_⟩
    rintro rfl
    exact absurd low (by decide)
  split at read
  · rename_i letter
    obtain ⟨low, high⟩ := letter
    cases read
    have low' : 0x61 ≤ byte.toNat := low
    have high' : byte.toNat ≤ 0x66 := high
    refine ⟨by omega, UInt8.lt_of_le_of_lt high (by decide), ?_⟩
    rintro rfl
    exact absurd low (by decide)
  split at read
  · rename_i letter
    obtain ⟨low, high⟩ := letter
    cases read
    have low' : 0x41 ≤ byte.toNat := low
    have high' : byte.toNat ≤ 0x46 := high
    refine ⟨by omega, UInt8.lt_of_le_of_lt high (by decide), ?_⟩
    rintro rfl
    exact absurd low (by decide)
  · cases read

/-- Four digits: below 2^16, and none of them a quote. -/
theorem hexUnit_spec {text : List UInt8} {unit : Nat} (read : hexUnit text = some unit) :
    unit < 0x10000 ∧ ∃ digits rest, text = digits ++ rest ∧ digits.length = 4 ∧
      ∀ byte ∈ digits, byte < 0x80 ∧ byte ≠ 0x22 := by
  unfold hexUnit at read
  split at read
  · rename_i a b c d rest
    simp only [Option.bind_eq_bind, Option.bind_eq_some_iff, Option.pure_def,
      Option.some.injEq] at read
    obtain ⟨a', readA, b', readB, c', readC, d', readD, rfl⟩ := read
    obtain ⟨smallA, digitA⟩ := hexValue_lt readA
    obtain ⟨smallB, digitB⟩ := hexValue_lt readB
    obtain ⟨smallC, digitC⟩ := hexValue_lt readC
    obtain ⟨smallD, digitD⟩ := hexValue_lt readD
    refine ⟨by omega, [a, b, c, d], rest, rfl, rfl, ?_⟩
    simp [digitA, digitB, digitC, digitD]
  · cases read

theorem length_utf8Encode (point : Nat) : (utf8Encode point).length ≤ 4 ∧
    (point < 0x10000 → (utf8Encode point).length ≤ 3) := by
  unfold utf8Encode
  repeat' split
  all_goals simp
  all_goals omega

theorem isSpecial_of_high {byte : UInt8} (high : 0x80 ≤ byte) : isSpecial byte = false := by
  have large : 0x80 ≤ byte.toNat := high
  simp only [isSpecial, Bool.or_eq_false_iff, beq_eq_false_iff_ne, decide_eq_false_iff_not]
  refine ⟨⟨?_, ?_⟩, ?_⟩
  · rintro rfl
    exact absurd large (by decide)
  · rintro rfl
    exact absurd large (by decide)
  · intro small
    have bound : byte.toNat < 0x20 := small
    omega

theorem countP_high {text : List UInt8} (high : ∀ byte ∈ text, 0x80 ≤ byte) :
    text.countP isSpecial = 0 := by
  rw [List.countP_eq_zero]
  intro byte member
  rw [isSpecial_of_high (high byte member)]
  exact Bool.false_ne_true

/-- All bytes of a code point behind ASCII are high. -/
theorem utf8Encode_high {point : Nat} (large : 0x80 ≤ point) (small : point < 0x110000) :
    ∀ byte ∈ utf8Encode point, 0x80 ≤ byte := by
  have high : ∀ n : Nat, 0x80 ≤ n → n < 256 → 0x80 ≤ UInt8.ofNat n := by
    intro n large bound
    rw [le_ofNat bound]
    exact large
  unfold utf8Encode
  rw [if_neg (by omega)]
  intro byte member
  split at member
  · simp only [List.mem_cons, List.not_mem_nil, or_false] at member
    rcases member with rfl | rfl <;> exact high _ (by omega) (by omega)
  split at member
  · simp only [List.mem_cons, List.not_mem_nil, or_false] at member
    rcases member with rfl | rfl | rfl <;> exact high _ (by omega) (by omega)
  · simp only [List.mem_cons, List.not_mem_nil, or_false] at member
    rcases member with rfl | rfl | rfl | rfl <;> exact high _ (by omega) (by omega)

/-- A code point gives one special byte at most. -/
theorem specials_utf8Encode {point : Nat} (small : point < 0x110000) :
    (utf8Encode point).countP isSpecial ≤ 1 := by
  by_cases ascii : point < 0x80
  · have one : (utf8Encode point).length = 1 := by simp [utf8Encode, ascii]
    exact one ▸ List.countP_le_length
  · rw [countP_high (utf8Encode_high (not_lt.mp ascii) small)]
    exact Nat.zero_le _

/-- An escape: its backslash, then bytes of ASCII, of which only `\"` has a quote. -/
structure Escape (literal text : List UInt8) : Prop where
  ascii : ∀ byte ∈ literal, byte < 0x80
  backslash : 0x5C ∈ literal
  valid : validUtf8 0 text = true
  specials : text.countP isSpecial ≤ 1
  quotes : literal.count 0x22 ≤ text.count 0x22
  length : text.length < literal.length

theorem escape_two {second byte : UInt8} (ascii : second < 0x80 ∧ byte < 0x80)
    (quote : second = 0x22 → byte = 0x22) : Escape [0x5C, second] [byte] where
  ascii := by simp [ascii.1]
  backslash := List.mem_cons_self
  valid := by simp [validUtf8, utf8Length_of_ascii ascii.2]
  specials := List.countP_le_length
  quotes := by
    by_cases same : second = 0x22
    · simp [same, quote same]
    · simp [same]
  length := by simp

/-- Bytes of ASCII without a quote. -/
theorem escape_plain {literal text : List UInt8}
    (plain : ∀ byte ∈ literal, byte < 0x80 ∧ byte ≠ 0x22) (backslash : 0x5C ∈ literal)
    (valid : validUtf8 0 text = true)
    (specials : text.countP isSpecial ≤ 1) (length : text.length < literal.length) :
    Escape literal text where
  ascii byte member := (plain byte member).1
  backslash := backslash
  valid := valid
  specials := specials
  quotes := by
    rw [List.count_eq_zero.mpr fun member => (plain _ member).2 rfl]
    exact Nat.zero_le _
  length := length

theorem plain_unit {digits : List UInt8} (plain : ∀ byte ∈ digits, byte < 0x80 ∧ byte ≠ 0x22) :
    ∀ byte ∈ 0x5C :: 0x75 :: digits, byte < 0x80 ∧ byte ≠ 0x22 := by
  intro byte member
  rcases List.mem_cons.mp member with rfl | member
  · decide
  rcases List.mem_cons.mp member with rfl | member
  · decide
  · exact plain byte member

theorem lowSurrogate_spec {text : List UInt8} {low : Nat} (read : lowSurrogate text = some low) :
    0xDC00 ≤ low ∧ low < 0xE000 ∧ ∃ digits rest, text = 0x5C :: 0x75 :: digits ++ rest ∧
      digits.length = 4 ∧ ∀ byte ∈ digits, byte < 0x80 ∧ byte ≠ 0x22 := by
  unfold lowSurrogate at read
  split at read
  · obtain ⟨unit, readUnit, read⟩ := Option.bind_eq_some_iff.mp read
    split at read
    · rename_i inside
      cases read
      obtain ⟨-, digits, rest, rfl, length, plain⟩ := hexUnit_spec readUnit
      exact ⟨inside.1, inside.2, digits, rest, rfl, length, plain⟩
    · cases read
  · cases read

/-- What `readEscape` reads is an escape at the front of the text. -/
theorem readEscape_spec {rest text : List UInt8} {used : Nat}
    (read : readEscape rest = some (text, used)) :
    2 ≤ used ∧ used ≤ rest.length + 1 ∧ Escape ((0x5C :: rest).take used) text := by
  unfold readEscape at read
  split at read
  case h_9 digits =>
    obtain ⟨unit, readUnit, read⟩ := Option.bind_eq_some_iff.mp read
    obtain ⟨small, four, more, rfl, length, plain⟩ := hexUnit_spec readUnit
    have single : (0x5C :: 0x75 :: (four ++ more)).take 6 = 0x5C :: 0x75 :: four := by
      rw [← List.cons_append, ← List.cons_append]
      exact List.take_left' (by simp [length])
    have bound : 6 ≤ (0x75 :: (four ++ more)).length + 1 := by
      simp [length]
    split at read
    · rename_i scalar
      obtain ⟨rfl, rfl⟩ := Prod.mk.inj (Option.some.inj read)
      have short := (length_utf8Encode unit).2 (by omega)
      refine ⟨by decide, bound, single ▸ escape_plain (plain_unit plain)
        List.mem_cons_self ?_ ?_ ?_⟩
      · apply validUtf8_utf8Encode
        unfold IsScalar
        omega
      · exact specials_utf8Encode (by omega)
      · simp only [List.length_cons, length]
        omega
    · rename_i surrogate
      split at read
      · rename_i low found
        obtain ⟨rfl, rfl⟩ := Prod.mk.inj (Option.some.inj read)
        split at found
        · obtain ⟨lower, upper, second, rest, shape, length', plain'⟩ := lowSurrogate_spec found
          rw [List.drop_left' length] at shape
          subst shape
          have pair : (0x5C :: 0x75 :: (four ++ (0x5C :: 0x75 :: second ++ rest))).take 12 =
              (0x5C :: 0x75 :: four) ++ (0x5C :: 0x75 :: second) := by
            have shape : 0x5C :: 0x75 :: (four ++ (0x5C :: 0x75 :: second ++ rest)) =
                ((0x5C :: 0x75 :: four) ++ (0x5C :: 0x75 :: second)) ++ rest := by simp
            rw [shape]
            exact List.take_left' (by simp [length, length'])
          have short := (length_utf8Encode (0x10000 + (unit - 0xD800) * 0x400 + (low - 0xDC00))).1
          refine ⟨by decide, by simp [length, length']; omega,
            pair ▸ escape_plain ?_ (by simp) ?_ ?_ ?_⟩
          · intro byte member
            rcases List.mem_append.mp member with here | there
            · exact plain_unit plain byte here
            · exact plain_unit plain' byte there
          · apply validUtf8_utf8Encode
            unfold IsScalar
            omega
          · exact specials_utf8Encode (by omega)
          · simp only [List.length_append, List.length_cons, length, length']
            omega
        · cases found
      · obtain ⟨rfl, rfl⟩ := Prod.mk.inj (Option.some.inj read)
        refine ⟨by decide, bound, single ▸ escape_plain (plain_unit plain)
          List.mem_cons_self (by decide) (by decide) ?_⟩
        simp [length, replacement]
  case h_10 => cases read
  all_goals
    cases read
    exact ⟨Nat.le_refl _, by simp, escape_two (by decide) (by decide)⟩

/-! ## Strings -/

/-- The three kinds of a character in a string. -/
inductive CharRead (text : List UInt8) : List UInt8 → Nat → Prop
  | escape {char : List UInt8} {used : Nat} (shape : Escape (text.take used) char) :
      CharRead text char used
  | invalid (none : utf8Length text = 0) (ordinary : ∀ byte ∈ text.take 1, 0x80 ≤ byte) :
      CharRead text replacement 1
  | char (some : utf8Length text ≠ 0)
      (ordinary : ∀ byte ∈ text.take (utf8Length text), isSpecial byte = false) :
      CharRead text (text.take (utf8Length text)) (utf8Length text)

theorem readChar_spec {text char : List UInt8} {used : Nat} (noQuote : text.head? ≠ some 0x22)
    (read : readChar text = some (char, used)) :
    0 < used ∧ used ≤ text.length ∧ CharRead text char used := by
  cases text with
  | nil => cases read
  | cons byte rest =>
      unfold readChar at read
      dsimp only at read
      split at read
      · rename_i backslash
        subst backslash
        obtain ⟨least, most, shape⟩ := readEscape_spec read
        exact ⟨by omega, most, .escape shape⟩
      · rename_i notBackslash
        split at read
        · cases read
        · rename_i notControl
          split at read
          · rename_i invalid
            obtain ⟨rfl, rfl⟩ := Prod.mk.inj (Option.some.inj read)
            refine ⟨by decide, by simp, .invalid invalid ?_⟩
            intro other member
            obtain rfl := List.mem_singleton.mp member
            by_contra low
            rw [utf8Length_of_ascii (UInt8.not_le.mp low)] at invalid
            cases invalid
          · rename_i whole
            obtain ⟨rfl, rfl⟩ := Prod.mk.inj (Option.some.inj read)
            refine ⟨Nat.pos_of_ne_zero whole, utf8Length_le _, .char whole ?_⟩
            intro other member
            by_cases high : 0x80 ≤ byte
            · exact isSpecial_of_high (utf8Length_high high other member)
            · rw [utf8Length_of_ascii (UInt8.not_le.mp high)] at member
              obtain rfl := List.mem_singleton.mp member
              have notQuote : other ≠ 0x22 := fun same => noQuote (by simp [same])
              simp only [isSpecial, Bool.or_eq_false_iff, beq_eq_false_iff_ne,
                decide_eq_false_iff_not]
              exact ⟨⟨notQuote, notBackslash⟩, notControl⟩

theorem isSpecial_backslash : isSpecial 0x5C = true := rfl

theorem count_eq_zero_of_ordinary {text : List UInt8} {byte : UInt8}
    (ordinary : ∀ other ∈ text, isSpecial other = false) (special : isSpecial byte = true) :
    byte ∉ text := by
  intro member
  rw [ordinary byte member] at special
  cases special

/-- The text behind the characters of ASCII or the whole character in front is well formed. -/
theorem validUtf8_behind {front literal : List UInt8}
    (whole : (∀ byte ∈ front, byte < 0x80) ∨
      (front ≠ [] ∧ utf8Length (front ++ literal) = front.length))
    (valid : validUtf8 0 (front ++ literal) = true) : validUtf8 0 literal = true := by
  rcases whole with ascii | ⟨filled, length⟩
  · have behind := @validUtf8_drop_ascii (front ++ literal) front.length
      (by simpa using ascii) valid
    simpa using behind
  · cases front with
    | nil => exact absurd rfl filled
    | cons byte front =>
        rw [List.cons_append] at length valid
        simp only [validUtf8, length, Bool.and_eq_true] at valid
        have behind := validUtf8_drop valid.2
        simpa using behind

/-- One more character in front of a literal. -/
theorem CharRead.unescapes {text char front literal more rest : List UInt8} {used : Nat}
    (read : CharRead text char used) (taken : front = text.take used) (filled : front ≠ [])
    (shape : text = front ++ literal ++ 0x22 :: rest) (tail : Unescapes literal more) :
    Unescapes (front ++ literal) (char ++ more) := by
  -- The closing quote is no part of a character.
  have sameLength : utf8Length text = utf8Length (front ++ literal) := by
    rw [shape]
    exact utf8Length_ascii (by simp [filled]) (by decide) rest
  cases read with
  | escape escape =>
      rw [← taken] at escape
      have backslashes : 1 ≤ front.count 0x5C := List.count_pos_iff.mpr escape.backslash
      have specials := escape.specials
      have specials' := tail.specials
      have quotes := escape.quotes
      have quotes' := tail.quotes
      have shorter := escape.length
      refine ⟨validUtf8_append escape.valid tail.valid, ?_, ?_, fun valid => ?_⟩
      · simp only [List.countP_append, List.count_append]
        omega
      · simp only [List.count_append]
        omega
      · have bound := (tail.length (validUtf8_behind (.inl escape.ascii) valid)).1
        simp only [List.length_append]
        omega
  | invalid none high =>
      rw [← taken] at high
      have noQuote : 0x22 ∉ front := fun member => absurd (high _ member) (by decide)
      refine ⟨validUtf8_append rfl tail.valid, ?_, ?_, fun valid => ?_⟩
      · have ordinary : replacement.countP isSpecial = 0 := rfl
        have specials := tail.specials
        simp only [List.countP_append, List.count_append, ordinary]
        omega
      · have quotes := tail.quotes
        simp only [List.count_append, List.count_eq_zero.mpr noQuote]
        omega
      · rw [sameLength] at none
        cases front with
        | nil => exact absurd rfl filled
        | cons byte front =>
            rw [List.cons_append] at none valid
            simp [validUtf8, none] at valid
  | char whole ordinary =>
      rw [← taken] at ordinary ⊢
      have noBackslash : 0x5C ∉ front := count_eq_zero_of_ordinary ordinary isSpecial_backslash
      have specials : front.countP isSpecial = 0 := by
        rw [List.countP_eq_zero]
        intro byte member
        simp [ordinary byte member]
      have valid : validUtf8 0 front = true := by
        rw [taken]
        exact validUtf8_first whole
      refine ⟨validUtf8_append valid tail.valid, ?_, ?_, fun valid => ?_⟩
      · have bound := tail.specials
        simp only [List.countP_append, List.count_append, specials]
        omega
      · simpa using tail.quotes
      · have length : utf8Length (front ++ literal) = front.length := by
          rw [← sameLength, taken, List.length_take, Nat.min_eq_left (utf8Length_le text)]
        have bounds := tail.length (validUtf8_behind (.inr ⟨filled, length⟩) valid)
        refine ⟨by simpa using bounds.1, fun member => ?_⟩
        rcases List.mem_append.mp member with here | there
        · exact absurd here noBackslash
        · simpa using bounds.2 there

/-- A string stands between its quotes and is what its literal stands for. -/
theorem readString_unescapes {skip : Nat} {source text rest : List UInt8}
    (read : readString skip source = some (text, rest)) :
    ∃ skipped literal, source = skipped ++ literal ++ 0x22 :: rest ∧ skipped.length = skip ∧
      Unescapes literal text := by
  induction source generalizing skip text with
  | nil => cases skip <;> cases read
  | cons byte source inductionHypothesis =>
      cases skip with
      | succ skip =>
          obtain ⟨skipped, literal, rfl, length, unescapes⟩ := inductionHypothesis read
          exact ⟨byte :: skipped, literal, rfl, by simp [length], unescapes⟩
      | zero =>
          unfold readString at read
          split at read
          · rename_i quote
            obtain ⟨rfl, rfl⟩ := Prod.mk.inj (Option.some.inj read)
            exact ⟨[], [], by simp [quote], rfl, unescapes_nil⟩
          · rename_i noQuote
            obtain ⟨⟨char, used⟩, readChar, read⟩ := Option.bind_eq_some_iff.mp read
            obtain ⟨⟨more, left⟩, readMore, read⟩ := Option.bind_eq_some_iff.mp read
            obtain ⟨rfl, rfl⟩ := Prod.mk.inj (Option.some.inj read)
            obtain ⟨positive, -, kind⟩ := readChar_spec (by simpa using noQuote) readChar
            obtain ⟨skipped, literal, rfl, length, unescapes⟩ := inductionHypothesis readMore
            have shape : byte :: (skipped ++ literal ++ 0x22 :: left) =
                (byte :: skipped) ++ literal ++ 0x22 :: left := rfl
            refine ⟨[], (byte :: skipped) ++ literal, by simp, rfl, ?_⟩
            refine kind.unescapes ?_ (List.cons_ne_nil _ _) shape unescapes
            rw [shape, List.append_assoc]
            exact (List.take_left' (by simp [length]; omega)).symm

/-! ## Plain text -/

/-- Well-formed text that stands in a literal as it is. -/
structure PlainText (text : List UInt8) : Prop where
  valid : validUtf8 0 text = true
  ordinary : ∀ byte ∈ text, isSpecial byte = false

theorem readString_ordinary {text : List UInt8} {skip : Nat}
    (valid : validUtf8 skip text = true) (ordinary : ∀ byte ∈ text, isSpecial byte = false)
    (rest : List UInt8) :
    readString skip (text ++ 0x22 :: rest) = some (text.drop skip, rest) := by
  induction text generalizing skip with
  | nil =>
      cases skip with
      | zero => rfl
      | succ skip => cases valid
  | cons byte text inductionHypothesis =>
      have later : ∀ other ∈ text, isSpecial other = false :=
        fun other member => ordinary other (List.mem_cons_of_mem _ member)
      cases skip with
      | succ skip => exact inductionHypothesis valid later
      | zero =>
          have here := ordinary byte List.mem_cons_self
          simp only [isSpecial, Bool.or_eq_false_iff, beq_eq_false_iff_ne,
            decide_eq_false_iff_not] at here
          simp only [validUtf8, Bool.and_eq_true, bne_iff_ne, ne_eq] at valid
          obtain ⟨whole, valid⟩ := valid
          have same := utf8Length_append whole (0x22 :: rest)
          have inside := utf8Length_le (byte :: text)
          rw [List.cons_append] at same ⊢
          rw [readString, if_neg here.1.1]
          simp only [readChar, if_neg here.1.2, if_neg here.2, same, if_neg whole]
          simp only [Option.bind_eq_bind, Option.bind_some, Option.pure_def,
            inductionHypothesis valid later, List.drop_zero, Option.some.injEq, Prod.mk.injEq,
            and_true]
          obtain ⟨length, lengthEq⟩ := Nat.exists_eq_succ_of_ne_zero whole
          rw [lengthEq] at inside ⊢
          rw [List.take_succ_cons, List.take_append_of_le_length (Nat.le_of_succ_le_succ inside)]
          simp

/-- Plain text is read as it is. -/
theorem readString_plain {text : List UInt8} (plain : PlainText text) (rest : List UInt8) :
    readString 0 (text ++ 0x22 :: rest) = some (text, rest) :=
  readString_ordinary plain.valid plain.ordinary rest

theorem validUtf8_ascii {text : List UInt8} (ascii : ∀ byte ∈ text, byte < 0x80) :
    validUtf8 0 text = true := by
  induction text with
  | nil => rfl
  | cons byte text inductionHypothesis =>
      have here := ascii byte List.mem_cons_self
      have later : ∀ other ∈ text, other < 0x80 :=
        fun other member => ascii other (List.mem_cons_of_mem _ member)
      simp [validUtf8, utf8Length_of_ascii here, inductionHypothesis later]

theorem PlainText.of_ascii {text : List UInt8}
    (plain : ∀ byte ∈ text, byte < 0x80 ∧ isSpecial byte = false) : PlainText text where
  valid := validUtf8_ascii fun byte member => (plain byte member).1
  ordinary byte member := (plain byte member).2

end ForestLink.Lib
