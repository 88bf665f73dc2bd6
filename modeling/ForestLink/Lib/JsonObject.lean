/-
Module: ForestLink.Lib.JsonObject
Purpose: What the JSON readers of values and objects keep: the text behind a value is a part of
  the text, strings stand between quotes, enough fuel is enough; and objects read back.
Trusted boundary: none
Main exports: readersKeep, Quoted, Quoted.plain, readObject_jsonFuel, WrittenMembers.read
-/
import ForestLink.Lib.JsonText

namespace ForestLink.Lib

/-! ## What is left of a text -/

theorem readString_suffix {source text rest : List UInt8}
    (read : readString 0 source = some (text, rest)) : rest <:+ source := by
  obtain ⟨skipped, literal, rfl, -, -⟩ := readString_unescapes read
  exact ⟨skipped ++ literal ++ [0x22], by simp⟩

theorem skipSpace_suffix (text : List UInt8) : skipSpace text <:+ text :=
  List.dropWhile_suffix _

/-- What stands behind the first byte that is no blank. -/
theorem suffix_of_skipSpace {text rest : List UInt8} {byte : UInt8}
    (skipped : skipSpace text = byte :: rest) : byte :: rest <:+ text :=
  skipped ▸ skipSpace_suffix text

theorem readDigits_suffix {text digits rest : List UInt8}
    (read : readDigits text = some (digits, rest)) : rest <:+ text := by
  unfold readDigits at read
  dsimp only at read
  split at read
  · cases read
  · cases read
    exact List.dropWhile_suffix _

theorem readInteger_suffix {text digits rest : List UInt8}
    (read : readInteger text = some (digits, rest)) : rest <:+ text := by
  unfold readInteger at read
  split at read
  · cases read
    exact List.suffix_cons _ _
  · exact readDigits_suffix read

theorem readFraction_suffix {text digits rest : List UInt8}
    (read : readFraction text = some (digits, rest)) : rest <:+ text := by
  unfold readFraction at read
  split at read
  · obtain ⟨⟨fraction, left⟩, readDigits, read⟩ := Option.bind_eq_some_iff.mp read
    cases read
    exact (readDigits_suffix readDigits).trans (List.suffix_cons _ _)
  · cases read
    exact List.suffix_refl _

theorem readSign_suffix (text : List UInt8) : (readSign text).2 <:+ text := by
  unfold readSign
  split
  · exact List.suffix_cons _ _
  · exact List.suffix_cons _ _
  · exact List.suffix_refl _

theorem readMinus_suffix (text : List UInt8) : (readMinus text).2 <:+ text := by
  unfold readMinus
  split
  · exact List.suffix_cons _ _
  · exact List.suffix_refl _

theorem readExponent_suffix {text digits rest : List UInt8}
    (read : readExponent text = some (digits, rest)) : rest <:+ text := by
  cases text with
  | nil =>
      cases read
      exact List.suffix_refl _
  | cons letter text =>
      rw [readExponent] at read
      split at read
      · obtain ⟨⟨exponent, left⟩, readDigits, read⟩ := Option.bind_eq_some_iff.mp read
        cases read
        exact ((readDigits_suffix readDigits).trans (readSign_suffix text)).trans
          (List.suffix_cons _ _)
      · cases read
        exact List.suffix_refl _

theorem readNumber_suffix {text number rest : List UInt8}
    (read : readNumber text = some (number, rest)) : rest <:+ text := by
  obtain ⟨⟨integer, behindInteger⟩, readInteger, read⟩ := Option.bind_eq_some_iff.mp read
  obtain ⟨⟨fraction, behindFraction⟩, readFraction, read⟩ := Option.bind_eq_some_iff.mp read
  obtain ⟨⟨exponent, behindExponent⟩, readExponent, read⟩ := Option.bind_eq_some_iff.mp read
  cases read
  exact (((readExponent_suffix readExponent).trans (readFraction_suffix readFraction)).trans
    (readInteger_suffix readInteger)).trans (readMinus_suffix text)

theorem readScalar_spec {text rest : List UInt8} {value : JsonValue}
    (read : readScalar text = some (value, rest)) :
    rest <:+ text ∧ ∀ string, value ≠ .string string := by
  unfold readScalar at read
  split at read
  · cases read
    exact ⟨⟨[0x74, 0x72, 0x75, 0x65], rfl⟩, fun _ => JsonValue.noConfusion⟩
  · cases read
    exact ⟨⟨[0x66, 0x61, 0x6C, 0x73, 0x65], rfl⟩, fun _ => JsonValue.noConfusion⟩
  · cases read
    exact ⟨⟨[0x6E, 0x75, 0x6C, 0x6C], rfl⟩, fun _ => JsonValue.noConfusion⟩
  · obtain ⟨⟨number, left⟩, readNumber, read⟩ := Option.map_eq_some_iff.mp read
    cases read
    exact ⟨readNumber_suffix readNumber, fun _ => JsonValue.noConfusion⟩

/-! ## Where strings come from -/

/-- A string that stands in a text between two quotes. -/
def Quoted (text string : List UInt8) : Prop :=
  ∃ before literal behind, text = before ++ 0x22 :: (literal ++ 0x22 :: behind) ∧
    Unescapes literal string

theorem Quoted.of_suffix {text whole string : List UInt8} (quoted : Quoted text string)
    (suffix : text <:+ whole) : Quoted whole string := by
  obtain ⟨before, literal, behind, rfl, unescapes⟩ := quoted
  obtain ⟨front, rfl⟩ := suffix
  exact ⟨front ++ before, literal, behind, (List.append_assoc _ _ _).symm, unescapes⟩

theorem quoted_of_readString {source string rest : List UInt8}
    (read : readString 0 source = some (string, rest)) : Quoted (0x22 :: source) string := by
  obtain ⟨skipped, literal, rfl, length, unescapes⟩ := readString_unescapes read
  obtain rfl := List.length_eq_zero_iff.mp length
  exact ⟨[], literal, rest, by simp, unescapes⟩

theorem piece_start {literal behind text rest : List UInt8}
    (same : literal ++ 0x22 :: behind = text ++ 0x22 :: rest) (literalBare : 0x22 ∉ literal) :
    literal <+: text := by
  rcases List.append_eq_append_iff.mp same with ⟨more, rfl, -⟩ | ⟨more, rfl, shape⟩
  · exact List.prefix_append _ _
  · cases more with
    | nil => simp
    | cons quote more =>
        obtain ⟨rfl, -⟩ := List.cons.inj shape
        exact absurd (List.mem_append_right _ List.mem_cons_self) literalBare

theorem piece_first {literal behind text rest : List UInt8}
    (same : literal ++ 0x22 :: behind = text ++ 0x22 :: rest) (literalBare : 0x22 ∉ literal)
    (textBare : 0x22 ∉ text) : literal = text :=
  (piece_start same literalBare).eq_of_length_le
    (piece_start same.symm textBare).length_le

/-- Two pieces without a quote in one text, each between two quotes: they are the same piece
when the first has a byte that stands nowhere else. -/
theorem piece_eq {before literal behind front text rest : List UInt8} {byte : UInt8}
    (same : before ++ 0x22 :: (literal ++ 0x22 :: behind) =
      front ++ 0x22 :: (text ++ 0x22 :: rest))
    (literalBare : 0x22 ∉ literal) (textBare : 0x22 ∉ text) (member : byte ∈ literal)
    (notFront : byte ∉ front) (notRest : byte ∉ rest) : literal = text := by
  rcases List.append_eq_append_iff.mp same with ⟨more, rfl, shape⟩ | ⟨more, rfl, shape⟩
  · cases more with
    | nil => exact piece_first (List.cons.inj shape).2 literalBare textBare
    | cons quote more =>
        -- The first piece would stand in front of the second.
        have inside := piece_start (List.cons.inj shape).2 literalBare
        have there : byte ∈ quote :: more := List.mem_cons_of_mem _ (inside.subset member)
        exact absurd (List.mem_append_right _ there) notFront
  · cases more with
    | nil => exact (piece_first (List.cons.inj shape).2 textBare literalBare).symm
    | cons quote more =>
        -- The first piece would stand behind the second.
        have shape := (List.cons.inj shape).2
        obtain ⟨gap, rfl⟩ := piece_start shape textBare
        have there : 0x22 :: rest = gap ++ 0x22 :: (literal ++ 0x22 :: behind) :=
          List.append_cancel_left (shape.trans (List.append_assoc _ _ _))
        have behindQuote : byte ∈ rest := by
          cases gap with
          | nil =>
              rw [(List.cons.inj there).2]
              exact List.mem_append_left _ member
          | cons quote gap =>
              rw [(List.cons.inj there).2]
              simp [member]
        exact absurd behindQuote notRest

/-- Backslashes and the other special bytes. -/
theorem countP_isSpecial (text : List UInt8) :
    text.countP isSpecial =
      text.count 0x5C + text.countP fun byte => isSpecial byte && byte != 0x5C := by
  induction text with
  | nil => rfl
  | cons byte text inductionHypothesis =>
      simp only [List.countP_cons, List.count_cons, inductionHypothesis]
      by_cases backslash : byte = 0x5C
      · subst backslash
        simp only [isSpecial_backslash]
        simp
        omega
      · simp [backslash]
        omega

/-- Text that is pasted between two quotes and comes out as it went in is plain, as long as
there are no backslashes around it. -/
theorem Quoted.plain {front text rest : List UInt8} (frontClean : 0x5C ∉ front)
    (restClean : 0x5C ∉ rest) (quoted : Quoted (front ++ 0x22 :: (text ++ 0x22 :: rest)) text) :
    PlainText text := by
  obtain ⟨before, literal, behind, same, unescapes⟩ := quoted
  have backslashes : literal.count 0x5C ≤ text.count 0x5C := by
    have whole := congrArg (List.count 0x5C) same
    simp only [List.count_append, List.count_cons, List.count_eq_zero.mpr frontClean,
      List.count_eq_zero.mpr restClean] at whole
    simp at whole
    omega
  -- All special bytes of the text are backslashes.
  have specials : text.countP isSpecial ≤ text.count 0x5C := unescapes.specials.trans backslashes
  have others : ∀ byte ∈ text, isSpecial byte = true → byte = 0x5C := by
    intro byte member special
    by_contra differs
    rw [countP_isSpecial] at specials
    have positive : 0 < text.countP fun byte => isSpecial byte && byte != 0x5C := by
      rw [List.countP_pos_iff]
      exact ⟨byte, member, by simp [special, differs]⟩
    omega
  have textBare : 0x22 ∉ text := fun member => absurd (others _ member rfl) (by decide)
  have literalBare : 0x22 ∉ literal := by
    have quotes := unescapes.quotes
    rw [List.count_eq_zero.mpr textBare] at quotes
    exact List.count_eq_zero.mp (Nat.le_zero.mp quotes)
  by_cases escaped : 0x5C ∈ text
  · -- Then the literal has a backslash too and is the text itself, but an escape shortens.
    have filled : 0x5C ∈ literal := by
      rw [← List.count_pos_iff]
      have enough := unescapes.specials
      rw [countP_isSpecial] at enough
      have positive := List.count_pos_iff.mpr escaped
      omega
    obtain rfl := piece_eq same.symm literalBare textBare filled frontClean restClean
    exact absurd ((unescapes.length unescapes.valid).2 filled) (Nat.lt_irrefl _)
  · refine ⟨unescapes.valid, fun byte member => ?_⟩
    by_contra special
    exact escaped (others byte member (by simpa using special) ▸ member)

/-- The strings among the values of members stand in a text. -/
def QuotedIn (text : List UInt8) (members : List (List UInt8 × JsonValue)) : Prop :=
  ∀ key string, (key, .string string) ∈ members → Quoted text string

theorem QuotedIn.of_suffix {text whole : List UInt8} {members : List (List UInt8 × JsonValue)}
    (quoted : QuotedIn text members) (suffix : text <:+ whole) : QuotedIn whole members :=
  fun key string member => (quoted key string member).of_suffix suffix

/-- What every reader keeps, as deep as `fuel` allows. -/
structure ReadersKeep (fuel : Nat) : Prop where
  value : ∀ {text value rest}, readValue fuel text = some (value, rest) →
    rest <:+ text ∧ ∀ string, value = .string string → Quoted text string
  object : ∀ {text members rest}, readObject fuel text = some (members, rest) →
    rest <:+ text ∧ QuotedIn text members
  members : ∀ {text members rest}, readMembers fuel text = some (members, rest) →
    rest <:+ text ∧ QuotedIn text members
  array : ∀ {text rest}, readArray fuel text = some rest → rest <:+ text
  elements : ∀ {text rest}, readElements fuel text = some rest → rest <:+ text

theorem ReadersKeep.value_succ {fuel : Nat} (keep : ReadersKeep fuel) {text rest : List UInt8}
    {value : JsonValue} (read : readValue (fuel + 1) text = some (value, rest)) :
    rest <:+ text ∧ ∀ string, value = .string string → Quoted text string := by
  unfold readValue at read
  split at read
  · rename_i source quote
    obtain ⟨⟨string, left⟩, readString, read⟩ := Option.map_eq_some_iff.mp read
    cases read
    have suffix := suffix_of_skipSpace quote
    refine ⟨(readString_suffix readString).trans ((List.suffix_cons _ _).trans suffix), ?_⟩
    intro other same
    cases same
    exact (quoted_of_readString readString).of_suffix suffix
  · rename_i source brace
    obtain ⟨⟨members, left⟩, readObject, read⟩ := Option.map_eq_some_iff.mp read
    cases read
    have suffix := (List.suffix_cons _ _).trans (suffix_of_skipSpace brace)
    exact ⟨(keep.object readObject).1.trans suffix, fun _ => JsonValue.noConfusion⟩
  · rename_i source bracket
    obtain ⟨left, readArray, read⟩ := Option.map_eq_some_iff.mp read
    cases read
    have suffix := (List.suffix_cons _ _).trans (suffix_of_skipSpace bracket)
    exact ⟨(keep.array readArray).trans suffix, fun _ => JsonValue.noConfusion⟩
  · obtain ⟨suffix, noString⟩ := readScalar_spec read
    exact ⟨suffix.trans (skipSpace_suffix text), fun string same => absurd same (noString string)⟩

theorem ReadersKeep.object_succ {fuel : Nat} (keep : ReadersKeep fuel) {text rest : List UInt8}
    {members : List (List UInt8 × JsonValue)}
    (read : readObject (fuel + 1) text = some (members, rest)) :
    rest <:+ text ∧ QuotedIn text members := by
  unfold readObject at read
  split at read
  · rename_i brace
    cases read
    exact ⟨(List.suffix_cons _ _).trans (suffix_of_skipSpace brace), fun _ _ member =>
      nomatch member⟩
  · obtain ⟨suffix, quoted⟩ := keep.members read
    have blanks := skipSpace_suffix text
    exact ⟨suffix.trans blanks, quoted.of_suffix blanks⟩

theorem ReadersKeep.members_succ {fuel : Nat} (keep : ReadersKeep fuel) {text rest : List UInt8}
    {members : List (List UInt8 × JsonValue)}
    (read : readMembers (fuel + 1) text = some (members, rest)) :
    rest <:+ text ∧ QuotedIn text members := by
  unfold readMembers at read
  split at read
  · rename_i source quote
    obtain ⟨⟨key, behindKey⟩, readKey, read⟩ := Option.bind_eq_some_iff.mp read
    dsimp only at read
    split at read
    · rename_i behindColon colon
      obtain ⟨⟨value, behindValue⟩, readValue, read⟩ := Option.bind_eq_some_iff.mp read
      obtain ⟨valueSuffix, valueQuoted⟩ := keep.value readValue
      have colonSuffix : behindColon <:+ text :=
        ((List.suffix_cons _ _).trans (suffix_of_skipSpace colon)).trans
          ((readString_suffix readKey).trans
            ((List.suffix_cons _ _).trans (suffix_of_skipSpace quote)))
      have behindSuffix := valueSuffix.trans colonSuffix
      dsimp only at read
      split at read
      · rename_i behindComma comma
        obtain ⟨⟨more, left⟩, readMore, read⟩ := Option.bind_eq_some_iff.mp read
        cases read
        have commaSuffix : behindComma <:+ text :=
          ((List.suffix_cons _ _).trans (suffix_of_skipSpace comma)).trans behindSuffix
        obtain ⟨moreSuffix, moreQuoted⟩ := keep.members readMore
        refine ⟨moreSuffix.trans commaSuffix, fun other string member => ?_⟩
        rcases List.mem_cons.mp member with same | later
        · cases same
          exact (valueQuoted string rfl).of_suffix colonSuffix
        · exact (moreQuoted other string later).of_suffix commaSuffix
      · rename_i brace
        cases read
        refine ⟨((List.suffix_cons _ _).trans (suffix_of_skipSpace brace)).trans behindSuffix,
          fun other string member => ?_⟩
        cases List.mem_singleton.mp member
        exact (valueQuoted string rfl).of_suffix colonSuffix
      · cases read
    · cases read
  · cases read

theorem ReadersKeep.array_succ {fuel : Nat} (keep : ReadersKeep fuel) {text rest : List UInt8}
    (read : readArray (fuel + 1) text = some rest) : rest <:+ text := by
  unfold readArray at read
  split at read
  · rename_i bracket
    cases read
    exact (List.suffix_cons _ _).trans (suffix_of_skipSpace bracket)
  · exact (keep.elements read).trans (skipSpace_suffix text)

theorem ReadersKeep.elements_succ {fuel : Nat} (keep : ReadersKeep fuel) {text rest : List UInt8}
    (read : readElements (fuel + 1) text = some rest) : rest <:+ text := by
  unfold readElements at read
  obtain ⟨⟨value, behind⟩, readValue, read⟩ := Option.bind_eq_some_iff.mp read
  have suffix := (keep.value readValue).1
  dsimp only at read
  split at read
  · rename_i comma
    exact (keep.elements read).trans
      (((List.suffix_cons _ _).trans (suffix_of_skipSpace comma)).trans suffix)
  · rename_i bracket
    cases read
    exact ((List.suffix_cons _ _).trans (suffix_of_skipSpace bracket)).trans suffix
  · cases read

/-- Readers leave a part of their text, and strings are those between quotes. -/
theorem readersKeep (fuel : Nat) : ReadersKeep fuel := by
  induction fuel with
  | zero =>
      constructor
      all_goals
        intros
        rename_i read
        cases read
  | succ fuel inductionHypothesis =>
      exact ⟨inductionHypothesis.value_succ, inductionHypothesis.object_succ,
        inductionHypothesis.members_succ, inductionHypothesis.array_succ,
        inductionHypothesis.elements_succ⟩

/-! ## Fuel -/

/-- With so much fuel one more makes no difference. -/
structure ReadersSettle (fuel : Nat) : Prop where
  value : ∀ text : List UInt8, 3 * text.length + 1 ≤ fuel →
    readValue (fuel + 1) text = readValue fuel text
  object : ∀ text : List UInt8, 3 * text.length + 3 ≤ fuel →
    readObject (fuel + 1) text = readObject fuel text
  members : ∀ text : List UInt8, 3 * text.length + 2 ≤ fuel →
    readMembers (fuel + 1) text = readMembers fuel text
  array : ∀ text : List UInt8, 3 * text.length + 3 ≤ fuel →
    readArray (fuel + 1) text = readArray fuel text
  elements : ∀ text : List UInt8, 3 * text.length + 2 ≤ fuel →
    readElements (fuel + 1) text = readElements fuel text

theorem length_of_skipSpace {text rest : List UInt8} {byte : UInt8}
    (skipped : skipSpace text = byte :: rest) : rest.length + 1 ≤ text.length :=
  (suffix_of_skipSpace skipped).length_le

theorem ReadersSettle.value_succ {fuel : Nat} (settle : ReadersSettle fuel) {text : List UInt8}
    (enough : 3 * text.length + 1 ≤ fuel + 1) :
    readValue (fuel + 1 + 1) text = readValue (fuel + 1) text := by
  rw [readValue.eq_def, readValue.eq_def (fuel + 1)]
  dsimp only
  split
  · rfl
  · rename_i brace
    have shorter := length_of_skipSpace brace
    rw [settle.object _ (by omega)]
  · rename_i bracket
    have shorter := length_of_skipSpace bracket
    rw [settle.array _ (by omega)]
  · rfl

theorem ReadersSettle.object_succ {fuel : Nat} (settle : ReadersSettle fuel) {text : List UInt8}
    (enough : 3 * text.length + 3 ≤ fuel + 1) :
    readObject (fuel + 1 + 1) text = readObject (fuel + 1) text := by
  have blanks := (skipSpace_suffix text).length_le
  rw [readObject.eq_def, readObject.eq_def (fuel + 1)]
  dsimp only
  split
  · rfl
  · rw [settle.members _ (by omega)]

theorem ReadersSettle.members_succ {fuel : Nat} (settle : ReadersSettle fuel)
    {text : List UInt8} (enough : 3 * text.length + 2 ≤ fuel + 1) :
    readMembers (fuel + 1 + 1) text = readMembers (fuel + 1) text := by
  rw [readMembers.eq_def, readMembers.eq_def (fuel + 1)]
  dsimp only
  split
  · rename_i source quote
    have shorter := length_of_skipSpace quote
    cases readKey : readString 0 source with
    | none => rfl
    | some found =>
        obtain ⟨key, behindKey⟩ := found
        have keyLength := (readString_suffix readKey).length_le
        simp only [Option.bind_eq_bind, Option.bind_some]
        split
        · rename_i behindColon colon
          have colonLength := length_of_skipSpace colon
          rw [settle.value _ (by omega)]
          cases readHere : readValue fuel behindColon with
          | none => rfl
          | some found =>
              obtain ⟨value, behindValue⟩ := found
              have valueLength := ((readersKeep fuel).value readHere).1.length_le
              simp only [Option.bind_some]
              split
              · rename_i behindComma comma
                have commaLength := length_of_skipSpace comma
                rw [settle.members _ (by omega)]
              · rfl
              · rfl
        · rfl
  · rfl

theorem ReadersSettle.array_succ {fuel : Nat} (settle : ReadersSettle fuel) {text : List UInt8}
    (enough : 3 * text.length + 3 ≤ fuel + 1) :
    readArray (fuel + 1 + 1) text = readArray (fuel + 1) text := by
  have blanks := (skipSpace_suffix text).length_le
  rw [readArray.eq_def, readArray.eq_def (fuel + 1)]
  dsimp only
  split
  · rfl
  · rw [settle.elements _ (by omega)]

theorem ReadersSettle.elements_succ {fuel : Nat} (settle : ReadersSettle fuel)
    {text : List UInt8} (enough : 3 * text.length + 2 ≤ fuel + 1) :
    readElements (fuel + 1 + 1) text = readElements (fuel + 1) text := by
  rw [readElements.eq_def, readElements.eq_def (fuel + 1)]
  dsimp only
  rw [settle.value _ (by omega)]
  cases readHere : readValue fuel text with
  | none => rfl
  | some found =>
      obtain ⟨value, behindValue⟩ := found
      have valueLength := ((readersKeep fuel).value readHere).1.length_le
      simp only [Option.bind_eq_bind, Option.bind_some]
      split
      · rename_i behindComma comma
        have commaLength := length_of_skipSpace comma
        rw [settle.elements _ (by omega)]
      · rfl
      · rfl

theorem readersSettle (fuel : Nat) : ReadersSettle fuel := by
  induction fuel with
  | zero =>
      constructor
      all_goals
        intro text enough
        omega
  | succ fuel inductionHypothesis =>
      exact
        ⟨fun _ => inductionHypothesis.value_succ, fun _ => inductionHypothesis.object_succ,
          fun _ => inductionHypothesis.members_succ, fun _ => inductionHypothesis.array_succ,
          fun _ => inductionHypothesis.elements_succ⟩

/-- `jsonFuel` is enough: no fuel reads an object otherwise. -/
theorem readObject_jsonFuel {text : List UInt8} {fuel : Nat} (enough : jsonFuel text ≤ fuel) :
    readObject fuel text = readObject (jsonFuel text) text := by
  induction fuel, enough using Nat.le_induction with
  | base => rfl
  | succ fuel enough inductionHypothesis =>
      rw [(readersSettle fuel).object text enough, inductionHypothesis]

/-! ## Objects that are written out -/

/-- Plain strings and whole numbers, the way they are written. -/
inductive WrittenValue : List UInt8 → JsonValue → Prop
  | string {text : List UInt8} (plain : PlainText text) :
      WrittenValue (0x22 :: text ++ [0x22]) (.string text)
  | number (n : Nat) : WrittenValue (decimal n) (.number (decimal n))

/-- Members with commas between them and no blanks. -/
inductive WrittenMembers : List UInt8 → List (List UInt8 × JsonValue) → Prop
  | last {key text : List UInt8} {value : JsonValue} (plain : PlainText key)
      (written : WrittenValue text value) :
      WrittenMembers (0x22 :: key ++ 0x22 :: 0x3A :: text) [(key, value)]
  | cons {key text more : List UInt8} {value : JsonValue}
      {members : List (List UInt8 × JsonValue)} (plain : PlainText key)
      (written : WrittenValue text value) (rest : WrittenMembers more members) :
      WrittenMembers (0x22 :: key ++ 0x22 :: 0x3A :: (text ++ 0x2C :: more))
        ((key, value) :: members)

/-- The bytes behind a value. -/
def EndsValue (text : List UInt8) : Prop :=
  ∃ byte rest, text = byte :: rest ∧ (byte = 0x2C ∨ byte = 0x7D)

theorem EndsValue.endsNumber {text : List UInt8} (ends : EndsValue text) : EndsNumber text := by
  obtain ⟨byte, rest, rfl, rfl | rfl⟩ := ends
  · simp [EndsNumber, isDigit]
  · simp [EndsNumber, isDigit]

theorem skipSpace_cons {byte : UInt8} (ink : isJsonSpace byte = false) (rest : List UInt8) :
    skipSpace (byte :: rest) = byte :: rest := by
  simp [skipSpace, ink]

theorem readDigits_decimal (n : Nat) {text : List UInt8} (ends : EndsNumber text) :
    readDigits (decimal n ++ text) = some (decimal n, text) := by
  unfold readDigits
  dsimp only
  rw [takeWhile_digits isDigit_of_mem_decimal ends, dropWhile_digits isDigit_of_mem_decimal ends,
    if_neg (decimal_ne_nil n)]

theorem readInteger_decimal (n : Nat) {text : List UInt8} (ends : EndsNumber text) :
    readInteger (decimal n ++ text) = some (decimal n, text) := by
  cases n with
  | zero => rfl
  | succ n =>
      obtain ⟨byte, rest, written, nonzero, -⟩ := decimal_head (Nat.succ_pos n)
      have read := readDigits_decimal (n + 1) ends
      rw [written, List.cons_append] at read ⊢
      unfold readInteger
      split
      · rename_i same
        exact absurd (List.cons.inj same).1 nonzero
      · exact read

/-- A whole number is read as it is. -/
theorem readNumber_decimal (n : Nat) {text : List UInt8} (ends : EndsValue text) :
    readNumber (decimal n ++ text) = some (decimal n, text) := by
  obtain ⟨first, digits, written, digit⟩ := decimal_cons n
  have unsigned : readMinus (decimal n ++ text) = ([], decimal n ++ text) := by
    rw [written, List.cons_append]
    unfold readMinus
    split
    · rename_i same
      obtain ⟨rfl, -⟩ := List.cons.inj same
      cases digit
    · rfl
  have integer := readInteger_decimal n ends.endsNumber
  obtain ⟨byte, rest, rfl, rfl | rfl⟩ := ends
  · simp [readNumber, unsigned, integer, readFraction, readExponent]
  · simp [readNumber, unsigned, integer, readFraction, readExponent]

theorem readScalar_decimal (n : Nat) {text : List UInt8} (ends : EndsValue text) :
    readScalar (decimal n ++ text) = some (.number (decimal n), text) := by
  obtain ⟨first, digits, written, digit⟩ := decimal_cons n
  have read := readNumber_decimal n ends
  rw [written, List.cons_append] at read ⊢
  unfold readScalar
  split
  · rename_i same
    obtain ⟨rfl, -⟩ := List.cons.inj same
    cases digit
  · rename_i same
    obtain ⟨rfl, -⟩ := List.cons.inj same
    cases digit
  · rename_i same
    obtain ⟨rfl, -⟩ := List.cons.inj same
    cases digit
  · rw [read, Option.map_some]

theorem isJsonSpace_digit {byte : UInt8} (digit : isDigit byte = true) :
    isJsonSpace byte = false := by
  simp only [isJsonSpace, Bool.or_eq_false_iff, beq_eq_false_iff_ne]
  refine ⟨⟨⟨?_, ?_⟩, ?_⟩, ?_⟩
  all_goals
    rintro rfl
    cases digit

theorem readValue_quote (fuel : Nat) (rest : List UInt8) :
    readValue (fuel + 1) (0x22 :: rest) =
      (readString 0 rest).map fun (text, rest) => (.string text, rest) := rfl

theorem readMembers_quote (fuel : Nat) (rest : List UInt8) :
    readMembers (fuel + 1) (0x22 :: rest) = (do
      let (key, rest) ← readString 0 rest
      match skipSpace rest with
      | 0x3A :: rest => do
          let (value, rest) ← readValue fuel rest
          match skipSpace rest with
          | 0x2C :: rest => do
              let (more, rest) ← readMembers fuel rest
              pure ((key, value) :: more, rest)
          | 0x7D :: rest => pure ([(key, value)], rest)
          | _ => none
      | _ => none) := rfl

/-- A value that is written out is read back. -/
theorem WrittenValue.read {text : List UInt8} {value : JsonValue}
    (written : WrittenValue text value) {rest : List UInt8} (ends : EndsValue rest) (fuel : Nat) :
    readValue (fuel + 1) (text ++ rest) = some (value, rest) := by
  cases written with
  | @string text plain =>
      have read := readString_plain plain rest
      rw [List.cons_append, List.cons_append, List.append_assoc, List.singleton_append,
        readValue_quote, read, Option.map_some]
  | number n =>
      have read := readScalar_decimal n ends
      obtain ⟨first, digits, shape, digit⟩ := decimal_cons n
      rw [shape, List.cons_append] at read ⊢
      rw [readValue.eq_def]
      dsimp only
      rw [skipSpace_cons (isJsonSpace_digit digit)]
      split
      · rename_i same
        obtain ⟨rfl, -⟩ := List.cons.inj same
        cases digit
      · rename_i same
        obtain ⟨rfl, -⟩ := List.cons.inj same
        cases digit
      · rename_i same
        obtain ⟨rfl, -⟩ := List.cons.inj same
        cases digit
      · exact read

/-- The reading of one member whose value is read. -/
theorem readMembers_member {key text behind : List UInt8} {value : JsonValue} {fuel : Nat}
    (plain : PlainText key) (readHere : readValue fuel text = some (value, behind)) :
    readMembers (fuel + 1) (0x22 :: key ++ 0x22 :: 0x3A :: text) =
      match skipSpace behind with
      | 0x2C :: rest => do
          let (more, rest) ← readMembers fuel rest
          pure ((key, value) :: more, rest)
      | 0x7D :: rest => pure ([(key, value)], rest)
      | _ => none := by
  have readKey := readString_plain plain (0x3A :: text)
  have colon : skipSpace (0x3A :: text) = 0x3A :: text := skipSpace_cons rfl _
  rw [List.cons_append, readMembers_quote, readKey]
  simp only [Option.bind_eq_bind, Option.bind_some]
  split
  · rename_i behindColon same
    rw [colon] at same
    cases same
    rw [readHere, Option.bind_some]
  · rename_i noColon
    exact absurd colon (noColon _)

/-- Members that are written out are read back. -/
theorem WrittenMembers.read {text : List UInt8} {members : List (List UInt8 × JsonValue)}
    (written : WrittenMembers text members) (rest : List UInt8) {fuel : Nat}
    (enough : members.length < fuel) :
    readMembers fuel (text ++ 0x7D :: rest) = some (members, rest) := by
  induction written generalizing fuel with
  | last plain here =>
      rw [List.length_singleton] at enough
      obtain ⟨fuel, rfl⟩ : ∃ less, fuel = less + 2 := ⟨fuel - 2, by omega⟩
      have readHere := here.read ⟨0x7D, rest, rfl, .inr rfl⟩ fuel
      have read := readMembers_member plain readHere
      simp only [List.cons_append, List.append_assoc] at read ⊢
      exact read
  | @cons key text more value members plain here later inductionHypothesis =>
      rw [List.length_cons] at enough
      obtain ⟨fuel, rfl⟩ : ∃ less, fuel = less + 2 := ⟨fuel - 2, by omega⟩
      have readHere := here.read ⟨0x2C, more ++ 0x7D :: rest, rfl, .inl rfl⟩ fuel
      have read := readMembers_member plain readHere
      have readMore : readMembers (fuel + 1) (more ++ 0x7D :: rest) = some (members, rest) :=
        inductionHypothesis (by omega)
      simp only [List.cons_append, List.append_assoc] at read ⊢
      refine read.trans ?_
      change ((readMembers (fuel + 1) (more ++ 0x7D :: rest)).bind fun (more, rest) =>
        some ((key, value) :: more, rest)) = _
      rw [readMore, Option.bind_some]

theorem WrittenMembers.length_le {text : List UInt8} {members : List (List UInt8 × JsonValue)}
    (written : WrittenMembers text members) : members.length ≤ text.length := by
  induction written with
  | last plain here => simp
  | cons plain here later inductionHypothesis =>
      simp only [List.length_cons, List.length_append]
      omega

theorem WrittenMembers.starts {text : List UInt8} {members : List (List UInt8 × JsonValue)}
    (written : WrittenMembers text members) : ∃ rest, text = 0x22 :: rest := by
  cases written with
  | last plain here => exact ⟨_, rfl⟩
  | cons plain here later => exact ⟨_, rfl⟩

/-- An object that is written out is read back. -/
theorem WrittenMembers.readObject {text : List UInt8}
    {members : List (List UInt8 × JsonValue)} (written : WrittenMembers text members)
    (rest : List UInt8) :
    Lib.readObject (jsonFuel (text ++ 0x7D :: rest)) (text ++ 0x7D :: rest) =
      some (members, rest) := by
  have enough := written.length_le
  have read : readMembers (3 * (text ++ 0x7D :: rest).length + 2) (text ++ 0x7D :: rest) =
      some (members, rest) := by
    apply written.read rest
    rw [List.length_append]
    omega
  obtain ⟨more, rfl⟩ := written.starts
  exact read

end ForestLink.Lib
