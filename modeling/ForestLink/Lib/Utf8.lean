/-
Module: ForestLink.Lib.Utf8
Purpose: UTF-8 byte by byte: the character at the front of a text, well-formed texts, and the
  encoding of one code point.
Trusted boundary: none
Main exports: utf8Length, validUtf8, utf8Encode, validUtf8_append, validUtf8_utf8Encode
-/
import Mathlib.Data.List.Basic

namespace ForestLink.Lib

/-! ## Characters -/

/-- The bytes that follow a first byte: how many, and the range of the next one. -/
def utf8Lead (byte : UInt8) : Option (Nat × UInt8 × UInt8) :=
  if byte < 0x80 then some (0, 0x80, 0xBF)
  else if 0xC2 ≤ byte ∧ byte ≤ 0xDF then some (1, 0x80, 0xBF)
  else if byte = 0xE0 then some (2, 0xA0, 0xBF)
  else if byte = 0xED then some (2, 0x80, 0x9F)
  else if 0xE1 ≤ byte ∧ byte ≤ 0xEF then some (2, 0x80, 0xBF)
  else if byte = 0xF0 then some (3, 0x90, 0xBF)
  else if byte = 0xF4 then some (3, 0x80, 0x8F)
  else if 0xF1 ≤ byte ∧ byte ≤ 0xF3 then some (3, 0x80, 0xBF)
  else none

/-- A text starts with so many continuation bytes, the first of them in a range. -/
def utf8Tails : Nat → UInt8 → UInt8 → List UInt8 → Bool
  | 0, _, _, _ => true
  | _ + 1, _, _, [] => false
  | count + 1, low, high, byte :: rest =>
      low ≤ byte && byte ≤ high && utf8Tails count 0x80 0xBF rest

/-- The length of the character at the front of a text, 0 where there is none. -/
def utf8Length : List UInt8 → Nat
  | [] => 0
  | byte :: rest =>
      match utf8Lead byte with
      | none => 0
      | some (count, low, high) => if utf8Tails count low high rest then count + 1 else 0

/-- Well-formed text behind `skip` bytes that belong to a character already read. -/
def validUtf8 : Nat → List UInt8 → Bool
  | 0, [] => true
  | _ + 1, [] => false
  | skip + 1, _ :: rest => validUtf8 skip rest
  | 0, byte :: rest =>
      let length := utf8Length (byte :: rest)
      length != 0 && validUtf8 (length - 1) rest

/-! ## Continuation bytes -/

theorem utf8Tails_length {count : Nat} {low high : UInt8} {text : List UInt8}
    (tails : utf8Tails count low high text = true) : count ≤ text.length := by
  induction count generalizing low high text with
  | zero => exact Nat.zero_le _
  | succ count inductionHypothesis =>
      cases text with
      | nil => cases tails
      | cons byte rest =>
          simp only [utf8Tails, Bool.and_eq_true] at tails
          exact Nat.succ_le_succ (inductionHypothesis tails.2)

theorem utf8Tails_high {count : Nat} {low high : UInt8} {text : List UInt8}
    (continuation : 0x80 ≤ low) (tails : utf8Tails count low high text = true) :
    ∀ byte ∈ text.take count, 0x80 ≤ byte := by
  induction count generalizing low high text with
  | zero => simp
  | succ count inductionHypothesis =>
      cases text with
      | nil => cases tails
      | cons first rest =>
          simp only [utf8Tails, Bool.and_eq_true, decide_eq_true_eq] at tails
          intro byte member
          rw [List.take_succ_cons] at member
          rcases List.mem_cons.mp member with rfl | later
          · exact UInt8.le_trans continuation tails.1.1
          · exact inductionHypothesis (by decide) tails.2 byte later

/-- Text behind the continuation bytes does not matter. -/
theorem utf8Tails_append {count : Nat} {low high : UInt8} {text : List UInt8}
    (inside : count ≤ text.length) (more : List UInt8) :
    utf8Tails count low high (text ++ more) = utf8Tails count low high text := by
  induction count generalizing low high text with
  | zero => rfl
  | succ count inductionHypothesis =>
      cases text with
      | nil => cases inside
      | cons byte rest =>
          simp only [List.cons_append, utf8Tails]
          rw [inductionHypothesis (Nat.le_of_succ_le_succ inside)]

theorem utf8Tails_take {count : Nat} {low high : UInt8} {text : List UInt8}
    (tails : utf8Tails count low high text = true) :
    utf8Tails count low high (text.take count) = true := by
  have inside : count ≤ (text.take count).length := by
    have bound := utf8Tails_length tails
    rw [List.length_take]
    omega
  rw [← utf8Tails_append inside (text.drop count), List.take_append_drop]
  exact tails

/-- A byte below 0x80 is no continuation. -/
theorem utf8Tails_ascii {count : Nat} {low high byte : UInt8} {text : List UInt8}
    (continuation : 0x80 ≤ low) (ascii : byte < 0x80) (more : List UInt8) :
    utf8Tails count low high (text ++ byte :: more) = utf8Tails count low high text := by
  induction count generalizing low high text with
  | zero => rfl
  | succ count inductionHypothesis =>
      cases text with
      | nil =>
          have small : ¬ low ≤ byte := fun le =>
            absurd (UInt8.lt_of_le_of_lt (UInt8.le_trans continuation le) ascii) (by decide)
          simp [utf8Tails, small]
      | cons first rest =>
          simp only [List.cons_append, utf8Tails]
          rw [inductionHypothesis (by decide)]

/-- The ranges of the first continuation byte lie behind 0x80. -/
theorem utf8Lead_low {byte low high : UInt8} {count : Nat}
    (lead : utf8Lead byte = some (count, low, high)) :
    0x80 ≤ low ∧ (count = 0 ↔ byte < 0x80) := by
  unfold utf8Lead at lead
  split at lead
  · cases lead
    exact ⟨by decide, by simpa⟩
  all_goals
    rename_i large
    repeat' (split at lead)
    all_goals
      first
        | (cases lead; exact ⟨by decide, by simpa using large⟩)
        | cases lead

/-! ## The first character -/

theorem utf8Length_le (text : List UInt8) : utf8Length text ≤ text.length := by
  cases text with
  | nil => exact Nat.le_refl _
  | cons byte rest =>
      rw [utf8Length]
      split
      · exact Nat.zero_le _
      · split
        · rename_i tails
          exact Nat.succ_le_succ (utf8Tails_length tails)
        · exact Nat.zero_le _

/-- A byte below 0x80 behind a text does not change its first character. -/
theorem utf8Length_ascii {text : List UInt8} (filled : text ≠ []) {byte : UInt8}
    (ascii : byte < 0x80) (more : List UInt8) :
    utf8Length (text ++ byte :: more) = utf8Length text := by
  cases text with
  | nil => exact absurd rfl filled
  | cons first rest =>
      rw [List.cons_append, utf8Length, utf8Length]
      split
      · rfl
      · rename_i count low high lead
        rw [utf8Tails_ascii (utf8Lead_low lead).1 ascii]

/-- A whole first character does not depend on what follows. -/
theorem utf8Length_append {text : List UInt8} (whole : utf8Length text ≠ 0) (more : List UInt8) :
    utf8Length (text ++ more) = utf8Length text := by
  cases text with
  | nil => exact absurd rfl whole
  | cons first rest =>
      rw [List.cons_append, utf8Length]
      rw [utf8Length] at whole ⊢
      split
      · rfl
      · rename_i count low high lead
        rw [lead] at whole
        dsimp only at whole ⊢
        split at whole
        · rename_i tails
          rw [utf8Tails_append (utf8Tails_length tails)]
        · exact absurd rfl whole

/-- A character of several bytes has none below 0x80. -/
theorem utf8Length_high {first : UInt8} {rest : List UInt8} (large : 0x80 ≤ first) :
    ∀ byte ∈ (first :: rest).take (utf8Length (first :: rest)), 0x80 ≤ byte := by
  rw [utf8Length]
  split
  · simp
  · rename_i count low high lead
    split
    · rename_i tails
      intro byte member
      rw [List.take_succ_cons] at member
      rcases List.mem_cons.mp member with rfl | later
      · exact large
      · exact utf8Tails_high (utf8Lead_low lead).1 tails byte later
    · simp

theorem utf8Length_of_ascii {byte : UInt8} (ascii : byte < 0x80) (rest : List UInt8) :
    utf8Length (byte :: rest) = 1 := by
  simp [utf8Length, utf8Lead, ascii, utf8Tails]

/-! ## Well-formed text -/

theorem validUtf8_append {first second : List UInt8} {skip : Nat}
    (one : validUtf8 skip first = true) (two : validUtf8 0 second = true) :
    validUtf8 skip (first ++ second) = true := by
  induction first generalizing skip with
  | nil =>
      cases skip with
      | zero => exact two
      | succ skip => cases one
  | cons byte rest inductionHypothesis =>
      cases skip with
      | zero =>
          simp only [validUtf8, Bool.and_eq_true, bne_iff_ne, ne_eq] at one
          have same := utf8Length_append one.1 second
          rw [List.cons_append] at same ⊢
          simp only [validUtf8, Bool.and_eq_true, bne_iff_ne, ne_eq, same]
          exact ⟨one.1, inductionHypothesis one.2⟩
      | succ skip => exact inductionHypothesis one

/-- What is left behind whole characters is well formed. -/
theorem validUtf8_drop {text : List UInt8} {skip : Nat} (valid : validUtf8 skip text = true) :
    validUtf8 0 (text.drop skip) = true := by
  induction text generalizing skip with
  | nil =>
      cases skip with
      | zero => exact valid
      | succ skip => cases valid
  | cons byte rest inductionHypothesis =>
      cases skip with
      | zero => exact valid
      | succ skip => exact inductionHypothesis valid

/-- Bytes below 0x80 are characters of their own. -/
theorem validUtf8_drop_ascii {text : List UInt8} {count : Nat}
    (ascii : ∀ byte ∈ text.take count, byte < 0x80) (valid : validUtf8 0 text = true) :
    validUtf8 0 (text.drop count) = true := by
  induction count generalizing text with
  | zero => exact valid
  | succ count inductionHypothesis =>
      cases text with
      | nil => exact valid
      | cons byte rest =>
          rw [List.take_succ_cons] at ascii
          have here := ascii byte List.mem_cons_self
          simp only [validUtf8, utf8Length_of_ascii here, Nat.sub_self, Bool.and_eq_true] at valid
          exact inductionHypothesis (fun other member => ascii other (List.mem_cons_of_mem _ member))
            valid.2

theorem validUtf8_skip {text : List UInt8} {skip : Nat} (inside : skip ≤ text.length) :
    validUtf8 skip (text.take skip) = true := by
  induction text generalizing skip with
  | nil =>
      obtain rfl := Nat.le_zero.mp inside
      rfl
  | cons byte rest inductionHypothesis =>
      cases skip with
      | zero => rfl
      | succ skip => exact inductionHypothesis (Nat.le_of_succ_le_succ inside)

/-- A character alone is well formed. -/
theorem validUtf8_first {text : List UInt8} (whole : utf8Length text ≠ 0) :
    validUtf8 0 (text.take (utf8Length text)) = true := by
  cases text with
  | nil => rfl
  | cons byte rest =>
      obtain ⟨length, lengthEq⟩ : ∃ length, utf8Length (byte :: rest) = length + 1 :=
        ⟨_, (Nat.succ_pred_eq_of_ne_zero whole).symm⟩
      have bound := utf8Length_le (byte :: rest)
      rw [lengthEq] at bound
      have alone : utf8Length (byte :: rest.take length) = length + 1 := by
        rw [utf8Length] at lengthEq ⊢
        split at lengthEq
        · cases lengthEq
        · rename_i count low high lead
          split at lengthEq
          · rename_i tails
            obtain rfl := Nat.succ.inj lengthEq
            have here := utf8Tails_take tails
            simp [here]
          · cases lengthEq
      rw [lengthEq, List.take_succ_cons]
      simp only [validUtf8, alone, Nat.add_sub_cancel, Bool.and_eq_true]
      exact ⟨rfl, validUtf8_skip (Nat.le_of_succ_le_succ bound)⟩

/-! ## Encoding -/

/-- The bytes of a code point. -/
def utf8Encode (point : Nat) : List UInt8 :=
  if point < 0x80 then [UInt8.ofNat point]
  else if point < 0x800 then
    [UInt8.ofNat (0xC0 + point / 64), UInt8.ofNat (0x80 + point % 64)]
  else if point < 0x10000 then
    [UInt8.ofNat (0xE0 + point / 4096), UInt8.ofNat (0x80 + point / 64 % 64),
      UInt8.ofNat (0x80 + point % 64)]
  else
    [UInt8.ofNat (0xF0 + point / 262144), UInt8.ofNat (0x80 + point / 4096 % 64),
      UInt8.ofNat (0x80 + point / 64 % 64), UInt8.ofNat (0x80 + point % 64)]

/-- The code points of characters: all but the surrogates. -/
def IsScalar (point : Nat) : Prop := point < 0xD800 ∨ (0xDFFF < point ∧ point < 0x110000)

theorem ofNat_lt {n : Nat} (small : n < 256) (bound : UInt8) :
    UInt8.ofNat n < bound ↔ n < bound.toNat := by
  rw [UInt8.lt_iff_toNat_lt, UInt8.toNat_ofNat', Nat.mod_eq_of_lt small]

theorem ofNat_le {n : Nat} (small : n < 256) (bound : UInt8) :
    UInt8.ofNat n ≤ bound ↔ n ≤ bound.toNat := by
  rw [UInt8.le_iff_toNat_le, UInt8.toNat_ofNat', Nat.mod_eq_of_lt small]

theorem le_ofNat {n : Nat} (small : n < 256) (bound : UInt8) :
    bound ≤ UInt8.ofNat n ↔ bound.toNat ≤ n := by
  rw [UInt8.le_iff_toNat_le, UInt8.toNat_ofNat', Nat.mod_eq_of_lt small]

theorem ofNat_eq {n : Nat} (small : n < 256) (byte : UInt8) :
    UInt8.ofNat n = byte ↔ n = byte.toNat := by
  rw [← UInt8.toNat_inj, UInt8.toNat_ofNat', Nat.mod_eq_of_lt small]

/-- The table over numbers. -/
theorem utf8Lead_ofNat {n : Nat} (small : n < 256) :
    utf8Lead (UInt8.ofNat n) =
      if n < 0x80 then some (0, 0x80, 0xBF)
      else if 0xC2 ≤ n ∧ n ≤ 0xDF then some (1, 0x80, 0xBF)
      else if n = 0xE0 then some (2, 0xA0, 0xBF)
      else if n = 0xED then some (2, 0x80, 0x9F)
      else if 0xE1 ≤ n ∧ n ≤ 0xEF then some (2, 0x80, 0xBF)
      else if n = 0xF0 then some (3, 0x90, 0xBF)
      else if n = 0xF4 then some (3, 0x80, 0x8F)
      else if 0xF1 ≤ n ∧ n ≤ 0xF3 then some (3, 0x80, 0xBF)
      else none := by
  simp only [utf8Lead, ofNat_lt small, ofNat_le small, le_ofNat small, ofNat_eq small]
  rfl

/-- A last continuation byte. -/
theorem utf8Tails_digit {low high : UInt8} (six : Nat)
    (inside : low.toNat ≤ 0x80 + six ∧ 0x80 + six ≤ high.toNat) (small : six < 64)
    {count : Nat} {rest : List UInt8} (tails : utf8Tails count 0x80 0xBF rest = true) :
    utf8Tails (count + 1) low high (UInt8.ofNat (0x80 + six) :: rest) = true := by
  simp only [utf8Tails, Bool.and_eq_true, decide_eq_true_eq]
  rw [le_ofNat (by omega), ofNat_le (by omega)]
  exact ⟨inside, tails⟩

theorem validUtf8_of_lead {byte low high : UInt8} {count : Nat} {rest : List UInt8}
    (lead : utf8Lead byte = some (count, low, high)) (tails : utf8Tails count low high rest = true)
    (length : rest.length = count) : validUtf8 0 (byte :: rest) = true := by
  have whole : utf8Length (byte :: rest) = count + 1 := by
    rw [utf8Length, lead]
    simp [tails]
  have alone := @validUtf8_first (byte :: rest) (by omega)
  rwa [whole, List.take_succ_cons, ← length, List.take_length] at alone

theorem validUtf8_utf8Encode {point : Nat} (scalar : IsScalar point) :
    validUtf8 0 (utf8Encode point) = true := by
  unfold IsScalar at scalar
  have top : ∀ six : Nat, six < 64 → (0x80 : UInt8).toNat ≤ 0x80 + six ∧
      0x80 + six ≤ (0xBF : UInt8).toNat := by
    intro six small
    exact ⟨Nat.le_add_right _ _, by change 0x80 + six ≤ 0xBF; omega⟩
  have last : ∀ six : Nat, six < 64 →
      utf8Tails 1 0x80 0xBF [UInt8.ofNat (0x80 + six)] = true :=
    fun six small => utf8Tails_digit six (top six small) small rfl
  have two : ∀ first second : Nat, first < 64 → second < 64 →
      utf8Tails 2 0x80 0xBF [UInt8.ofNat (0x80 + first), UInt8.ofNat (0x80 + second)] = true :=
    fun first second one other => utf8Tails_digit first (top first one) one (last second other)
  have three : ∀ first second third : Nat, first < 64 → second < 64 → third < 64 →
      utf8Tails 3 0x80 0xBF [UInt8.ofNat (0x80 + first), UInt8.ofNat (0x80 + second),
        UInt8.ofNat (0x80 + third)] = true :=
    fun first second third one other more =>
      utf8Tails_digit first (top first one) one (two second third other more)
  unfold utf8Encode
  split
  · have lead : utf8Lead (UInt8.ofNat point) = some (0, 0x80, 0xBF) := by
      rw [utf8Lead_ofNat (by omega), if_pos (by omega)]
    exact validUtf8_of_lead lead rfl rfl
  split
  · have lead : utf8Lead (UInt8.ofNat (0xC0 + point / 64)) = some (1, 0x80, 0xBF) := by
      rw [utf8Lead_ofNat (by omega), if_neg (by omega), if_pos (by omega)]
    exact validUtf8_of_lead lead (last _ (Nat.mod_lt _ (by decide))) rfl
  split
  · -- The first of three bytes bounds the second at both ends of its range.
    by_cases low : point < 0x1000
    · have lead : utf8Lead (UInt8.ofNat (0xE0 + point / 4096)) = some (2, 0xA0, 0xBF) := by
        rw [utf8Lead_ofNat (by omega), if_neg (by omega), if_neg (by omega), if_pos (by omega)]
      apply validUtf8_of_lead lead _ rfl
      refine utf8Tails_digit _ ⟨?_, ?_⟩ (by omega) (last _ (Nat.mod_lt _ (by decide)))
      · change 0xA0 ≤ _
        omega
      · change _ ≤ 0xBF
        omega
    by_cases middle : 0xD000 ≤ point ∧ point < 0xD800
    · have lead : utf8Lead (UInt8.ofNat (0xE0 + point / 4096)) = some (2, 0x80, 0x9F) := by
        rw [utf8Lead_ofNat (by omega), if_neg (by omega), if_neg (by omega), if_neg (by omega),
          if_pos (by omega)]
      apply validUtf8_of_lead lead _ rfl
      refine utf8Tails_digit _ ⟨Nat.le_add_right _ _, ?_⟩ (by omega)
        (last _ (Nat.mod_lt _ (by decide)))
      change _ ≤ 0x9F
      omega
    · have lead : utf8Lead (UInt8.ofNat (0xE0 + point / 4096)) = some (2, 0x80, 0xBF) := by
        rw [utf8Lead_ofNat (by omega), if_neg (by omega), if_neg (by omega), if_neg (by omega),
          if_neg (by omega), if_pos (by omega)]
      exact validUtf8_of_lead lead (two _ _ (Nat.mod_lt _ (by decide)) (Nat.mod_lt _ (by decide)))
        rfl
  · by_cases low : point < 0x40000
    · have lead : utf8Lead (UInt8.ofNat (0xF0 + point / 262144)) = some (3, 0x90, 0xBF) := by
        rw [utf8Lead_ofNat (by omega), if_neg (by omega), if_neg (by omega), if_neg (by omega),
          if_neg (by omega), if_neg (by omega), if_pos (by omega)]
      apply validUtf8_of_lead lead _ rfl
      refine utf8Tails_digit _ ⟨?_, ?_⟩ (by omega)
        (two _ _ (Nat.mod_lt _ (by decide)) (Nat.mod_lt _ (by decide)))
      · change 0x90 ≤ _
        omega
      · change _ ≤ 0xBF
        omega
    by_cases high : 0x100000 ≤ point
    · have lead : utf8Lead (UInt8.ofNat (0xF0 + point / 262144)) = some (3, 0x80, 0x8F) := by
        rw [utf8Lead_ofNat (by omega), if_neg (by omega), if_neg (by omega), if_neg (by omega),
          if_neg (by omega), if_neg (by omega), if_neg (by omega), if_pos (by omega)]
      apply validUtf8_of_lead lead _ rfl
      refine utf8Tails_digit _ ⟨Nat.le_add_right _ _, ?_⟩ (by omega)
        (two _ _ (Nat.mod_lt _ (by decide)) (Nat.mod_lt _ (by decide)))
      change _ ≤ 0x8F
      omega
    · have lead : utf8Lead (UInt8.ofNat (0xF0 + point / 262144)) = some (3, 0x80, 0xBF) := by
        rw [utf8Lead_ofNat (by omega), if_neg (by omega), if_neg (by omega), if_neg (by omega),
          if_neg (by omega), if_neg (by omega), if_neg (by omega), if_neg (by omega),
          if_pos (by omega)]
      exact validUtf8_of_lead lead (three _ _ _ (Nat.mod_lt _ (by decide))
        (Nat.mod_lt _ (by decide)) (Nat.mod_lt _ (by decide))) rfl

end ForestLink.Lib
