import BoolQuery.Json.Reader
import BoolQuery.Json.Writer

/-! Escaped text, read back.

Each character is read back from its escape, a character beyond the first plane from the two
units of a pair. So a written text is read back whole: `readText_flatMap_escapeChar`.
-/

set_option autoImplicit false

namespace BoolQuery.Json

theorem readText_unit {unit : Nat} (small : unit < 0x10000) {c : Char}
    (alone : unitChar? unit = some c) (rest : List Char) :
    readText (escapeUnit unit ++ rest) =
      (readText rest).map fun (text, after) => (c :: text, after) := by
  have value := Text.hexNumber?_hexDigits 4 small
  rw [Text.hexDigits_four] at value
  simp only [escapeUnit, Text.hexDigits_four, List.cons_append, List.nil_append]
  rw [readText, value]
  simp only [Option.bind_eq_bind, Option.bind_some, alone]
  cases readText rest <;> rfl

theorem readText_pair {high low : Nat} (small : high < 0x10000) (small' : low < 0x10000)
    {c : Char} (half : unitChar? high = none) (pair : pairChar? high low = some c)
    (rest : List Char) :
    readText (escapeUnit high ++ escapeUnit low ++ rest) =
      (readText rest).map fun (text, after) => (c :: text, after) := by
  have value := Text.hexNumber?_hexDigits 4 small
  have value' := Text.hexNumber?_hexDigits 4 small'
  rw [Text.hexDigits_four] at value value'
  simp only [escapeUnit, Text.hexDigits_four, List.cons_append, List.nil_append]
  rw [readText, value]
  simp only [Option.bind_eq_bind, Option.bind_some, half, value', pair]
  cases readText rest <;> rfl

theorem readText_escape {c e : Char} (known : escapedChar? e = some c) (other : e ≠ 'u')
    (rest : List Char) :
    readText ('\\' :: e :: rest) =
      (readText rest).map fun (text, after) => (c :: text, after) := by
  rw [readText, known]
  · cases readText rest <;> rfl
  · simp [other]

theorem readText_plain {c : Char} (visible : 0x20 ≤ c.toNat) (quote : c ≠ '"')
    (backslash : c ≠ '\\') (rest : List Char) :
    readText (c :: rest) = (readText rest).map fun (text, after) => (c :: text, after) := by
  rw [readText, if_neg]
  · simp [backslash]
    omega
  all_goals simp [quote, backslash]

theorem unitChar?_toNat {c : Char} : unitChar? c.toNat = some c := by
  have valid : c.toNat < 0xd800 ∨ 0xdfff < c.toNat ∧ c.toNat < 0x110000 := c.valid
  rw [unitChar?, if_neg (by omega), Char.ofNat_toNat]

theorem pairChar?_halves {c : Char} (large : 0x10000 ≤ c.toNat) :
    pairChar? (0xd800 + (c.toNat - 0x10000) / 0x400) (0xdc00 + (c.toNat - 0x10000) % 0x400) =
      some c := by
  have valid : c.toNat < 0xd800 ∨ 0xdfff < c.toNat ∧ c.toNat < 0x110000 := c.valid
  have same : 0x10000 + (0xd800 + (c.toNat - 0x10000) / 0x400 - 0xd800) * 0x400 +
      (0xdc00 + (c.toNat - 0x10000) % 0x400 - 0xdc00) = c.toNat := by omega
  rw [pairChar?, if_pos (by omega), same, Char.ofNat_toNat]

theorem readText_escapeChar (c : Char) (rest : List Char) :
    readText (escapeChar c ++ rest) =
      (readText rest).map fun (text, after) => (c :: text, after) := by
  have valid : c.toNat < 0xd800 ∨ 0xdfff < c.toNat ∧ c.toNat < 0x110000 := c.valid
  unfold escapeChar
  -- The seven characters that have an escape of one letter.
  iterate 7
    split
    next same =>
      subst same
      exact readText_escape rfl (by decide) rest
  split
  next quote backslash _ _ _ _ _ visible => exact readText_plain visible.1 quote backslash rest
  split
  next small => exact readText_unit small unitChar?_toNat rest
  next large =>
    have half : unitChar? (0xd800 + (c.toNat - 0x10000) / 0x400) = none := by
      rw [unitChar?, if_pos (by omega)]
    exact readText_pair (by omega) (by omega) half (pairChar?_halves (by omega)) rest

theorem readText_flatMap_escapeChar (text rest : List Char) :
    readText (text.flatMap escapeChar ++ '"' :: rest) = some (text, rest) := by
  induction text with
  | nil => simp [readText]
  | cons c text ih =>
    rw [List.flatMap_cons, List.append_assoc, readText_escapeChar, ih]
    rfl

end BoolQuery.Json
