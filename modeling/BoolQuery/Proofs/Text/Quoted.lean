import BoolQuery.Text.Quoted
import Mathlib.Data.List.Basic

/-! Quoted text, read back.

Each character is read back from the front of its escape, whatever follows, so a quoted text is
determined by what it is made of: `quoted_injective`. No line feed is left in it:
`feed_not_mem_quoted`.
-/

set_option autoImplicit false

namespace BoolQuery.Text

/-! ## Reading -/

/-- The number of digits that follow a letter behind a backslash. -/
def codeWidth? (letter : Char) : Option Nat :=
  if letter = 'x' then some 2
  else if letter = 'u' then some 4
  else if letter = 'U' then some 8
  else none

/-- What a letter stands for behind a backslash, if no digits follow it. -/
def namedChar (letter : Char) : Char :=
  if letter = 'n' then '\n'
  else if letter = 'r' then '\r'
  else if letter = 't' then '\t'
  else letter

/-- The first character of an escaped text, and what follows its escape. -/
def readEscaped : List Char → Option (Char × List Char)
  | [] => none
  | '\\' :: letter :: rest =>
    match codeWidth? letter with
    | some width =>
      (hexNumber? (rest.take width)).map fun code => (Char.ofNat code, rest.drop width)
    | none => some (namedChar letter, rest)
  | c :: rest => some (c, rest)

theorem readEscaped_plain {c : Char} (plain : c ≠ '\\') (rest : List Char) :
    readEscaped (c :: rest) = some (c, rest) := by
  rw [readEscaped]
  simp [plain]

theorem readEscaped_named {letter c : Char} (uncoded : codeWidth? letter = none)
    (named : namedChar letter = c) (rest : List Char) :
    readEscaped ('\\' :: letter :: rest) = some (c, rest) := by
  rw [readEscaped, uncoded, named]

theorem readEscaped_code {letter c : Char} {width : Nat} (wide : codeWidth? letter = some width)
    (small : c.toNat < Nat.pow 16 width) (rest : List Char) :
    readEscaped ('\\' :: letter :: hexDigits width c.toNat ++ rest) = some (c, rest) := by
  have length := length_hexDigits width c.toNat
  rw [List.cons_append, List.cons_append, readEscaped, wide]
  simp only [List.take_left' length, List.drop_left' length, hexNumber?_hexDigits width small,
    Option.map_some, Char.ofNat_toNat]

theorem readEscaped_escapeCode (c : Char) (rest : List Char) :
    readEscaped (escapeCode c.toNat ++ rest) = some (c, rest) := by
  have valid : c.toNat < 0xd800 ∨ 0xdfff < c.toNat ∧ c.toNat < 0x110000 := c.valid
  unfold escapeCode
  split
  next small => exact readEscaped_code rfl small rest
  split
  next small => exact readEscaped_code rfl small rest
  next =>
    have room : 0x110000 ≤ Nat.pow 16 8 := by decide
    exact readEscaped_code rfl (by omega) rest

/-- A text is quoted with one of these. -/
def IsQuote (quote : Char) : Prop := quote = '\x27' ∨ quote = '"'

theorem isQuote_quoteFor (text : List Char) : IsQuote (quoteFor text) := by
  unfold quoteFor
  split
  · exact .inr rfl
  · exact .inl rfl

theorem readEscaped_quoteChar {quote : Char} (sort : IsQuote quote) (c : Char) (rest : List Char) :
    readEscaped (quoteChar quote c ++ rest) = some (c, rest) := by
  unfold quoteChar
  split
  next itself =>
    have letter : codeWidth? c = none ∧ namedChar c = c := by
      rcases itself with rfl | rfl
      · rcases sort with rfl | rfl <;> decide
      · decide
    exact readEscaped_named letter.1 letter.2 rest
  next other =>
    iterate 3
      split
      next same =>
        subst same
        exact readEscaped_named rfl rfl rest
    split
    · exact readEscaped_plain (not_or.mp other).2 rest
    · exact readEscaped_escapeCode c rest

/-! ## Quoted text -/

theorem flatMap_quoteChar_injective {quote : Char} (sort : IsQuote quote) :
    Function.Injective fun text : List Char => text.flatMap (quoteChar quote) := by
  have front (c : Char) (text : List Char) :
      readEscaped ((c :: text).flatMap (quoteChar quote)) =
        some (c, text.flatMap (quoteChar quote)) := by
    rw [List.flatMap_cons, readEscaped_quoteChar sort]
  intro first
  induction first with
  | nil =>
    intro second same
    cases second with
    | nil => rfl
    | cons c second => exact absurd ((congrArg readEscaped same).trans (front c second)) nofun
  | cons c first ih =>
    intro second same
    cases second with
    | nil => exact absurd ((congrArg readEscaped same).symm.trans (front c first)) nofun
    | cons d second =>
      have read := (front c first).symm.trans ((congrArg readEscaped same).trans (front d second))
      simp only [Option.some.injEq, Prod.mk.injEq] at read
      rw [read.1, ih read.2]

/-- The quote in use stands in front, so it is known before anything is read. -/
theorem quoteChars_injective : Function.Injective quoteChars := by
  intro first second same
  simp only [quoteChars, List.cons_append, List.cons.injEq] at same
  obtain ⟨quote, body⟩ := same
  rw [quote] at body
  exact flatMap_quoteChar_injective (isQuote_quoteFor second) (List.append_cancel_right body)

theorem quoted_injective : Function.Injective quoted := by
  intro first second same
  exact String.toList_inj.mp (quoteChars_injective (String.ofList_injective same))

theorem feed_not_mem_escapeCode (code : Nat) : '\n' ∉ escapeCode code := by
  have digits (width : Nat) : '\n' ∉ hexDigits width code := by
    intro member
    obtain ⟨digit, same⟩ := exists_of_mem_hexDigits member
    revert digit
    decide
  unfold escapeCode
  split
  · simp [digits]
  split
  · simp [digits]
  · simp [digits]

theorem feed_not_mem_quoteChar {quote : Char} (sort : IsQuote quote) (c : Char) :
    '\n' ∉ quoteChar quote c := by
  unfold quoteChar
  split
  next itself =>
    rcases itself with rfl | rfl
    · rcases sort with rfl | rfl <;> decide
    · decide
  split
  · decide
  next unfed =>
    iterate 2
      split
      · decide
    split
    · simpa using Ne.symm unfed
    · exact feed_not_mem_escapeCode c.toNat

theorem feed_not_mem_quoted (text : String) : '\n' ∉ (quoted text).toList := by
  have sort := isQuote_quoteFor text.toList
  have quote : '\n' ≠ quoteFor text.toList := by rcases sort with same | same <;> simp [same]
  simp [quoted, quoteChars, quote, feed_not_mem_quoteChar sort]

end BoolQuery.Text
