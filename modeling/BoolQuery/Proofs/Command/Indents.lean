import BoolQuery.Command.Compile
import BoolQuery.Proofs.Number.Grammar

/-! Indents of the command line and of settings.

Both are numerals with spaces around them, but a setting is trimmed of every space of Unicode, while
an indent on the command line keeps the information separators of ASCII, and no numeral has one. A
text with one of these is refused there, whatever a setting makes of it; of any other text both make
the same: `readIndent_iff_setting`.
-/

set_option autoImplicit false

namespace BoolQuery

open Text (isSpace)

namespace Text

/-- The information separators of ASCII. -/
def Separator (c : Char) : Prop := '\x1c' ≤ c ∧ c ≤ '\x1f'

instance (c : Char) : Decidable (Separator c) := inferInstanceAs (Decidable (_ ∧ _))

theorem Separator.isSpace {c : Char} (separator : Separator c) : isSpace c = true := by
  simp [Text.isSpace, separator.1, separator.2]

end Text

open Text (Separator)

namespace Numeral

theorem isPadding_iff {c : Char} : isPadding c = true ↔ isSpace c = true ∧ ¬ Separator c := by
  rw [isPadding, Bool.and_eq_true, Bool.not_eq_true', ← Bool.not_eq_true, Bool.and_eq_true,
    decide_eq_true_eq, decide_eq_true_eq, Separator]

theorem read_eq_some_iff {text : List Char} {number : Int} :
    read text = some number ↔
      ∃ lead numeral trail, text = lead ++ (numeral ++ trail) ∧
        (∀ c ∈ lead ++ trail, isPadding c = true) ∧ Spells numeral number :=
  readSigned_trimWhile_iff fun _ padding => (isPadding_iff.mp padding).1

/-- What trimming makes readable is a text with separators at its ends, and nothing else. -/
theorem read_eq_some_iff_read_trim {text : List Char} {number : Int} :
    read text = some number ↔
      read (Text.trim text) = some number ∧ ∀ c ∈ text, ¬ Separator c := by
  rw [read_eq_some_iff, read_trim_iff]
  constructor
  · rintro ⟨lead, numeral, trail, rfl, around, spells⟩
    have padding (c : Char) (outside : c ∈ lead ++ trail) := isPadding_iff.mp (around c outside)
    refine ⟨⟨lead, numeral, trail, rfl, fun c outside => (padding c outside).1, spells⟩, ?_⟩
    intro c inside separator
    by_cases outside : c ∈ lead ++ trail
    · exact (padding c outside).2 separator
    · have within : c ∈ numeral := by
        simp only [List.mem_append, not_or] at inside outside
        exact (inside.resolve_left outside.1).resolve_right outside.2
      exact Bool.noConfusion ((spells.not_isSpace within).symm.trans separator.isSpace)
  · rintro ⟨⟨lead, numeral, trail, rfl, around, spells⟩, plain⟩
    refine ⟨lead, numeral, trail, rfl, fun c outside => ?_, spells⟩
    have inside : c ∈ lead ++ (numeral ++ trail) := by
      rw [List.mem_append] at outside
      simp only [List.mem_append]
      exact outside.imp_right .inr
    exact isPadding_iff.mpr ⟨around c outside, plain c inside⟩

end Numeral

namespace Command.Compile

open Config (natural?)

theorem readIndent_eq_ok_iff {text : String} {indent : Nat} :
    readIndent text = .ok indent ↔ Numeral.read text.toList = some (indent : Int) := by
  unfold readIndent
  cases Numeral.read text.toList with
  | none => simp
  | some number => cases number <;> simp [Int.toNat?]

/-- A refused text is told, with what it should have been. -/
theorem readIndent_eq_error_iff {text : String} :
    (∃ message, readIndent text = .error message) ↔ ∀ indent, readIndent text ≠ .ok indent := by
  cases readIndent text <;> simp

/-- An indent of the command line is a setting's without an information separator in its text.
Without one, a text that is refused in one place is refused in the other, and one that is taken
stands for the same number. -/
theorem readIndent_iff_setting (text : String) :
    (∀ indent, readIndent text = .ok indent ↔
      natural? (.text text) = some indent ∧ ∀ c ∈ text.toList, ¬ Separator c) ∧
    ((∃ message, readIndent text = .error message) ↔
      natural? (.text text) = none ∨ ∃ c ∈ text.toList, Separator c) := by
  have taken (indent : Nat) : readIndent text = .ok indent ↔
      natural? (.text text) = some indent ∧ ∀ c ∈ text.toList, ¬ Separator c := by
    rw [readIndent_eq_ok_iff, Numeral.read_eq_some_iff_read_trim, natural?]
    simp only [Option.bind_eq_some_iff, Int.mem_toNat?, exists_eq_right]
  refine ⟨taken, ?_⟩
  rw [readIndent_eq_error_iff]
  simp only [ne_eq, taken, not_and, not_forall, not_not]
  cases natural? (.text text) with
  | none => simp
  | some number => simp

/-- A setting takes a separator in front of a numeral for a space, and the command line does not. -/
theorem separator_splits_readIndent_setting :
    Config.isBlank (.text "\x1c5") = false ∧ natural? (.text "\x1c5") = some 5 ∧
      readIndent "\x1c5" = .error "Invalid indent '\x1c5'. Expected an integer." := by
  refine ⟨?_, ?_, ?_⟩
  all_goals decide

end Command.Compile

end BoolQuery
