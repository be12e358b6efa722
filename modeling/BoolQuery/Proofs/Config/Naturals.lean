import BoolQuery.Config.Setting
import BoolQuery.Proofs.Number.Grammar

/-! The values that stand for natural numbers.

A text stands for a number if it is a numeral with spaces around it at most, and an integer stands
for itself. Any other value, when it is displayed, has a character that no numeral has, so that to
read the texts of all values would come to the same: `natural_iff_numeral`.
-/

set_option autoImplicit false

namespace BoolQuery

/-! ## Displayed values -/

namespace Binary64

theorem Decimal.mem_render (decimal : Decimal) : '.' ∈ decimal.render ∨ 'e' ∈ decimal.render := by
  unfold render
  dsimp only
  split
  · exact .inl (by simp)
  split
  · exact .inl (by simp)
  · exact .inr (by simp)

theorem exists_foreign_render (number : Binary64) :
    ∃ c ∈ number.render "inf" "nan", Numeral.Foreign c := by
  unfold render
  split
  · exact ⟨'n', by decide, by decide⟩
  -- The sign in front does not matter.
  suffices magnitude : ∃ c ∈ if number.isInfinite then "inf".toList else number.shortest.render,
      Numeral.Foreign c by
    obtain ⟨c, inside, foreign⟩ := magnitude
    exact ⟨c, List.mem_append_right _ inside, foreign⟩
  split
  · exact ⟨'n', by decide, by decide⟩
  · obtain point | exponent := number.shortest.mem_render
    · exact ⟨'.', point, by decide⟩
    · exact ⟨'e', exponent, by decide⟩

end Binary64

namespace Data

theorem plain_eq_display {value : Data} (untext : ∀ text, value ≠ .text text) :
    value.plain = value.display := by
  rw [plain]
  exact untext

theorem exists_foreign_display {value : Data} (other : ∀ number, value ≠ .int number)
    (untext : ∀ text, value ≠ .text text) : ∃ c ∈ value.display, Numeral.Foreign c := by
  cases value with
  | null => exact ⟨'N', by simp [display], by decide⟩
  | bool value => cases value <;> exact ⟨'e', by simp [display], by decide⟩
  | int number => exact (other number rfl).elim
  | float number => simpa only [display] using number.exists_foreign_render
  | text text => exact (untext text rfl).elim
  | list items => cases items <;> exact ⟨'[', by simp [display], by decide⟩
  | object members => cases members <;> exact ⟨'\x7b', by simp [display], by decide⟩

end Data

/-! ## Values of settings -/

namespace Config

open Text (isSpace)

theorem natural?_text_eq_some_iff {text : String} {number : Nat} :
    natural? (.text text) = some number ↔
      ∃ lead numeral trail, text.toList = lead ++ (numeral ++ trail) ∧
        (∀ c ∈ lead ++ trail, isSpace c = true) ∧ Numeral.Spells numeral number := by
  simp only [natural?, Option.bind_eq_some_iff, Int.mem_toNat?, exists_eq_right,
    Numeral.read_trim_iff]

theorem natural?_of_short {value : Int}
    (few : (Nat.toDigits 10 value.natAbs).length ≤ Data.maxTextDigits) :
    natural? (.int value) = value.toNat? := by
  rw [natural?, if_pos (Data.isShortInt_iff.mpr few)]

/-- Reading the text of a value comes to the same, whatever the value is. -/
theorem natural?_eq_read_plain {value : Data} (texted : value.hasText = true) :
    natural? value = (Numeral.read (Text.trim value.plain)).bind Int.toNat? := by
  have foreign (other : ∀ number, value ≠ .int number) (untext : ∀ text, value ≠ .text text) :
      Numeral.read (Text.trim value.plain) = none := by
    obtain ⟨c, inside, foreign⟩ := Data.exists_foreign_display other untext
    rw [Data.plain_eq_display untext]
    exact Numeral.read_trim_of_foreign inside foreign
  cases value with
  | text text => rfl
  | int number =>
    rw [Data.hasText] at texted
    have few := Data.isShortInt_iff.mp texted
    have untext : ∀ text, Data.int number ≠ .text text := by simp
    have reads : Numeral.read (Text.trim (Data.int number).plain) = some number := by
      rw [Data.plain_eq_display untext, Data.display, Numeral.read_trim_toString few]
    rw [natural?_of_short few, reads, Option.bind_some]
  | null | bool | float | list | object =>
    rw [foreign (by simp) (by simp)]
    rfl

end Config

end BoolQuery
