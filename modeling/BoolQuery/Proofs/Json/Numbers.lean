import BoolQuery.Json.Reader
import BoolQuery.Json.Writer
import BoolQuery.Proofs.Number.Decimal
import Mathlib.Data.List.TakeWhile

/-! Whole numbers, read back.

The decimal digits of a number have no zero in front, and a number is read back from them where
it cannot go on: `readNumber_toString`.
-/

set_option autoImplicit false

namespace BoolQuery.Json

theorem no_leading_zero (number : Nat) : ¬ ((Nat.toDigits 10 number).head? = some '0' ∧
    1 < (Nat.toDigits 10 number).length) := by
  rintro ⟨zero, several⟩
  rcases Nat.eq_zero_or_pos number with rfl | positive
  · exact absurd several (by decide)
  · exact head?_toDigits_ne_zero positive zero

theorem digitsValue_toDigits (number : Nat) : digitsValue (Nat.toDigits 10 number) = number :=
  foldl_toDigits (fun _ _ => rfl) number

theorem exists_toString (value : Int) :
    ∃ c text, (toString value).toList = c :: text ∧ (c = '-' ∨ c.isDigit = true) := by
  rw [toList_toString_int]
  split
  · exact ⟨'-', _, rfl, .inl rfl⟩
  · obtain ⟨c, digits, shape⟩ :=
      List.exists_cons_of_ne_nil (Nat.toDigits_ne_nil (n := value.natAbs) (b := 10))
    have member : c ∈ Nat.toDigits 10 value.natAbs := by simp [shape]
    exact ⟨c, digits, shape, .inr (isDigit_of_mem member)⟩

theorem not_isGap_of_number {c : Char} (sort : c = '-' ∨ c.isDigit = true) : isGap c = false := by
  rw [← Bool.not_eq_true]
  intro gap
  simp only [isGap, Bool.or_eq_true, beq_iff_eq] at gap
  rcases gap with ((rfl | rfl) | rfl) | rfl <;> cases sort <;> contradiction

/-- A text in which a number cannot go on. -/
def Halts (rest : List Char) : Prop :=
  ∀ c ∈ rest.head?, c.isDigit = false ∧ c ≠ '.' ∧ c ≠ 'e' ∧ c ≠ 'E'

section

variable {rest : List Char}

theorem readDigits?_append {digits : List Char} (nonempty : digits ≠ [])
    (plain : ∀ c ∈ digits, c.isDigit = true) (halts : Halts rest) :
    readDigits? (digits ++ rest) = some (digits, rest) := by
  have stop : rest.takeWhile Char.isDigit = [] ∧ rest.dropWhile Char.isDigit = rest := by
    cases rest with
    | nil => exact ⟨rfl, rfl⟩
    | cons c rest => simp [(halts c rfl).1]
  rw [readDigits?, List.takeWhile_append_of_pos plain, List.dropWhile_append_of_pos plain, stop.1,
    stop.2, List.append_nil, if_neg (by simpa using nonempty)]

theorem Halts.readFraction (halts : Halts rest) : readFraction rest = some (none, rest) := by
  cases rest with
  | nil => rfl
  | cons c rest =>
    have point := (halts c rfl).2.1
    rw [Json.readFraction]
    rintro _ ⟨rfl, -⟩
    exact point rfl

theorem Halts.readExponent (halts : Halts rest) : readExponent rest = some (none, rest) := by
  cases rest with
  | nil => rfl
  | cons c rest =>
    have mark := (halts c rfl).2.2
    unfold Json.readExponent
    exact if_neg (by simpa using mark)

theorem readNumber_toDigits (number : Nat) (halts : Halts rest) :
    readNumber (Nat.toDigits 10 number ++ rest) = some (.int number, rest) ∧
      readNumber ('-' :: (Nat.toDigits 10 number ++ rest)) = some (.int (-number), rest) := by
  have plain : ∀ c ∈ Nat.toDigits 10 number, c.isDigit = true := fun c => isDigit_of_mem
  have cut := readDigits?_append Nat.toDigits_ne_nil plain halts
  have unsigned : ∀ others, Nat.toDigits 10 number ++ rest ≠ '-' :: others := by
    intro others same
    obtain ⟨c, digits, shape⟩ :=
      List.exists_cons_of_ne_nil (Nat.toDigits_ne_nil (n := number) (b := 10))
    rw [shape, List.cons_append, List.cons.injEq] at same
    have digit := plain c (by simp [shape])
    rw [same.1] at digit
    cases digit
  constructor
  all_goals
    rw [readNumber]
    · simp only [cut, Option.bind_eq_bind, Option.bind_some, if_neg (no_leading_zero number),
        halts.readFraction, halts.readExponent, digitsValue_toDigits]
      rfl
  exact unsigned

theorem readNumber_toString (value : Int) (halts : Halts rest) :
    readNumber ((toString value).toList ++ rest) = some (.int value, rest) := by
  have digits := readNumber_toDigits value.natAbs halts
  rw [toList_toString_int]
  split
  next negative =>
    have same : -(value.natAbs : Int) = value := by omega
    rw [List.cons_append, digits.2, same]
  next natural =>
    have same : (value.natAbs : Int) = value := by omega
    rw [digits.1, same]

end

end BoolQuery.Json
