import BoolQuery.Data.Display
import BoolQuery.Number.Numeral
import BoolQuery.Proofs.Text.Lines
import BoolQuery.Text.Hex
import Mathlib.Data.List.Basic

/-! Numbers in decimal, read back.

The digits of a number give it back to every reader of digits: `foldl_toDigits`. A number with few
enough digits is read from its text as a numeral: `read_toDigits`.
-/

set_option autoImplicit false

namespace BoolQuery

theorem toList_toString_nat (number : Nat) : (toString number).toList = Nat.toDigits 10 number := by
  rw [Nat.toString_eq_ofList_toDigits, String.toList_ofList]

theorem toList_toString_int (value : Int) : (toString value).toList =
    if value < 0 then '-' :: Nat.toDigits 10 value.natAbs else Nat.toDigits 10 value.natAbs := by
  cases value with
  | ofNat number => simp [Int.repr]
  | negSucc number =>
    have negative : Int.negSucc number < 0 := by omega
    simp [Int.repr, negative]

theorem isDigit_of_mem {number : Nat} {c : Char} (inside : c ∈ Nat.toDigits 10 number) :
    c.isDigit = true :=
  Nat.isDigit_of_mem_toDigits (by decide) (by decide) inside

theorem feed_not_mem_toDigits (number : Nat) : '\n' ∉ Nat.toDigits 10 number := fun inside =>
  Bool.noConfusion (isDigit_of_mem inside)

theorem feed_not_mem_toString_int (value : Int) : '\n' ∉ (toString value).toList := by
  rw [toList_toString_int]
  split
  · simp [feed_not_mem_toDigits]
  · exact feed_not_mem_toDigits _

/-- Reading digits from the front gives a number back. -/
theorem foldl_toDigits {digit : Char → Nat}
    (agrees : ∀ c, c.isDigit = true → digit c = c.toNat - '0'.toNat) (number : Nat) :
    (Nat.toDigits 10 number).foldl (fun total c => total * 10 + digit c) 0 = number := by
  have same : (Nat.toDigits 10 number).foldl (fun total c => total * 10 + digit c) 0 =
      Nat.ofDigitChars 10 (Nat.toDigits 10 number) 0 := by
    rw [Nat.ofDigitChars_eq_foldl]
    refine List.foldl_ext _ _ _ fun total c inside => ?_
    rw [agrees c (isDigit_of_mem inside), Nat.mul_comm]
  rw [same, Nat.ofDigitChars_ten_toDigits]

theorem toDigits_injective : Function.Injective (Nat.toDigits 10) := by
  have back (number : Nat) := foldl_toDigits (fun c _ => Eq.refl (c.toNat - '0'.toNat)) number
  intro first second same
  rw [← back first, same, back second]

/-- A number is known from its digits in front of anything that is no digit. -/
theorem toDigits_append_cons_inj {first second : Nat} {c : Char} (stops : c.isDigit = false)
    {rest others : List Char}
    (same : Nat.toDigits 10 first ++ c :: rest = Nat.toDigits 10 second ++ c :: others) :
    first = second ∧ rest = others := by
  have front (number : Nat) (text : List Char) :
      (Nat.toDigits 10 number ++ c :: text).takeWhile Char.isDigit = Nat.toDigits 10 number := by
    rw [List.takeWhile_append_of_pos fun d => isDigit_of_mem,
      List.takeWhile_cons_of_neg (by simp [stops]), List.append_nil]
  have digits := congrArg (List.takeWhile Char.isDigit) same
  rw [front, front] at digits
  rw [digits, List.append_cancel_left_eq, List.cons.injEq] at same
  exact ⟨toDigits_injective digits, same.2⟩

theorem head?_toDigits_ne_zero {number : Nat} (positive : 0 < number) :
    (Nat.toDigits 10 number).head? ≠ some '0' := by
  induction number using Nat.strongRecOn with
  | ind number ih =>
    by_cases small : number < 10
    · rw [Nat.toDigits_of_lt_base small, List.head?_cons, ne_eq, Option.some.injEq,
        Nat.digitChar_eq_zero]
      omega
    · rw [Nat.toDigits_of_base_le (by decide) (by omega), List.head?_append,
        Option.or_of_isSome (by simp)]
      exact ih (number / 10) (by omega) (by omega)

/-- A digit is one of ten characters. -/
theorem of_isDigit {motive : Char → Prop} (each : ∀ value : Fin 10, motive (Nat.digitChar value))
    {c : Char} (digit : c.isDigit = true) : motive c := by
  have bounds : '0'.toNat ≤ c.toNat ∧ c.toNat ≤ '9'.toNat := by
    simpa [Char.isDigit, UInt32.le_iff_toNat_le] using digit
  have low : 48 ≤ c.toNat := bounds.1
  have high : c.toNat ≤ 57 := bounds.2
  have shape : ∀ value : Fin 10, Char.ofNat (48 + value) = Nat.digitChar value := by decide
  have whole := each ⟨c.toNat - 48, by omega⟩
  rwa [← shape, Nat.add_sub_cancel' low, Char.ofNat_toNat] at whole

namespace Text

variable {c : Char} (digit : c.isDigit = true)

include digit

theorem digitValue?_of_isDigit : digitValue? c = some (c.toNat - '0'.toNat) :=
  of_isDigit (motive := fun c => digitValue? c = some (c.toNat - '0'.toNat)) (by decide) digit

theorem hexValue?_of_isDigit : hexValue? c = some (c.toNat - '0'.toNat) :=
  of_isDigit (motive := fun c => hexValue? c = some (c.toNat - '0'.toNat)) (by decide) digit

theorem not_isSpace_of_isDigit : isSpace c = false :=
  of_isDigit (motive := fun c => isSpace c = false) (by decide) digit

end Text

namespace Numeral

theorem readMoreDigits_of_isDigit {text : List Char} (plain : ∀ c ∈ text, c.isDigit = true) :
    readMoreDigits text = some (text.map fun c => c.toNat - '0'.toNat) := by
  induction text with
  | nil => rfl
  | cons c text ih =>
    have digit := plain c (by simp)
    have others := ih fun d inside => plain d (by simp [inside])
    rw [readMoreDigits, Text.digitValue?_of_isDigit digit, others]
    · rfl
    · rintro d rest rfl
      cases digit

theorem readDigits_of_isDigit {text : List Char} (nonempty : text ≠ [])
    (plain : ∀ c ∈ text, c.isDigit = true) :
    readDigits text = some (text.map fun c => c.toNat - '0'.toNat) := by
  obtain ⟨c, text, rfl⟩ := List.exists_cons_of_ne_nil nonempty
  rw [readDigits, Text.digitValue?_of_isDigit (plain c (by simp)),
    readMoreDigits_of_isDigit fun d inside => plain d (by simp [inside])]
  rfl

theorem readNatural_toDigits {number : Nat}
    (few : (Nat.toDigits 10 number).length ≤ maxDigits) :
    readNatural (Nat.toDigits 10 number) = some number := by
  have back := foldl_toDigits (fun _ _ => rfl) number
  rw [readNatural, readDigits_of_isDigit Nat.toDigits_ne_nil fun c => isDigit_of_mem]
  simp only [Option.bind_eq_bind, Option.bind_some, List.length_map, if_pos few, value,
    List.foldl_map, back]

theorem readSigned_toDigits {number : Nat}
    (few : (Nat.toDigits 10 number).length ≤ maxDigits) :
    readSigned (Nat.toDigits 10 number) = some (number : Int) := by
  rw [readSigned, readNatural_toDigits few]
  · rfl
  · intro digits shape
    have digit : '+' ∈ Nat.toDigits 10 number := by simp [shape]
    cases isDigit_of_mem digit
  · intro digits shape
    have digit : '-' ∈ Nat.toDigits 10 number := by simp [shape]
    cases isDigit_of_mem digit

theorem trimmed_toDigits (number : Nat) : Text.Trimmed Text.isSpace (Nat.toDigits 10 number) where
  first _ here := Text.not_isSpace_of_isDigit (isDigit_of_mem (List.mem_of_mem_head? here))
  last _ here := Text.not_isSpace_of_isDigit (isDigit_of_mem (List.mem_of_getLast? here))

/-- There is nothing to drop around a text without spaces at its ends. -/
theorem read_of_trimmed {text : List Char} (trimmed : Text.Trimmed Text.isSpace text) :
    read text = readSigned text := by
  have bare : Text.Trimmed isPadding text :=
    ⟨fun c here => by simp [isPadding, trimmed.first c here],
      fun c here => by simp [isPadding, trimmed.last c here]⟩
  rw [read, Text.trimWhile_eq_self bare]

theorem read_toDigits {number : Nat} (few : (Nat.toDigits 10 number).length ≤ maxDigits) :
    read (Nat.toDigits 10 number) = some (number : Int) := by
  rw [read_of_trimmed (trimmed_toDigits number), readSigned_toDigits few]

end Numeral

/-- The integers that are written in text are those with few digits. -/
theorem Data.length_toDigits_le_iff {number : Nat} :
    (Nat.toDigits 10 number).length ≤ maxTextDigits ↔ number < textBound := by
  rw [Nat.length_toDigits_le_iff (by decide) (by decide)]
  -- The bound is not to be worked out.
  with_reducible
    unfold textBound
    rw [Nat.pow_eq]

theorem Data.isShortInt_iff {value : Int} :
    isShortInt value = true ↔ (Nat.toDigits 10 value.natAbs).length ≤ maxTextDigits := by
  rw [isShortInt, decide_eq_true_iff, length_toDigits_le_iff]

end BoolQuery
