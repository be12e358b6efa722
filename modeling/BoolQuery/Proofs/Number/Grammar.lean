import BoolQuery.Proofs.Number.Decimal
import Mathlib.Data.Nat.Digits.Defs

/-! The grammar of numerals.

A numeral is an optional sign and a row of digits, whatever their scripts, with single underscores
between two digits at most. The reader accepts exactly these texts, with any spaces around them, and
gives the number that the digits stand for in base ten: `readSigned_eq_some_iff`, `read_trim_iff`.
-/

set_option autoImplicit false

namespace BoolQuery

namespace Text

/-- A digit is one of ten characters from a zero on. -/
theorem of_digitValue? {motive : Char → Prop}
    (each : ∀ first ∈ digitZeros, ∀ value : Fin 10, motive (Char.ofNat (first + value)))
    {c : Char} {digit : Nat} (found : digitValue? c = some digit) : motive c := by
  obtain ⟨first, search, -⟩ := Option.map_eq_some_iff.mp found
  have bounds := List.find?_some search
  simp only [Bool.and_eq_true, decide_eq_true_eq] at bounds
  have whole := each first (List.mem_of_find?_eq_some search) ⟨c.toNat - first, by omega⟩
  rwa [Nat.add_sub_cancel' bounds.1, Char.ofNat_toNat] at whole

theorem plain_of_digitValue? {c : Char} {digit : Nat} (found : digitValue? c = some digit) :
    isSpace c = false ∧ c ∉ ['+', '-', '_'] :=
  of_digitValue? (motive := fun c => isSpace c = false ∧ c ∉ ['+', '-', '_']) (by decide +kernel)
    found

theorem isDigit_of_digitValue? {c : Char} {digit : Nat} (found : digitValue? c = some digit) :
    isDigit c = true := by
  rw [isDigit, found, Option.isSome_some]

end Text

namespace Numeral

open Text (digitValue? isSpace Trimmed)

/-! ## Rows of digits -/

/-- A row of digits, with their values. A single underscore may stand between two digits. -/
inductive Row : List Char → List Nat → Prop where
  | last {c : Char} {digit : Nat} : digitValue? c = some digit → Row [c] [digit]
  | next {c : Char} {digit : Nat} {row : List Char} {digits : List Nat} :
    digitValue? c = some digit → Row row digits → Row (c :: row) (digit :: digits)
  | parted {c : Char} {digit : Nat} {row : List Char} {digits : List Nat} :
    digitValue? c = some digit → Row row digits → Row (c :: '_' :: row) (digit :: digits)

/-- What may follow a digit: nothing, or a row with or without an underscore before it. -/
def More (text : List Char) (digits : List Nat) : Prop :=
  (text = [] ∧ digits = []) ∨ Row text digits ∨ ∃ row, text = '_' :: row ∧ Row row digits

theorem row_cons_iff {c : Char} {text : List Char} {digits : List Nat} :
    Row (c :: text) digits ↔
      ∃ digit, digitValue? c = some digit ∧ ∃ others, More text others ∧ digit :: others = digits := by
  constructor
  · rintro (found | ⟨found, row⟩ | ⟨found, row⟩)
    · exact ⟨_, found, [], .inl ⟨rfl, rfl⟩, rfl⟩
    · exact ⟨_, found, _, .inr (.inl row), rfl⟩
    · exact ⟨_, found, _, .inr (.inr ⟨_, rfl, row⟩), rfl⟩
  · rintro ⟨digit, found, others, ⟨rfl, rfl⟩ | row | ⟨row, rfl, others⟩, rfl⟩
    · exact .last found
    · exact .next found row
    · exact .parted found others

theorem not_row_nil {digits : List Nat} : ¬ Row [] digits := nofun

theorem not_row_mark {c : Char} (mark : c ∈ ['+', '-', '_']) {text : List Char}
    {digits : List Nat} : ¬ Row (c :: text) digits := by
  rw [row_cons_iff]
  rintro ⟨digit, found, -⟩
  exact (Text.plain_of_digitValue? found).2 mark

theorem more_underscore_iff {row : List Char} {digits : List Nat} :
    More ('_' :: row) digits ↔ Row row digits := by
  constructor
  · rintro (⟨⟨⟩, -⟩ | whole | ⟨_, ⟨⟩, row⟩)
    · exact absurd whole (not_row_mark (by decide))
    · exact row
  · exact fun row => .inr (.inr ⟨_, rfl, row⟩)

/-- An underscore without a digit after it is refused either way. -/
theorem more_cons_iff {c : Char} {text : List Char} {digits : List Nat}
    (unparted : c = '_' → text = []) : More (c :: text) digits ↔ Row (c :: text) digits := by
  constructor
  · rintro (⟨⟨⟩, -⟩ | whole | ⟨row, same, others⟩)
    · exact whole
    · obtain ⟨rfl, rfl⟩ := List.cons.inj same
      exact absurd (unparted rfl ▸ others) not_row_nil
  · exact fun row => .inr (.inl row)

theorem readMoreDigits_eq_some_iff {text : List Char} {digits : List Nat} :
    readMoreDigits text = some digits ↔ More text digits := by
  fun_induction readMoreDigits text generalizing digits with
  | case1 => simp [More, not_row_nil, eq_comm]
  | case2 c rest ih =>
    rw [more_underscore_iff, row_cons_iff]
    simp [Option.bind_eq_some_iff, ih]
  | case3 c rest unparted ih =>
    have lone (mark : c = '_') : rest = [] := by
      cases rest with
      | nil => rfl
      | cons d rest => exact (unparted d rest mark rfl).elim
    rw [more_cons_iff lone, row_cons_iff]
    simp [Option.bind_eq_some_iff, ih]

theorem readDigits_eq_some_iff {text : List Char} {digits : List Nat} :
    readDigits text = some digits ↔ Row text digits := by
  cases text with
  | nil => simp [readDigits, not_row_nil]
  | cons c text =>
    simp [readDigits, row_cons_iff, Option.bind_eq_some_iff, readMoreDigits_eq_some_iff]

theorem value_eq_ofDigits (digits : List Nat) : value digits = Nat.ofDigits 10 digits.reverse := by
  rw [Nat.ofDigits_eq_foldr, List.foldr_reverse, value]
  congr 1
  funext total digit
  simp [Nat.mul_comm, Nat.add_comm]

theorem readNatural_eq_some_iff {text : List Char} {number : Nat} :
    readNatural text = some number ↔
      ∃ digits, Row text digits ∧ digits.length ≤ maxDigits ∧
        Nat.ofDigits 10 digits.reverse = number := by
  simp only [readNatural, Option.bind_eq_bind, Option.bind_eq_some_iff, readDigits_eq_some_iff,
    Option.ite_none_right_eq_some, Option.some.injEq, value_eq_ofDigits]

/-! ## Numerals -/

/-- The numerals and the numbers that they stand for. -/
inductive Spells : List Char → Int → Prop where
  | plain {row : List Char} {digits : List Nat} : Row row digits → digits.length ≤ maxDigits →
    Spells row (Nat.ofDigits 10 digits.reverse : Nat)
  | plus {row : List Char} {digits : List Nat} : Row row digits → digits.length ≤ maxDigits →
    Spells ('+' :: row) (Nat.ofDigits 10 digits.reverse : Nat)
  | minus {row : List Char} {digits : List Nat} : Row row digits → digits.length ≤ maxDigits →
    Spells ('-' :: row) (-(Nat.ofDigits 10 digits.reverse : Nat))

theorem readSigned_eq_some_iff {text : List Char} {number : Int} :
    readSigned text = some number ↔ Spells text number := by
  unfold readSigned
  split
  next row =>
    simp only [Option.map_eq_some_iff, readNatural_eq_some_iff]
    constructor
    · rintro ⟨_, ⟨digits, row, few, rfl⟩, rfl⟩
      exact .plus row few
    · rintro (⟨marked, -⟩ | ⟨row, few⟩)
      · exact absurd marked (not_row_mark (by decide))
      · exact ⟨_, ⟨_, row, few, rfl⟩, rfl⟩
  next row =>
    simp only [Option.map_eq_some_iff, Option.bind_eq_bind, Option.pure_def, Option.bind_eq_some_iff,
      Option.some.injEq, readNatural_eq_some_iff]
    constructor
    · rintro ⟨_, ⟨_, ⟨digits, row, few, rfl⟩, rfl⟩, rfl⟩
      exact .minus row few
    · rintro (⟨marked, -⟩ | _ | ⟨row, few⟩)
      · exact absurd marked (not_row_mark (by decide))
      · exact ⟨_, ⟨_, ⟨_, row, few, rfl⟩, rfl⟩, rfl⟩
  next positive negative =>
    simp only [Option.map_eq_some_iff, readNatural_eq_some_iff]
    constructor
    · rintro ⟨_, ⟨digits, row, few, rfl⟩, rfl⟩
      exact .plain row few
    · rintro (⟨row, few⟩ | _ | _)
      · exact ⟨_, ⟨_, row, few, rfl⟩, rfl⟩
      · exact (positive _ rfl).elim
      · exact (negative _ rfl).elim

/-- The numerals of a natural number. With a minus there are only those of zero. -/
theorem spells_natural_iff {numeral : List Char} {number : Nat} :
    Spells numeral number ↔
      ∃ sign row digits, numeral = sign ++ row ∧ sign ∈ [[], ['+'], ['-']] ∧ Row row digits ∧
        digits.length ≤ maxDigits ∧ number = Nat.ofDigits 10 digits.reverse ∧
        (sign = ['-'] → number = 0) := by
  constructor
  · intro spells
    generalize same : (number : Int) = value at spells
    cases spells with
    | plain row few => exact ⟨[], _, _, rfl, by simp, row, few, by omega, nofun⟩
    | plus row few => exact ⟨['+'], _, _, rfl, by simp, row, few, by omega, nofun⟩
    | minus row few => exact ⟨['-'], _, _, rfl, by simp, row, few, by omega, fun _ => by omega⟩
  · rintro ⟨sign, row, digits, rfl, sort, whole, few, value, zero⟩
    simp only [List.mem_cons, List.not_mem_nil, or_false] at sort
    rcases sort with rfl | rfl | rfl
    · exact value ▸ .plain whole few
    · exact value ▸ .plus whole few
    · obtain rfl := zero rfl
      simpa [← value] using Spells.minus whole few

/-- The characters of a row. -/
theorem Row.mem {row : List Char} {digits : List Nat} (whole : Row row digits) {c : Char}
    (inside : c ∈ row) : c = '_' ∨ Text.isDigit c = true := by
  induction whole with
  | last found =>
    obtain rfl := List.mem_singleton.mp inside
    exact .inr (Text.isDigit_of_digitValue? found)
  | next found _ ih =>
    obtain rfl | inside := List.mem_cons.mp inside
    · exact .inr (Text.isDigit_of_digitValue? found)
    · exact ih inside
  | parted found _ ih =>
    obtain rfl | inside := List.mem_cons.mp inside
    · exact .inr (Text.isDigit_of_digitValue? found)
    · obtain mark | inside := List.mem_cons.mp inside
      · exact .inl mark
      · exact ih inside

theorem Spells.mem {text : List Char} {number : Int} (spells : Spells text number) {c : Char}
    (inside : c ∈ text) : c ∈ ['+', '-', '_'] ∨ Text.isDigit c = true := by
  have marked {row : List Char} {digits : List Nat} (whole : Row row digits) (inside : c ∈ row) :
      c ∈ ['+', '-', '_'] ∨ Text.isDigit c = true := by
    obtain rfl | digit := whole.mem inside
    · exact .inl (by decide)
    · exact .inr digit
  cases spells with
  | plain row => exact marked row inside
  | plus row | minus row =>
    obtain rfl | inside := List.mem_cons.mp inside
    · exact .inl (by decide)
    · exact marked row inside

theorem Spells.not_isSpace {text : List Char} {number : Int} (spells : Spells text number)
    {c : Char} (inside : c ∈ text) : isSpace c = false := by
  obtain mark | digit := spells.mem inside
  · simp only [List.mem_cons, List.not_mem_nil, or_false] at mark
    rcases mark with rfl | rfl | rfl <;> rfl
  · obtain ⟨_, found⟩ := Option.isSome_iff_exists.mp digit
    exact (Text.plain_of_digitValue? found).1

/-- A numeral is left when spaces of a class are dropped around it, and nothing else is left so. -/
theorem readSigned_trimWhile_iff {drop : Char → Bool}
    (spaces : ∀ c, drop c = true → isSpace c = true) {text : List Char} {number : Int} :
    readSigned (Text.trimWhile drop text) = some number ↔
      ∃ lead numeral trail, text = lead ++ (numeral ++ trail) ∧
        (∀ c ∈ lead ++ trail, drop c = true) ∧ Spells numeral number := by
  rw [readSigned_eq_some_iff]
  constructor
  · intro spells
    obtain ⟨lead, trail, whole, before, after⟩ := Text.exists_trimWhile drop text
    exact ⟨lead, _, trail, whole, List.forall_mem_append.mpr ⟨before, after⟩, spells⟩
  · rintro ⟨lead, numeral, trail, rfl, around, spells⟩
    obtain ⟨before, after⟩ := List.forall_mem_append.mp around
    have kept {c : Char} (inside : c ∈ numeral) : drop c = false := by
      rw [← Bool.not_eq_true]
      exact fun dropped => by simpa [spells.not_isSpace inside] using spaces c dropped
    have trimmed : Trimmed drop numeral :=
      ⟨fun c here => kept (List.mem_of_mem_head? here),
        fun c here => kept (List.mem_of_getLast? here)⟩
    rwa [Text.trimWhile_append before trimmed after]

/-- A numeral is read from any text that has only spaces around it. -/
theorem read_trim_iff {text : List Char} {number : Int} :
    read (Text.trim text) = some number ↔
      ∃ lead numeral trail, text = lead ++ (numeral ++ trail) ∧
        (∀ c ∈ lead ++ trail, isSpace c = true) ∧ Spells numeral number := by
  rw [Text.trim, read_of_trimmed (Text.trimmed_trimWhile isSpace text),
    readSigned_trimWhile_iff fun _ space => space]

/-- An integer is read back from its text. -/
theorem read_trim_toString {value : Int}
    (few : (Nat.toDigits 10 value.natAbs).length ≤ maxDigits) :
    read (Text.trim (toString value).toList) = some value := by
  have spells : Spells (toString value).toList value := by
    obtain ⟨digits, row, few, absolute⟩ := readNatural_eq_some_iff.mp (readNatural_toDigits few)
    rw [toList_toString_int]
    split
    next negative =>
      have minus := Spells.minus row few
      rwa [absolute, Int.ofNat_natAbs_of_nonpos negative.le, Int.neg_neg] at minus
    next natural =>
      have plain := Spells.plain row few
      rwa [absolute, Int.natAbs_of_nonneg (Int.not_lt.mp natural)] at plain
  exact read_trim_iff.mpr ⟨[], _, [], by simp, by simp, spells⟩

/-- A character of no numeral and of no space around one. -/
def Foreign (c : Char) : Prop :=
  isSpace c = false ∧ c ∉ ['+', '-', '_'] ∧ Text.isDigit c = false

instance (c : Char) : Decidable (Foreign c) := inferInstanceAs (Decidable (_ ∧ _ ∧ _))

theorem read_trim_of_foreign {text : List Char} {c : Char} (inside : c ∈ text)
    (foreign : Foreign c) : read (Text.trim text) = none := by
  obtain ⟨solid, unmarked, undigit⟩ := foreign
  rw [Option.eq_none_iff_forall_ne_some]
  intro number found
  obtain ⟨lead, numeral, trail, rfl, around, spells⟩ := read_trim_iff.mp found
  have outside : c ∉ lead ++ trail := fun here => by simpa [solid] using around c here
  have within : c ∈ numeral := by
    simp only [List.mem_append, not_or] at inside outside
    exact (inside.resolve_left outside.1).resolve_right outside.2
  obtain mark | digit := spells.mem within
  · exact unmarked mark
  · simp [undigit] at digit

end Numeral

end BoolQuery
