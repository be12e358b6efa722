import BoolQuery.Proofs.Data.Writable
import BoolQuery.Proofs.Toml.Rests

/-! What is not too much for the readers of keys and numbers.

A reader that is not asked for too much ends well, or finds the text malformed: `Manages`. Digits
are not too many if the text is `Short`, and a key leads no further down than its dots do.
-/

set_option autoImplicit false

namespace BoolQuery.Toml

open Data (Writable)

/-! ## Readings that are not too much -/

/-- A reading ends well, or finds the text malformed. -/
def Manages {α : Type} (good : α → Prop) : Except Error α → Prop
  | .ok found => good found
  | .error cause => cause = .malformed

section

variable {α β : Type} {good : α → Prop} {result : Except Error α}

theorem manages_malformed : Manages good (.error .malformed) := rfl

theorem Manages.mono (manages : Manages good result) {better : α → Prop}
    (implies : ∀ found, good found → better found) : Manages better result := by
  cases result with
  | ok found => exact implies found manages
  | error cause => exact manages

theorem Manages.bind (manages : Manages good result) {next : α → Except Error β}
    {better : β → Prop} (goes : ∀ found, good found → Manages better (next found)) :
    Manages better (result >>= next) := by
  cases result with
  | ok found => exact goes found manages
  | error cause => exact manages

theorem require_manages {found : Option α} (good_of : ∀ value, found = some value → good value) :
    Manages good (require found) := by
  cases found with
  | none => exact manages_malformed
  | some value => exact good_of value rfl

end

/-! ## Short texts, and what leads further down -/

/-- As many digits make a short number in every base up to sixteen. -/
def longestRun : Nat := 3571

/-- The characters that lead further down: into an array, an inline table or a named table. -/
def isOpener (c : Char) : Bool := c == '[' || c == '\x7b' || c == '.'

def openers (input : List Char) : Nat := input.countP isOpener

/-- No run of digits is too long, whatever their base. -/
def Short (input : List Char) : Prop :=
  ∀ run, run <:+: input → run.all isNumeral = true → run.length ≤ longestRun

variable {input rest : List Char}

theorem Short.of_rest (short : Short input) (left : rest <:+ input) : Short rest :=
  fun run within => short run (within.trans left.isInfix)

theorem openers_rest (left : rest <:+ input) : openers rest ≤ openers input := left.countP_le

theorem openers_cons {c : Char} (opener : isOpener c = true) (input : List Char) :
    openers (c :: input) = openers input + 1 := List.countP_cons_of_pos opener

/-! ## Comments and keys -/

theorem skipComment_manages (input : List Char) :
    Manages (· <:+ input) (skipComment input) := by
  unfold skipComment
  split
  · simp only
    split
    · exact manages_malformed
    · exact rest_cons (List.dropWhile_suffix _)
  · exact List.suffix_rfl

theorem skipBetween_manages (comment : Bool) (input : List Char) :
    Manages (· <:+ input) (skipBetween comment input) := by
  have skipped {c : Char} {input : List Char} {result : Except Error (List Char)}
      (manages : Manages (· <:+ input) result) : Manages (· <:+ c :: input) result :=
    manages.mono fun _ => rest_cons
  fun_induction skipBetween comment input with
  | case1 => exact List.suffix_rfl
  | case2 input ih => exact skipped ih
  | case3 => exact manages_malformed
  | case4 c input _ _ ih => exact skipped ih
  | case5 c input _ ih => exact skipped ih
  | case6 input _ ih => exact skipped ih
  | case7 => exact List.suffix_rfl

theorem readKeyPart_manages (input : List Char) :
    Manages (fun found => found.2 <:+ input) (readKeyPart input) := by
  unfold readKeyPart
  simp only
  split
  · have short : Manages (fun found => found.2 <:+ input) (require (readShortText input)) :=
      require_manages fun found read => readShortText_rest read
    exact short.bind fun found left => left
  · exact List.dropWhile_suffix _

/-- A key has taken an opener for each of its parts but one. -/
structure KeyTaken (input : List Char) (found : Key × List Char) : Prop where
  rest : found.2 <:+ input
  openers : found.1.length - 1 + openers found.2 ≤ openers input

theorem readKey_manages (fuel : Nat) (input : List Char) :
    Manages (KeyTaken input) (readKey fuel input) := by
  induction fuel generalizing input with
  | zero => exact manages_malformed
  | succ fuel ih =>
    rw [readKey]
    refine (readKeyPart_manages input).bind fun found left => ?_
    obtain ⟨part, middle⟩ := found
    have left := (skipGap_rest middle).trans left
    simp only
    split
    next rest same =>
      rw [same] at left
      have fewer := openers_rest left
      rw [openers_cons rfl] at fewer
      have gap := skipGap_rest rest
      refine (ih (skipGap rest)).bind fun found taken => ⟨?_, ?_⟩
      · exact taken.rest.trans (gap.trans ((List.suffix_cons _ _).trans left))
      · have few := taken.openers
        have less := openers_rest gap
        simp only [List.length_cons]
        omega
    next => exact ⟨left, by simpa using openers_rest left⟩

theorem readKey_skipGap_manages (fuel : Nat) (input : List Char) :
    Manages (KeyTaken input) (readKey fuel (skipGap input)) := by
  have gap := skipGap_rest input
  refine (readKey_manages fuel (skipGap input)).mono fun found taken => ⟨?_, ?_⟩
  · exact taken.rest.trans gap
  · exact Nat.le_trans taken.openers (openers_rest gap)

/-! ## Numbers -/

/-- One more digit multiplies by sixteen at most. -/
theorem foldl_digits_lt {base : Nat} (small : base ≤ 16) (digits : List Char) {total bound : Nat}
    (below : total < bound) :
    digits.foldl (fun total c => total * base + (Text.hexValue? c).getD 0) total <
      bound * Nat.pow 16 digits.length := by
  induction digits generalizing total bound with
  | nil => exact Nat.lt_of_lt_of_eq below (Nat.mul_one bound).symm
  | cons c digits ih =>
    have digit : (Text.hexValue? c).getD 0 < 16 := by
      cases read : Text.hexValue? c with
      | none => exact Nat.succ_pos 15
      | some value => exact Text.hexValue?_lt read
    have scaled := Nat.mul_le_mul_left total small
    have next : total * base + (Text.hexValue? c).getD 0 < bound * 16 := by omega
    calc digits.foldl _ (total * base + (Text.hexValue? c).getD 0)
      _ < bound * 16 * Nat.pow 16 digits.length := ih next
      _ = bound * Nat.pow 16 (c :: digits).length := by
        rw [Nat.mul_assoc, Nat.mul_comm 16]
        rfl

theorem digitsValue_lt {base : Nat} (small : base ≤ 16) {digits : List Char} {width : Nat}
    (short : digits.length ≤ width) : digitsValue base digits < Nat.pow 16 width := by
  have below := foldl_digits_lt small digits (Nat.lt_add_one 0)
  rw [Nat.zero_add, Nat.one_mul] at below
  exact Nat.lt_of_lt_of_le below (Nat.pow_le_pow_right (Nat.succ_pos 15) short)

/-- One digit more, and the largest number would be too long. -/
theorem pow_longestRun_lt : Nat.pow 16 longestRun < Data.textBound := by decide +kernel

theorem isShortInt_digitsValue {base : Nat} (small : base ≤ 16) {digits : List Char}
    (short : digits.length ≤ longestRun) : Data.isShortInt (digitsValue base digits) = true :=
  decide_eq_true (Nat.lt_trans (digitsValue_lt small short) pow_longestRun_lt)

theorem isShortInt_neg {value : Int} (short : Data.isShortInt value = true) :
    Data.isShortInt (-value) = true := by
  unfold Data.isShortInt
  rw [Int.natAbs_neg]
  exact short

/-- A value that stands before the rest. Each opener leads at most two steps further down. -/
structure ValueTaken (input : List Char) (found : Data × List Char) : Prop where
  rest : found.2 <:+ input
  writable : Writable (2 * openers input) found.1

theorem Short.digits (short : Short input) {digits : List Char}
    (taken : DigitsTaken input digits rest) : digits.length ≤ longestRun := by
  obtain ⟨run, rfl, numerals, long⟩ := taken
  exact Nat.le_trans long (short run (List.prefix_append run rest).isInfix numerals)

theorem isNumeral_of_octal {c : Char} (digit : ('0' ≤ c && c ≤ '7') = true) :
    isNumeral c = true := by
  rw [Bool.and_eq_true, decide_eq_true_eq, decide_eq_true_eq] at digit
  obtain ⟨least, most⟩ := digit
  have most : c ≤ '9' := Char.le_trans most (by decide)
  exact isNumeral_of_isDigit c (Bool.and_eq_true_iff.mpr
    ⟨decide_eq_true least, decide_eq_true most⟩)

theorem isNumeral_of_binary {c : Char} (digit : (c == '0' || c == '1') = true) :
    isNumeral c = true := by
  rw [Bool.or_eq_true, beq_iff_eq, beq_iff_eq] at digit
  obtain rfl | rfl := digit
  · rfl
  · rfl

theorem readBased?_taken (short : Short input) {found : Data × List Char}
    (read : readBased? input = some found) : ValueTaken input found := by
  -- Two characters mark the base, and the digits follow.
  have based {base : Nat} {isDigit : Char → Bool} {first second : Char} {middle : List Char}
      (same : input = first :: second :: middle) (small : base ≤ 16)
      (numeral : ∀ c, isDigit c = true → isNumeral c = true)
      (follow : (readDigits? isDigit middle).map (fun found =>
        (Data.int (digitsValue base found.1), found.2)) = some found) :
      ValueTaken input found := by
    obtain ⟨⟨digits, rest⟩, digitsRead, rfl⟩ := Option.map_eq_some_iff.mp follow
    have left : middle <:+ input := same ▸ rest_cons (List.suffix_cons second middle)
    have taken := readDigits?_taken numeral digitsRead
    have few := (short.of_rest left).digits taken
    exact ⟨taken.left.trans left, Data.writable_int _ (isShortInt_digitsValue small few)⟩
  unfold readBased? at read
  simp only at read
  split at read
  · exact based rfl (by decide) (fun c digit => by simp [isNumeral, digit]) read
  · exact based rfl (by decide) (fun c => isNumeral_of_octal) read
  · exact based rfl (by decide) (fun c => isNumeral_of_binary) read
  · cases read

theorem readDecimal?_manages (short : Short input) {reading : Except Error (Data × List Char)}
    (read : readDecimal? input = some reading) : Manages (ValueTaken input) reading := by
  have left := readSign_rest input
  unfold readDecimal? at read
  generalize readSign input = signed at left read
  obtain ⟨negative, unsigned⟩ := signed
  obtain ⟨⟨whole, middle⟩, readWhole, rfl⟩ := Option.map_eq_some_iff.mp read
  have taken := readWhole?_taken readWhole
  have few := (short.of_rest left).digits taken
  have leftFraction : ((readFraction? middle).map (·.2)).getD middle <:+ middle := by
    refine getD_rest fun rest found => ?_
    obtain ⟨fraction, read, rfl⟩ := Option.map_eq_some_iff.mp found
    exact readFraction?_rest read
  have leftExponent (middle : List Char) :
      ((readExponent? middle).map (·.2)).getD middle <:+ middle := by
    refine getD_rest fun rest found => ?_
    obtain ⟨exponent, read, rfl⟩ := Option.map_eq_some_iff.mp found
    exact readExponent?_rest read
  have leftAll := (leftExponent _).trans (leftFraction.trans (taken.left.trans left))
  simp only
  split
  · split
    next long => exact absurd long (Nat.not_lt.mpr (Nat.le_trans few (by decide)))
    next =>
      refine ⟨leftAll, Data.writable_int _ ?_⟩
      have short := isShortInt_digitsValue (by decide : 10 ≤ 16) few
      split
      · exact isShortInt_neg short
      · exact short
  · exact ⟨leftAll, Data.writable_float _ _⟩

theorem readSpecial?_taken {found : Data × List Char} (read : readSpecial? input = some found) :
    ValueTaken input found := by
  have left := readSign_rest input
  unfold readSpecial? at read
  simp only at read
  split at read
  next rest same =>
    cases read
    rw [same] at left
    exact ⟨(rest_cons (rest_cons (List.suffix_cons _ rest))).trans left, Data.writable_float _ _⟩
  next rest same =>
    cases read
    rw [same] at left
    exact ⟨(rest_cons (rest_cons (List.suffix_cons _ rest))).trans left, Data.writable_float _ _⟩
  next => cases read

theorem readNumber?_manages (short : Short input) {reading : Except Error (Data × List Char)}
    (read : readNumber? input = some reading) : Manages (ValueTaken input) reading := by
  unfold readNumber? at read
  split at read
  next found based =>
    cases read
    exact readBased?_taken short based
  next =>
    obtain decimal | ⟨-, other⟩ := Option.or_eq_some_iff.mp read
    · exact readDecimal?_manages short decimal
    · obtain ⟨found, special, rfl⟩ := Option.map_eq_some_iff.mp other
      exact readSpecial?_taken special

theorem readMoment?_manages {reading : Except Error (Data × List Char)}
    (read : readMoment? input = some reading) : Manages (ValueTaken input) reading := by
  unfold readMoment? at read
  simp only at read
  split at read
  next rest date =>
    cases read
    exact ⟨(skipTimeOfDate_rest rest).trans (readDate?_rest date), Data.writable_text _ _⟩
  next =>
    cases read
    exact manages_malformed
  next =>
    obtain ⟨rest, time, rfl⟩ := Option.map_eq_some_iff.mp read
    exact ⟨readTime?_rest time, Data.writable_text _ _⟩

end BoolQuery.Toml
