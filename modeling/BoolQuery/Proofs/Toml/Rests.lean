import BoolQuery.Toml.Document

/-! What readers of TOML leave.

Each reader leaves an end of what it was given.
-/

set_option autoImplicit false

namespace BoolQuery.Toml

variable {input rest : List Char}

theorem skipGap_rest (input : List Char) : skipGap input <:+ input := List.dropWhile_suffix _

theorem rest_cons {c : Char} (left : rest <:+ input) : rest <:+ c :: input :=
  left.trans (List.suffix_cons c input)

/-! ## Strings -/

theorem codeChar?_rest {width : Nat} {c : Char} (read : codeChar? width input = some (c, rest)) :
    rest <:+ input := by
  obtain ⟨code, -, read⟩ := Option.bind_eq_some_iff.mp read
  split at read
  · cases read
    exact List.drop_suffix width input
  · cases read

theorem readEscape_rest {c : Char} (read : readEscape input = some (c, rest)) :
    rest <:+ input := by
  unfold readEscape at read
  split at read
  case h_8 => exact rest_cons (codeChar?_rest read)
  case h_9 => exact rest_cons (codeChar?_rest read)
  case h_10 => cases read
  all_goals
    cases read
    exact List.suffix_cons _ _

theorem afterFold?_rest (fold : afterFold? input = some rest) : rest <:+ input := by
  unfold afterFold? at fold
  split at fold
  · split at fold
    · split at fold
      next after same =>
        cases fold
        exact ((List.dropWhile_suffix _).trans (List.suffix_cons _ after)).trans
          (same ▸ skipGap_rest _)
      next => cases fold
    · cases fold
  · cases fold

theorem trailingQuotes_rest (quote : Char) (input : List Char) :
    (trailingQuotes quote input).2 <:+ input := List.drop_suffix _ input

theorem readBasic_rest {fuel : Nat} {text : List Char}
    (read : readBasic fuel input = some (text, rest)) : rest <:+ input := by
  fun_induction readBasic fuel input generalizing text with
  | case1 => cases read
  | case2 => cases read
  | case3 =>
    cases read
    exact List.suffix_cons _ _
  | case4 fuel input ih =>
    obtain ⟨⟨c, middle⟩, escape, read⟩ := Option.bind_eq_some_iff.mp read
    obtain ⟨⟨others, _⟩, read, same⟩ := Option.bind_eq_some_iff.mp read
    cases same
    exact rest_cons ((ih _ read).trans (readEscape_rest escape))
  | case5 => cases read
  | case6 fuel c input _ _ _ ih =>
    obtain ⟨⟨others, _⟩, read, same⟩ := Option.bind_eq_some_iff.mp read
    cases same
    exact rest_cons (ih read)

theorem readLongBasic_rest {fuel : Nat} {text : List Char}
    (read : readLongBasic fuel input = some (text, rest)) : rest <:+ input := by
  fun_induction readLongBasic fuel input generalizing text with
  | case1 => cases read
  | case2 => cases read
  | case3 _ input =>
    cases read
    exact rest_cons (rest_cons (rest_cons (trailingQuotes_rest _ input)))
  | case4 fuel input middle fold ih => exact rest_cons ((ih read).trans (afterFold?_rest fold))
  | case5 fuel input fold ih =>
    obtain ⟨⟨c, middle⟩, escape, read⟩ := Option.bind_eq_some_iff.mp read
    obtain ⟨⟨others, _⟩, read, same⟩ := Option.bind_eq_some_iff.mp read
    cases same
    exact rest_cons ((ih _ read).trans (readEscape_rest escape))
  | case6 => cases read
  | case7 fuel c input _ _ _ ih =>
    obtain ⟨⟨others, _⟩, read, same⟩ := Option.bind_eq_some_iff.mp read
    cases same
    exact rest_cons (ih read)

theorem readLiteral_rest {text : List Char} (read : readLiteral input = some (text, rest)) :
    rest <:+ input := by
  fun_induction readLiteral input generalizing text with
  | case1 => cases read
  | case2 =>
    cases read
    exact List.suffix_cons _ _
  | case3 => cases read
  | case4 c input _ _ ih =>
    obtain ⟨⟨others, _⟩, read, same⟩ := Option.map_eq_some_iff.mp read
    cases same
    exact rest_cons (ih read)

theorem readLongLiteral_rest {text : List Char}
    (read : readLongLiteral input = some (text, rest)) : rest <:+ input := by
  fun_induction readLongLiteral input generalizing text with
  | case1 => cases read
  | case2 input =>
    cases read
    exact rest_cons (rest_cons (rest_cons (trailingQuotes_rest _ input)))
  | case3 => cases read
  | case4 c input _ _ ih =>
    obtain ⟨⟨others, _⟩, read, same⟩ := Option.map_eq_some_iff.mp read
    cases same
    exact rest_cons (ih read)

theorem dropFirstLineEnd_rest (input : List Char) : dropFirstLineEnd input <:+ input := by
  unfold dropFirstLineEnd
  split
  · exact List.suffix_cons _ _
  · exact List.suffix_rfl

theorem readShortText_rest {text : List Char} (read : readShortText input = some (text, rest)) :
    rest <:+ input := by
  unfold readShortText at read
  split at read
  · exact rest_cons (readBasic_rest read)
  · exact rest_cons (readLiteral_rest read)
  · cases read

theorem readText_rest {text : List Char} (read : readText input = some (text, rest)) :
    rest <:+ input := by
  unfold readText at read
  split at read
  next middle =>
    have left := (readLongBasic_rest read).trans (dropFirstLineEnd_rest middle)
    exact rest_cons (rest_cons (rest_cons left))
  next middle =>
    have left := (readLongLiteral_rest read).trans (dropFirstLineEnd_rest middle)
    exact rest_cons (rest_cons (rest_cons left))
  next => exact readShortText_rest read

/-! ## Dates and times -/

theorem readFixed?_rest {width value : Nat} (read : readFixed? width input = some (value, rest)) :
    rest <:+ input := by
  obtain ⟨-, same⟩ := Option.ite_none_right_eq_some.mp read
  cases same
  exact List.drop_suffix width input

theorem expect?_rest {wanted : Char} (found : expect? wanted input = some rest) :
    rest <:+ input := by
  unfold expect? at found
  split at found
  · split at found
    · cases found
      exact List.suffix_cons _ _
    · cases found
  · cases found

theorem readDate?_rest {exists? : Bool} (read : readDate? input = some (exists?, rest)) :
    rest <:+ input := by
  obtain ⟨⟨year, afterYear⟩, readYear, read⟩ := Option.bind_eq_some_iff.mp read
  obtain ⟨beforeMonth, dash, read⟩ := Option.bind_eq_some_iff.mp read
  obtain ⟨⟨month, afterMonth⟩, readMonth, read⟩ := Option.bind_eq_some_iff.mp read
  obtain ⟨beforeDay, dash', read⟩ := Option.bind_eq_some_iff.mp read
  obtain ⟨⟨day, afterDay⟩, readDay, read⟩ := Option.bind_eq_some_iff.mp read
  obtain ⟨-, same⟩ := Option.ite_none_right_eq_some.mp read
  cases same
  have leftYear := readFixed?_rest readYear
  have leftMonth := (readFixed?_rest readMonth).trans ((expect?_rest dash).trans leftYear)
  exact (readFixed?_rest readDay).trans ((expect?_rest dash').trans leftMonth)

theorem readMinute?_rest (read : readMinute? input = some rest) : rest <:+ input := by
  obtain ⟨⟨hour, afterHour⟩, readHour, read⟩ := Option.bind_eq_some_iff.mp read
  obtain ⟨beforeMinute, colon, read⟩ := Option.bind_eq_some_iff.mp read
  obtain ⟨⟨minute, afterMinute⟩, readMinute, read⟩ := Option.bind_eq_some_iff.mp read
  obtain ⟨-, same⟩ := Option.ite_none_right_eq_some.mp read
  cases same
  have leftHour := readFixed?_rest readHour
  exact (readFixed?_rest readMinute).trans ((expect?_rest colon).trans leftHour)

theorem skipFraction_rest (input : List Char) : skipFraction input <:+ input := by
  unfold skipFraction
  split
  · split
    · exact rest_cons (rest_cons (List.dropWhile_suffix _))
    · exact List.suffix_rfl
  · exact List.suffix_rfl

theorem readTime?_rest (read : readTime? input = some rest) : rest <:+ input := by
  obtain ⟨afterMinute, readMinute, read⟩ := Option.bind_eq_some_iff.mp read
  obtain ⟨beforeSecond, colon, read⟩ := Option.bind_eq_some_iff.mp read
  obtain ⟨⟨second, afterSecond⟩, readSecond, read⟩ := Option.bind_eq_some_iff.mp read
  obtain ⟨-, same⟩ := Option.ite_none_right_eq_some.mp read
  cases same
  have leftMinute := readMinute?_rest readMinute
  have leftSecond := (readFixed?_rest readSecond).trans ((expect?_rest colon).trans leftMinute)
  exact (skipFraction_rest afterSecond).trans leftSecond

/-- Where a reader of something that may be missing falls back on what it was given. -/
theorem getD_rest {found : Option (List Char)} (left : ∀ rest ∈ found, rest <:+ input) :
    found.getD input <:+ input := by
  cases found with
  | none => exact List.suffix_rfl
  | some rest => exact left rest rfl

theorem skipOffset_rest (input : List Char) : skipOffset input <:+ input := by
  unfold skipOffset
  split
  · split
    · exact List.suffix_cons _ _
    · split
      · exact getD_rest fun rest read => rest_cons (readMinute?_rest read)
      · exact List.suffix_rfl
  · exact List.suffix_rfl

theorem skipTimeOfDate_rest (input : List Char) : skipTimeOfDate input <:+ input := by
  unfold skipTimeOfDate
  split
  next c middle =>
    split
    · refine getD_rest fun rest found => ?_
      obtain ⟨afterTime, read, rfl⟩ := Option.map_eq_some_iff.mp found
      exact rest_cons ((skipOffset_rest afterTime).trans (readTime?_rest read))
    · exact List.suffix_rfl
  next => exact List.suffix_rfl

/-! ## Numbers -/

/-- A character that can stand in a number written to any base. -/
def isNumeral (c : Char) : Bool := (Text.hexValue? c).isSome || c == '_'

/-- Before the rest stand these digits, with nothing but underscores between them. -/
def DigitsTaken (input digits rest : List Char) : Prop :=
  ∃ run, input = run ++ rest ∧ run.all isNumeral = true ∧ digits.length ≤ run.length

theorem DigitsTaken.left {digits : List Char} (taken : DigitsTaken input digits rest) :
    rest <:+ input := by
  obtain ⟨run, rfl, -⟩ := taken
  exact List.suffix_append run rest

section

variable {isDigit : Char → Bool} (numeral : ∀ c, isDigit c = true → isNumeral c = true)

include numeral

theorem readMoreDigits_taken (input : List Char) :
    DigitsTaken input (readMoreDigits isDigit input).1 (readMoreDigits isDigit input).2 := by
  fun_induction readMoreDigits isDigit input with
  | case1 => exact ⟨[], rfl, rfl, Nat.le_refl 0⟩
  | case2 c digit => exact ⟨[c], rfl, by simp [numeral c digit], Nat.le_refl 1⟩
  | case3 c _ => exact ⟨[], rfl, rfl, Nat.le_refl 0⟩
  | case4 c input digit digits rest read ih =>
    rw [read] at ih
    obtain ⟨run, same, numerals, long⟩ := ih
    have numeral := numeral c digit
    refine ⟨'_' :: c :: run, by rw [same]; rfl, ?_, ?_⟩
    · rw [List.all_cons, List.all_cons, numeral, numerals]
      rfl
    · exact Nat.succ_le_succ (Nat.le_succ_of_le long)
  | case5 c input _ => exact ⟨[], rfl, rfl, Nat.le_refl 0⟩
  | case6 c input _ _ digit digits rest read ih =>
    rw [read] at ih
    obtain ⟨run, same, numerals, long⟩ := ih
    refine ⟨c :: run, by rw [same]; rfl, ?_, ?_⟩
    · simp [numeral c digit, numerals]
    · simpa using long
  | case7 c input => exact ⟨[], rfl, rfl, Nat.le_refl 0⟩

theorem readDigits?_taken {digits : List Char}
    (read : readDigits? isDigit input = some (digits, rest)) : DigitsTaken input digits rest := by
  unfold readDigits? at read
  split at read
  next c middle =>
    split at read
    next digit =>
      cases read
      obtain ⟨run, same, numerals, long⟩ := readMoreDigits_taken numeral middle
      refine ⟨c :: run, by rw [List.cons_append, ← same], ?_, ?_⟩
      · simp [numeral c digit, numerals]
      · simpa using long
    next => cases read
  next => cases read

end

theorem isNumeral_of_isDigit (c : Char) (digit : c.isDigit = true) : isNumeral c = true := by
  have hexadecimal : Text.hexValue? c = some (c.toNat - 48) := if_pos digit
  rw [isNumeral, hexadecimal]
  rfl

theorem readFraction?_rest {places : List Char} (read : readFraction? input = some (places, rest)) :
    rest <:+ input := by
  unfold readFraction? at read
  split at read
  · exact rest_cons (readDigits?_taken isNumeral_of_isDigit read).left
  · cases read

theorem readSign_rest (input : List Char) : (readSign input).2 <:+ input := by
  unfold readSign
  split
  · exact List.suffix_cons _ _
  · exact List.suffix_cons _ _
  · exact List.suffix_rfl

theorem readExponent?_rest {power : Int} (read : readExponent? input = some (power, rest)) :
    rest <:+ input := by
  unfold readExponent? at read
  split at read
  next mark middle =>
    obtain ⟨-, read⟩ := Option.ite_none_right_eq_some.mp read
    obtain ⟨⟨digits, _⟩, read, same⟩ := Option.map_eq_some_iff.mp read
    cases same
    have left := (readDigits?_taken isNumeral_of_isDigit read).left
    exact rest_cons (left.trans (readSign_rest middle))
  next => cases read

theorem readWhole?_taken {digits : List Char} (read : readWhole? input = some (digits, rest)) :
    DigitsTaken input digits rest := by
  unfold readWhole? at read
  split at read
  · cases read
    exact ⟨['0'], rfl, rfl, Nat.le_refl 1⟩
  · exact readDigits?_taken isNumeral_of_isDigit read

end BoolQuery.Toml
