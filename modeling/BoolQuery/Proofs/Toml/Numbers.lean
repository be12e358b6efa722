import BoolQuery.Proofs.Number.Decimal
import BoolQuery.Toml.Value

/-! Numbers of documents, read back.

The digits of a number are taken neither for a date nor for a number of another base, so as they
stand they are read as an integer, and between quotes as a text: `readValue_enclose`.
-/

set_option autoImplicit false

namespace BoolQuery.Toml

/-- What follows a row: the next one, or nothing. -/
def Ends (rest : List Char) : Prop := ∀ c ∈ rest.head?, c = '\n'

/-! ## Digits -/

theorem not_isForbidden_of_isDigit {c : Char} (digit : c.isDigit = true) :
    isForbidden c = false :=
  of_isDigit (motive := fun c => isForbidden c = false) (by decide) digit

theorem Ends.readFraction? {rest : List Char} (ends : Ends rest) :
    Toml.readFraction? rest = none := by
  unfold Toml.readFraction?
  split
  next => cases ends '.' rfl
  next => rfl

theorem Ends.readExponent? {rest : List Char} (ends : Ends rest) :
    Toml.readExponent? rest = none := by
  unfold Toml.readExponent?
  split
  next mark rest =>
    obtain rfl := ends mark rfl
    rfl
  next => rfl

theorem expect?_eq_none {wanted : Char} {after : List Char}
    (stops : ∀ c ∈ after.head?, c.isDigit = true ∨ c = '\n')
    (mark : wanted.isDigit = false ∧ wanted ≠ '\n') : expect? wanted after = none := by
  cases after with
  | nil => rfl
  | cons c after =>
    rw [expect?, if_neg]
    rintro rfl
    obtain digit | feed := stops c rfl
    · exact Bool.noConfusion (digit.symm.trans mark.1)
    · exact mark.2 feed

section

variable {digits rest : List Char} (plain : ∀ c ∈ digits, c.isDigit = true) (ends : Ends rest)

include plain ends

theorem readMoreDigits_append :
    readMoreDigits Char.isDigit (digits ++ rest) = (digits, rest) := by
  induction digits with
  | nil =>
    rw [List.nil_append]
    unfold readMoreDigits
    split
    next => rfl
    next c => simp [ends c rfl]
    next c rest => cases ends '_' rfl
    next c rest _ _ => simp [ends c rfl]
  | cons c digits ih =>
    have digit : c.isDigit = true := plain c (by simp)
    have others := ih fun d inside => plain d (by simp [inside])
    rw [List.cons_append]
    cases whole : digits ++ rest with
    | nil =>
      obtain ⟨rfl, rfl⟩ := List.append_eq_nil_iff.mp whole
      simp [readMoreDigits, digit]
    | cons d more =>
      rw [readMoreDigits]
      · rw [if_pos digit, ← whole, others]
      · exact List.cons_ne_nil d more
      · rintro _ _ rfl -
        cases digit

theorem readDigits?_append (nonempty : digits ≠ []) :
    readDigits? Char.isDigit (digits ++ rest) = some (digits, rest) := by
  obtain ⟨c, digits, rfl⟩ := List.exists_cons_of_ne_nil nonempty
  have more : readMoreDigits Char.isDigit (digits ++ rest) = (digits, rest) :=
    readMoreDigits_append (fun d inside => plain d (by simp [inside])) ends
  rw [List.cons_append, readDigits?, if_pos (plain c (by simp)), more]

theorem stops_append : ∀ c ∈ (digits ++ rest).head?, c.isDigit = true ∨ c = '\n' := by
  intro c here
  rw [List.head?_append, Option.mem_def, Option.or_eq_some_iff] at here
  rcases here with digit | ⟨-, feed⟩
  · exact .inl (plain c (List.mem_of_mem_head? digit))
  · exact .inr (ends c feed)

/-- Where a fixed number of digits was read off, a digit follows or the row ends. -/
theorem readFixed?_stops {width number : Nat} {after : List Char}
    (fixed : readFixed? width (digits ++ rest) = some (number, after)) :
    ∀ c ∈ after.head?, c.isDigit = true ∨ c = '\n' := by
  rw [readFixed?] at fixed
  split at fixed
  next row =>
    cases fixed
    rw [Bool.and_eq_true, decide_eq_true_eq, List.all_eq_true] at row
    have short : width ≤ digits.length := by
      refine Nat.le_of_not_lt fun long => ?_
      cases rest with
      | nil =>
        rw [List.append_nil, List.length_take] at row
        omega
      | cons c rest =>
        have within : c ∈ (digits ++ c :: rest).take width := by
          rw [List.take_append, List.mem_append, List.take_cons (by omega)]
          exact .inr List.mem_cons_self
        have digit := row.2 c within
        rw [ends c rfl] at digit
        cases digit
    rw [List.drop_append_of_le_length short]
    exact stops_append (fun c inside => plain c (List.mem_of_mem_drop inside)) ends
  next => cases fixed

theorem readMoment?_append : readMoment? (digits ++ rest) = none := by
  have noDate : readDate? (digits ++ rest) = none := by
    rw [readDate?]
    cases fixed : readFixed? 4 (digits ++ rest) with
    | none => rfl
    | some found =>
      have stuck : expect? '-' found.2 = none :=
        expect?_eq_none (readFixed?_stops plain ends fixed) (by decide)
      simp only [Option.bind_eq_bind, Option.bind_some, stuck, Option.bind_none]
  have noTime : readTime? (digits ++ rest) = none := by
    rw [readTime?, readMinute?]
    cases fixed : readFixed? 2 (digits ++ rest) with
    | none => rfl
    | some found =>
      have stuck : expect? ':' found.2 = none :=
        expect?_eq_none (readFixed?_stops plain ends fixed) (by decide)
      simp only [Option.bind_eq_bind, Option.bind_some, stuck, Option.bind_none]
  rw [readMoment?, noDate, noTime]
  rfl

theorem readBased?_append (nonempty : digits ≠ []) : readBased? (digits ++ rest) = none := by
  obtain ⟨c, digits, rfl⟩ := List.exists_cons_of_ne_nil nonempty
  -- The mark of a base is neither a digit nor the end of a row.
  have second := stops_append (fun d inside => plain d (List.mem_cons_of_mem c inside)) ends
  have unmarked {mark : Char} {others : List Char}
      (whole : c :: digits ++ rest = '0' :: mark :: others) :
      mark.isDigit = true ∨ mark = '\n' := by
    have next : digits ++ rest = mark :: others := (List.cons.inj whole).2
    exact second mark (by rw [next]; rfl)
  unfold readBased?
  split
  next whole => exact absurd (unmarked whole) (by decide)
  next whole => exact absurd (unmarked whole) (by decide)
  next whole => exact absurd (unmarked whole) (by decide)
  next => rfl

end

theorem readWhole?_toDigits (number : Nat) {rest : List Char} (ends : Ends rest) :
    readWhole? (Nat.toDigits 10 number ++ rest) = some (Nat.toDigits 10 number, rest) := by
  rcases Nat.eq_zero_or_pos number with rfl | positive
  · rfl
  · have whole := readDigits?_append (fun _ => isDigit_of_mem) ends
      (Nat.toDigits_ne_nil (n := number) (b := 10))
    rw [readWhole?, whole]
    intro others shape
    have first := congrArg List.head? shape
    rw [List.head?_append, Option.or_of_isSome (by simp)] at first
    exact head?_toDigits_ne_zero positive first

theorem readNumber?_toDigits {number : Nat} (small : number < Data.textBound)
    {rest : List Char} (ends : Ends rest) :
    readNumber? (Nat.toDigits 10 number ++ rest) = some (.ok (.int number, rest)) := by
  have plain : ∀ c ∈ Nat.toDigits 10 number, c.isDigit = true := fun _ => isDigit_of_mem
  have few := Data.length_toDigits_le_iff.mpr small
  have value : digitsValue 10 (Nat.toDigits 10 number) = number :=
    foldl_toDigits (fun c digit => by rw [Text.hexValue?_of_isDigit digit, Option.getD_some]) number
  have unsigned : readSign (Nat.toDigits 10 number ++ rest) =
      (false, Nat.toDigits 10 number ++ rest) := by
    obtain ⟨c, digits, shape⟩ :=
      List.exists_cons_of_ne_nil (Nat.toDigits_ne_nil (n := number) (b := 10))
    have digit := plain c (by simp [shape])
    rw [shape]
    unfold readSign
    split
    next whole => cases (List.cons.inj whole).1 ▸ digit
    next whole => cases (List.cons.inj whole).1 ▸ digit
    next => rfl
  rw [readNumber?, readBased?_append plain ends Nat.toDigits_ne_nil, readDecimal?, unsigned]
  simp only [readWhole?_toDigits number ends, Option.map_some, ends.readFraction?,
    ends.readExponent?, Option.map_none, Option.getD_none, Option.isNone_none,
    Bool.and_self, if_true, value, if_neg (Nat.not_lt.mpr few)]
  rfl

/-! ## Values -/

section

variable {digits : List Char} (plain : ∀ c ∈ digits, c.isDigit = true) (rest : List Char)

include plain

theorem readBasic_append (fuel : Nat) (enough : digits.length < fuel) :
    readBasic fuel (digits ++ '"' :: rest) = some (digits, rest) := by
  induction digits generalizing fuel with
  | nil =>
    obtain ⟨fuel, rfl⟩ := Nat.exists_eq_add_one.mpr enough
    rfl
  | cons c digits ih =>
    obtain ⟨fuel, rfl⟩ := Nat.exists_eq_add_one.mpr (Nat.zero_lt_of_lt enough)
    have digit : c.isDigit = true := plain c (by simp)
    have others := ih (fun d inside => plain d (by simp [inside])) fuel
      (Nat.lt_of_succ_lt_succ enough)
    rw [List.cons_append, readBasic, if_neg (by simp [not_isForbidden_of_isDigit digit]), others]
    · rfl
    · rintro rfl
      cases digit
    · rintro rfl
      cases digit

theorem readLiteral_append :
    readLiteral (digits ++ '\x27' :: rest) = some (digits, rest) := by
  induction digits with
  | nil => rfl
  | cons c digits ih =>
    have digit : c.isDigit = true := plain c (by simp)
    have others := ih fun d inside => plain d (by simp [inside])
    rw [List.cons_append, readLiteral, if_neg (by simp [not_isForbidden_of_isDigit digit]), others]
    · rfl
    · rintro rfl
      cases digit

end

/-- No text that spans lines begins with a digit. -/
theorem readText_quoted (quoting : Text.Quoting) (quoted : quoting ≠ .bare) {digits : List Char}
    (nonempty : digits ≠ []) (plain : ∀ c ∈ digits, c.isDigit = true) (rest : List Char) :
    readText (quoting.enclose digits ++ rest) = some (digits, rest) := by
  obtain ⟨c, digits, rfl⟩ := List.exists_cons_of_ne_nil nonempty
  have digit : c.isDigit = true := plain c (by simp)
  cases quoting with
  | bare => exact absurd rfl quoted
  | single =>
    have body := readLiteral_append plain rest
    simp only [Text.Quoting.enclose, Text.Quoting.mark, List.cons_append, List.nil_append,
      List.append_assoc] at body ⊢
    rw [readText, readShortText, body]
    all_goals
      intro _ whole
      rw [List.cons.injEq, List.cons.injEq] at whole
      cases whole.2.1 ▸ digit
  | double =>
    have body := readBasic_append plain rest ((c :: digits ++ '"' :: rest).length + 1)
      (by simp only [List.length_append]; omega)
    simp only [Text.Quoting.enclose, Text.Quoting.mark, List.cons_append, List.nil_append,
      List.append_assoc] at body ⊢
    rw [readText, readShortText, body]
    all_goals
      intro _ whole
      rw [List.cons.injEq, List.cons.injEq] at whole
      cases whole.2.1 ▸ digit

/-- No other kind of value begins with a digit. -/
theorem readValue_of_isDigit (fuel depth : Nat) {c : Char} (digit : c.isDigit = true)
    (rest : List Char) :
    readValue (fuel + 1) depth (c :: rest) =
      match (readMoment? (c :: rest)).or (readNumber? (c :: rest)) with
      | some reading => reading
      | none => .error .malformed := by
  have first : ∀ d others, c :: rest = d :: others → d.isDigit = true := by
    rintro _ _ ⟨⟩
    exact digit
  unfold readValue
  split
  next whole => cases whole
  next whole => cases first _ _ whole
  next whole => cases first _ _ whole
  next whole => cases first _ _ whole
  next whole => cases first _ _ whole
  next whole => cases first _ _ whole
  next whole => cases first _ _ whole
  next => rfl

/-- What a number in a document stands for: between quotes it is a text. -/
def numberData (quoting : Text.Quoting) (number : Nat) : Data :=
  if quoting = .bare then .int number else .text (toString number)

theorem readValue_enclose (fuel depth : Nat) (quoting : Text.Quoting) {number : Nat}
    (small : number < Data.textBound) {rest : List Char} (ends : Ends rest) :
    readValue (fuel + 1) depth (quoting.enclose (Nat.toDigits 10 number) ++ rest) =
      .ok (numberData quoting number, rest) := by
  have plain : ∀ c ∈ Nat.toDigits 10 number, c.isDigit = true := fun _ => isDigit_of_mem
  have nonempty := Nat.toDigits_ne_nil (n := number) (b := 10)
  have text (quoted : quoting ≠ .bare) := readText_quoted quoting quoted nonempty plain rest
  cases quoting with
  | bare =>
    obtain ⟨c, digits, shape⟩ := List.exists_cons_of_ne_nil nonempty
    have none := readMoment?_append plain ends
    have found := readNumber?_toDigits small ends
    simp only [Text.Quoting.enclose, Text.Quoting.mark, List.nil_append, List.append_nil]
    rw [shape, List.cons_append] at none found ⊢
    rw [readValue_of_isDigit fuel depth (plain c (by simp [shape])), none, found]
    rfl
  | single | double =>
    have text := text (by decide)
    simp only [Text.Quoting.enclose, Text.Quoting.mark, List.cons_append] at text ⊢
    rw [readValue, text]
    rfl

end BoolQuery.Toml
