import BoolQuery.Query.Reader
import Mathlib.Data.List.TakeWhile

/-! The reader of a query, step by step.

The reader cuts off longest runs. Here each of its steps is an equation over an input that is
already cut into a word, blanks and a rest, and `phraseInduction` follows these steps.
-/

set_option autoImplicit false

namespace BoolQuery.Query

open Text (isBlank)

theorem isTermChar_iff {c : Char} : isTermChar c = true ↔ isBlank c = false ∧ c ≠ '"' := by
  simp [isTermChar]

theorem not_isTermChar_iff {c : Char} : isTermChar c = false ↔ isBlank c = true ∨ c = '"' := by
  rw [← Bool.not_eq_true, isTermChar_iff]
  by_cases blank : isBlank c <;> simp [blank]

theorem isBlank_quote : isBlank '"' = false := rfl

theorem ne_quote_of_isBlank {c : Char} (blank : isBlank c = true) : c ≠ '"' := by
  rintro rfl
  rw [isBlank_quote] at blank
  cases blank

/-- The text of a term. -/
structure Word (text : List Char) : Prop where
  nonempty : text ≠ []
  plain : ∀ c ∈ text, isTermChar c = true

/-- A text in which a term cannot go on. -/
def Breaks (rest : List Char) : Prop := ∀ c ∈ rest.head?, isTermChar c = false

/-- A text that does not begin with a blank. -/
def Solid (rest : List Char) : Prop := ∀ c ∈ rest.head?, isBlank c = false

def Blanks (text : List Char) : Prop := ∀ c ∈ text, isBlank c = true

theorem Blanks.nil : Blanks [] := by simp [Blanks]

theorem breaks_cons {c : Char} {rest : List Char} :
    Breaks (c :: rest) ↔ isBlank c = true ∨ c = '"' := by
  simp [Breaks, not_isTermChar_iff]

theorem Word.exists_cons {text : List Char} (word : Word text) :
    ∃ c rest, text = c :: rest ∧ isBlank c = false ∧ c ≠ '"' ∧ ∀ d ∈ rest, isTermChar d = true := by
  obtain ⟨c, rest, rfl⟩ := List.exists_cons_of_ne_nil word.nonempty
  have first := isTermChar_iff.mp (word.plain c (by simp))
  exact ⟨c, rest, rfl, first.1, first.2, fun d inside => word.plain d (by simp [inside])⟩

theorem Word.visible {text : List Char} (word : Word text) : ∀ c ∈ text, isBlank c = false :=
  fun c inside => (isTermChar_iff.mp (word.plain c inside)).1

theorem Word.solid {text : List Char} (word : Word text) (rest : List Char) :
    Solid (text ++ rest) := by
  obtain ⟨c, text, rfl, solid, -⟩ := word.exists_cons
  intro d head
  cases head
  exact solid

theorem exists_run (class_ : Char → Bool) (input : List Char) :
    ∃ run rest, input = run ++ rest ∧ (∀ c ∈ run, class_ c = true) ∧
      ∀ c ∈ rest.head?, class_ c = false := by
  refine ⟨input.takeWhile class_, input.dropWhile class_, by simp, ?_, ?_⟩
  · intro c inside
    exact List.mem_takeWhile_imp inside
  · intro c head
    have outside := List.head?_dropWhile_not class_ input
    rwa [Option.mem_def.mp head] at outside

theorem exists_word {c : Char} (rest : List Char) (first : isTermChar c = true) :
    ∃ text after, c :: rest = text ++ after ∧ Word text ∧ Breaks after := by
  obtain ⟨run, after, cut, plain, breaks⟩ := exists_run isTermChar (c :: rest)
  refine ⟨run, after, cut, ⟨?_, plain⟩, breaks⟩
  rintro rfl
  have here := breaks c (by rw [← List.nil_append after, ← cut]; rfl)
  rw [first] at here
  cases here

theorem takeWhile_append_of_break {class_ : Char → Bool} {run rest : List Char}
    (all : ∀ c ∈ run, class_ c = true) (stops : ∀ c ∈ rest.head?, class_ c = false) :
    (run ++ rest).takeWhile class_ = run := by
  rw [List.takeWhile_append_of_pos all]
  cases rest with
  | nil => simp
  | cons c rest => simp [stops c rfl]

theorem dropWhile_append_of_break {class_ : Char → Bool} {run rest : List Char}
    (all : ∀ c ∈ run, class_ c = true) (stops : ∀ c ∈ rest.head?, class_ c = false) :
    (run ++ rest).dropWhile class_ = rest := by
  rw [List.dropWhile_append_of_pos all]
  cases rest with
  | nil => rfl
  | cons c rest => simp [stops c rfl]

theorem readTerm_append (offset : Nat) {text rest : List Char} (word : Word text)
    (breaks : Breaks rest) :
    readTerm offset (text ++ rest) =
      ⟨⟨String.ofList text, offset⟩, offset + text.length, rest⟩ := by
  simp only [readTerm, takeWhile_append_of_break word.plain breaks,
    dropWhile_append_of_break word.plain breaks]

def Reading.map {α β : Type} (convert : α → β) (reading : Reading α) : Reading β :=
  ⟨convert reading.value, reading.offset, reading.rest⟩

theorem map_eq_ok {α β : Type} {convert : α → β} {outcome : Except Failure α} {result : β}
    (done : outcome.map convert = .ok result) :
    ∃ value, outcome = .ok value ∧ convert value = result := by
  cases outcome with
  | error failure => cases done
  | ok value => exact ⟨value, rfl, Except.ok.inj done⟩

theorem readPhrase_nil (offset : Nat) : readPhrase offset [] = .error ⟨offset, .phraseClose⟩ := by
  rw [readPhrase]

theorem readPhrase_quote (offset : Nat) (rest : List Char) :
    readPhrase offset ('"' :: rest) = .ok ⟨[], offset + 1, rest⟩ := by
  rw [readPhrase, if_pos rfl]

theorem readPhrase_blank (offset : Nat) {c : Char} (rest : List Char) (blank : isBlank c = true) :
    readPhrase offset (c :: rest) = .error ⟨offset, .phraseClose⟩ := by
  rw [readPhrase, if_neg (ne_quote_of_isBlank blank), if_pos blank]

theorem readPhrase_word (offset : Nat) {text blanks rest : List Char} (word : Word text)
    (all : Blanks blanks) (breaks : Breaks (blanks ++ rest)) (solid : Solid rest) :
    readPhrase offset (text ++ (blanks ++ rest)) =
      (readPhrase (offset + text.length + blanks.length) rest).map
        (Reading.map (⟨String.ofList text, offset⟩ :: ·)) := by
  have term := readTerm_append offset word breaks
  obtain ⟨c, text, rfl, visible, unquoted, -⟩ := word.exists_cons
  rw [List.cons_append] at term ⊢
  rw [readPhrase, if_neg unquoted, if_neg (by simp [visible])]
  simp only [term, takeWhile_append_of_break all solid, dropWhile_append_of_break all solid]
  cases readPhrase (offset + (c :: text).length + blanks.length) rest <;> rfl

theorem readBody_quote (offset : Nat) (rest : List Char) :
    readBody offset ('"' :: rest) =
      (readPhrase (offset + 1) rest).map (Reading.map (Body.phrase · offset)) := by
  rw [readBody, if_pos rfl]
  cases readPhrase (offset + 1) rest <;> rfl

theorem readBody_word (offset : Nat) {text rest : List Char} (word : Word text)
    (breaks : Breaks rest) :
    readBody offset (text ++ rest) =
      .ok ⟨.term ⟨String.ofList text, offset⟩, offset + text.length, rest⟩ := by
  have term := readTerm_append offset word breaks
  obtain ⟨c, text, rfl, visible, unquoted, -⟩ := word.exists_cons
  rw [List.cons_append] at term ⊢
  rw [readBody, if_neg unquoted, if_neg (by simp [visible])]
  simp only [term]

theorem readNode_sign (offset : Nat) (sign : Sign) (rest : List Char) :
    readNode offset (sign.toChar :: rest) =
      (readBody (offset + 1) rest).map (Reading.map (Node.mk (some sign) · offset)) := by
  have known : Sign.ofChar? sign.toChar = some sign := Sign.ofChar?_eq_some.mpr rfl
  simp only [readNode, known]
  cases readBody (offset + 1) rest <;> rfl

theorem readNode_unsigned (offset : Nat) {c : Char} (rest : List Char)
    (unsigned : Sign.ofChar? c = none) :
    readNode offset (c :: rest) =
      (readBody offset (c :: rest)).map (Reading.map (Node.mk none · offset)) := by
  simp only [readNode, unsigned]
  cases readBody offset (c :: rest) <;> rfl

theorem readNodes_blank (offset : Nat) {c : Char} (rest : List Char) (blank : isBlank c = true) :
    readNodes offset (c :: rest) = readNodes (offset + 1) rest := by
  rw [readNodes, if_pos blank]

theorem readNodes_node (offset : Nat) {c : Char} (rest : List Char) (solid : isBlank c = false) :
    readNodes offset (c :: rest) =
      (readNode offset (c :: rest)).bind fun node =>
        (readNodes node.offset node.rest).map (node.value :: ·) := by
  rw [readNodes, if_neg (by simp [solid])]
  split
  next failure failed => rw [failed]; rfl
  next node read =>
    rw [read]
    change _ = Except.map _ (readNodes node.offset node.rest)
    cases readNodes node.offset node.rest <;> rfl

/-- Inside a phrase the reader either stops at once or passes a word with the blanks after it. -/
@[elab_as_elim]
theorem phraseInduction {motive : Nat → List Char → Prop}
    (nil : ∀ offset, motive offset [])
    (quote : ∀ offset rest, motive offset ('"' :: rest))
    (blank : ∀ offset c rest, isBlank c = true → motive offset (c :: rest))
    (word : ∀ offset text blanks rest, Word text → Blanks blanks → Breaks (blanks ++ rest) →
      Solid rest → motive (offset + text.length + blanks.length) rest →
      motive offset (text ++ (blanks ++ rest)))
    (offset : Nat) (input : List Char) : motive offset input := by
  -- A word is not empty, so what follows it and its blanks is shorter.
  induction size : input.length using Nat.strong_induction_on generalizing offset input with
  | _ length ih =>
    cases input with
    | nil => exact nil offset
    | cons c input =>
      by_cases quoted : c = '"'
      · subst quoted
        exact quote offset input
      by_cases empty : isBlank c = true
      · exact blank offset c input empty
      obtain ⟨text, after, cut, first, breaks⟩ :=
        exists_word input (isTermChar_iff.mpr ⟨by simpa using empty, quoted⟩)
      obtain ⟨blanks, rest, rfl, all, solid⟩ := exists_run isBlank after
      rw [cut]
      have shorter : rest.length < length := by
        rw [← size, cut]
        have := List.length_pos_iff.mpr first.nonempty
        simp only [List.length_append]
        omega
      exact word offset text blanks rest first all breaks solid (ih _ shorter _ rest rfl)

end BoolQuery.Query
