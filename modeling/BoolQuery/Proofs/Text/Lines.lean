import BoolQuery.Text.Lines
import Mathlib.Algebra.GroupWithZero.Nat
import Mathlib.Data.List.Induction
import Mathlib.Data.List.TakeWhile

/-! Lines and what surrounds a text.

Trimming takes away all that surrounds a text, and nothing of it: `trimWhile_append`. The lines of
rows that are joined by line feeds are these rows, but for a last one that is empty:
`lines_intercalate`. Their pieces are the rows as they are: `pieces_intercalate`.
-/

set_option autoImplicit false

namespace BoolQuery.Text

/-! ## Trimming -/

/-- A text begins and ends with a character that is not dropped, if it is not empty. -/
structure Trimmed (drop : Char → Bool) (text : List Char) : Prop where
  first : ∀ c ∈ text.head?, drop c = false
  last : ∀ c ∈ text.getLast?, drop c = false

theorem dropWhile_eq_self {drop : Char → Bool} {text : List Char}
    (first : ∀ c ∈ text.head?, drop c = false) : text.dropWhile drop = text := by
  cases text with
  | nil => rfl
  | cons c text => rw [List.dropWhile_cons_of_neg (by simp [first c rfl])]

theorem trimWhile_append {drop : Char → Bool} {lead text trail : List Char}
    (before : ∀ c ∈ lead, drop c = true) (trimmed : Trimmed drop text)
    (after : ∀ c ∈ trail, drop c = true) : trimWhile drop (lead ++ (text ++ trail)) = text := by
  rw [trimWhile, List.dropWhile_append_of_pos before]
  cases text with
  | nil =>
    rw [List.nil_append, List.dropWhile_eq_nil_iff.mpr after]
    rfl
  | cons c text =>
    have front : (c :: text ++ trail).dropWhile drop = c :: text ++ trail :=
      dropWhile_eq_self trimmed.first
    have last : ∀ d ∈ (c :: text).reverse.head?, drop d = false := by
      rw [List.head?_reverse]
      exact trimmed.last
    rw [front, trimEndWhile, List.reverse_append,
      List.dropWhile_append_of_pos (by simpa using after), dropWhile_eq_self last,
      List.reverse_reverse]

theorem trimWhile_eq_self {drop : Char → Bool} {text : List Char} (trimmed : Trimmed drop text) :
    trimWhile drop text = text := by
  simpa using trimWhile_append (List.forall_mem_nil _) trimmed (List.forall_mem_nil _)

theorem trimEndWhile_cons {drop : Char → Bool} {c : Char} (kept : drop c = false)
    (text : List Char) : trimEndWhile drop (c :: text) = c :: trimEndWhile drop text := by
  rw [trimEndWhile, trimEndWhile, List.reverse_cons, List.dropWhile_append]
  split
  next empty =>
    rw [List.isEmpty_iff.mp empty, List.dropWhile_cons_of_neg (by simp [kept])]
    rfl
  next => rw [List.reverse_append, List.reverse_singleton, List.singleton_append]

theorem trimWhile_sublist (drop : Char → Bool) (text : List Char) :
    (trimWhile drop text).Sublist text := by
  have front := (List.dropWhile_sublist drop (l := (text.dropWhile drop).reverse)).reverse
  rw [List.reverse_reverse] at front
  exact front.trans (List.dropWhile_sublist drop)

/-- What is taken away stands before and after what is left. -/
theorem exists_trimWhile (drop : Char → Bool) (text : List Char) :
    ∃ lead trail, text = lead ++ (trimWhile drop text ++ trail) ∧
      (∀ c ∈ lead, drop c = true) ∧ ∀ c ∈ trail, drop c = true := by
  have rest := congrArg List.reverse
    (List.takeWhile_append_dropWhile (p := drop) (l := (text.dropWhile drop).reverse))
  rw [List.reverse_append, List.reverse_reverse] at rest
  refine ⟨text.takeWhile drop, ((text.dropWhile drop).reverse.takeWhile drop).reverse, ?_, ?_, ?_⟩
  · rw [trimWhile, trimEndWhile, rest, List.takeWhile_append_dropWhile]
  · exact fun c inside => List.mem_takeWhile_imp inside
  · exact fun c inside => List.mem_takeWhile_imp (List.mem_reverse.mp inside)

theorem head?_dropWhile {drop : Char → Bool} (text : List Char) :
    ∀ c ∈ (text.dropWhile drop).head?, drop c = false := by
  intro c here
  have stops := List.head?_dropWhile_not drop text
  rwa [Option.mem_def.mp here] at stops

theorem trimmed_trimWhile (drop : Char → Bool) (text : List Char) :
    Trimmed drop (trimWhile drop text) where
  first c here := by
    obtain ⟨tail, whole⟩ : trimWhile drop text <+: text.dropWhile drop := by
      rw [trimWhile, trimEndWhile, ← List.reverse_suffix, List.reverse_reverse]
      exact List.dropWhile_suffix drop
    apply head?_dropWhile text c
    rw [← whole, List.head?_append, Option.mem_def.mp here]
    rfl
  last c here := by
    rw [trimWhile, trimEndWhile, List.getLast?_reverse] at here
    exact head?_dropWhile _ c here

/-- How a text is written: as it stands, or between two equal quotes. -/
inductive Quoting where
  | bare
  | single
  | double
  deriving DecidableEq, Repr

def Quoting.mark : Quoting → List Char
  | .bare => []
  | .single => ['\x27']
  | .double => ['"']

def Quoting.enclose (quoting : Quoting) (text : List Char) : List Char :=
  quoting.mark ++ (text ++ quoting.mark)

/-! ## Lines -/

theorem splitWhere_of_none {separates : Char → Bool} {piece : List Char}
    (plain : ∀ c ∈ piece, separates c = false) : splitWhere separates piece = [piece] := by
  induction piece with
  | nil => rfl
  | cons c piece ih =>
    have others : ∀ d ∈ piece, separates d = false := fun d inside => plain d (by simp [inside])
    have visible := plain c (by simp)
    simp only [splitWhere, visible, Bool.false_eq_true, if_false, ih others]

theorem splitWhere_append_cons {separates : Char → Bool} {piece : List Char}
    (plain : ∀ c ∈ piece, separates c = false) {c : Char} (parts : separates c = true)
    (rest : List Char) :
    splitWhere separates (piece ++ c :: rest) = piece :: splitWhere separates rest := by
  induction piece with
  | nil => simp only [List.nil_append, splitWhere, parts, if_true]
  | cons d piece ih =>
    have others : ∀ e ∈ piece, separates e = false := fun e inside => plain e (by simp [inside])
    have visible := plain d (by simp)
    simp only [List.cons_append, splitWhere, visible, Bool.false_eq_true, if_false, ih others]

theorem splitWhere_intercalate {separates : Char → Bool} (feed : separates '\n' = true)
    {rows : List (List Char)} (nonempty : rows ≠ [])
    (unbroken : ∀ row ∈ rows, ∀ c ∈ row, separates c = false) :
    splitWhere separates (['\n'].intercalate rows) = rows := by
  induction rows with
  | nil => exact absurd rfl nonempty
  | cons row rows ih =>
    have here := unbroken row (by simp)
    have others : ∀ other ∈ rows, ∀ c ∈ other, separates c = false := fun other member =>
      unbroken other (by simp [member])
    cases rows with
    | nil => exact List.intercalate_singleton ▸ splitWhere_of_none here
    | cons other rows =>
      rw [List.intercalate_cons_cons, List.append_assoc, List.singleton_append,
        splitWhere_append_cons here feed, ih (by simp) others]

/-- A text that is one line. -/
def Unbroken (row : List Char) : Prop := ∀ c ∈ row, isLineEnd c = false

theorem unbroken_of_all {row : List Char} (all : row.all fun c => !isLineEnd c) :
    Unbroken row := by
  simpa [Unbroken] using all

theorem normalizeEnds_eq_self {text : List Char} (plain : ∀ c ∈ text, c ≠ '\r') :
    normalizeEnds text = text := by
  induction text with
  | nil => rfl
  | cons c text ih =>
    rw [normalizeEnds_cons (plain c (by simp)), ih fun d inside => plain d (by simp [inside])]

theorem mem_intercalate {rows : List (List Char)} {c : Char}
    (inside : c ∈ ['\n'].intercalate rows) : c = '\n' ∨ ∃ row ∈ rows, c ∈ row := by
  induction rows with
  | nil => cases inside
  | cons row rows ih =>
    cases rows with
    | nil => exact .inr ⟨row, by simp, by simpa using inside⟩
    | cons other rows =>
      rw [List.intercalate_cons_cons, List.mem_append, List.mem_append,
        List.mem_singleton] at inside
      rcases inside with (here | feed) | later
      · exact .inr ⟨row, by simp, here⟩
      · exact .inl feed
      · obtain feed | ⟨found, member, there⟩ := ih later
        · exact .inl feed
        · exact .inr ⟨found, List.mem_cons_of_mem _ member, there⟩

/-- An empty row counts, unless it is the last one. -/
theorem lines_intercalate {rows : List (List Char)} (nonempty : rows ≠ [])
    (unbroken : ∀ row ∈ rows, Unbroken row) :
    lines (normalizeEnds (['\n'].intercalate rows)) =
      if rows.getLast? = some [] then rows.dropLast else rows := by
  have plain : ∀ c ∈ ['\n'].intercalate rows, c ≠ '\r' := by
    rintro _ inside rfl
    obtain feed | ⟨row, member, here⟩ := mem_intercalate inside
    · cases feed
    · cases unbroken row member '\r' here
  rw [normalizeEnds_eq_self plain, lines, splitWhere_intercalate rfl nonempty unbroken]

/-! ## Pieces -/

theorem isFeed_eq_false {row : List Char} (feedless : '\n' ∉ row) :
    ∀ c ∈ row, (c == '\n') = false := by
  rintro c inside
  rw [beq_eq_false_iff_ne]
  rintro rfl
  exact feedless inside

theorem isNotFeed_eq_true {row : List Char} (feedless : '\n' ∉ row) :
    ∀ c ∈ row, (c != '\n') = true := by
  intro c inside
  rw [bne, isFeed_eq_false feedless c inside, Bool.not_false]

theorem pieces_intercalate {rows : List String} (nonempty : rows ≠ [])
    (feedless : ∀ row ∈ rows, '\n' ∉ row.toList) :
    pieces ("\n".intercalate rows).toList = rows.map String.toList := by
  rw [String.toList_intercalate]
  apply splitWhere_intercalate rfl (by simpa using nonempty)
  intro row member
  obtain ⟨source, inside, rfl⟩ := List.mem_map.mp member
  exact isFeed_eq_false (feedless source inside)

/-- Rows, each with its line feed. -/
def ended (rows : List (List Char)) : List Char := rows.flatMap (· ++ ['\n'])

theorem pieces_ended_append {rows : List (List Char)} (feedless : ∀ row ∈ rows, '\n' ∉ row)
    (rest : List Char) : pieces (ended rows ++ rest) = rows ++ pieces rest := by
  induction rows with
  | nil => rfl
  | cons row rows ih =>
    have here : '\n' ∉ row := feedless row (by simp)
    have others : ∀ other ∈ rows, '\n' ∉ other := fun other member =>
      feedless other (by simp [member])
    have shape : ended (row :: rows) ++ rest = row ++ '\n' :: (ended rows ++ rest) := by
      simp [ended]
    rw [shape, pieces, splitWhere_append_cons (isFeed_eq_false here) rfl, ← pieces, ih others]
    rfl

theorem length_ended (rows : List (List Char)) :
    (ended rows).length = (rows.map fun row => row.length + 1).sum := by
  simp [ended, List.length_flatMap]

theorem count_ended {rows : List (List Char)} (feedless : ∀ row ∈ rows, '\n' ∉ row) :
    (ended rows).count '\n' = rows.length := by
  induction rows with
  | nil => rfl
  | cons row rows ih =>
    have here : '\n' ∉ row := feedless row (by simp)
    have others : ∀ other ∈ rows, '\n' ∉ other := fun other member =>
      feedless other (by simp [member])
    rw [ended, List.flatMap_cons, ← ended, List.count_append, List.count_append, ih others,
      List.count_eq_zero_of_not_mem here, List.length_cons]
    simp
    omega

/-- A text is some rows with their line feeds, and then a row without one. -/
theorem exists_ended (text : List Char) :
    ∃ rows last, text = ended rows ++ last ∧ (∀ row ∈ rows, '\n' ∉ row) ∧ '\n' ∉ last := by
  induction text using List.reverseRecOn with
  | nil => exact ⟨[], [], rfl, List.forall_mem_nil _, List.not_mem_nil⟩
  | append_singleton text c ih =>
    obtain ⟨rows, last, rfl, feedless, plain⟩ := ih
    by_cases feed : c = '\n'
    · subst feed
      refine ⟨rows ++ [last], [], by simp [ended], ?_, List.not_mem_nil⟩
      rw [List.forall_mem_append]
      exact ⟨feedless, by simpa using plain⟩
    · refine ⟨rows, last ++ [c], by simp, feedless, ?_⟩
      simpa [Ne.symm feed] using plain

/-- The first piece ends before the first line feed. -/
theorem exists_pieces_eq_cons (text : List Char) :
    ∃ others, pieces text = text.takeWhile (· != '\n') :: others := by
  induction text with
  | nil => exact ⟨[], rfl⟩
  | cons c text ih =>
    by_cases feed : c = '\n'
    · subst feed
      exact ⟨pieces text, rfl⟩
    · obtain ⟨others, shape⟩ := ih
      refine ⟨others, ?_⟩
      rw [pieces] at shape ⊢
      simp [splitWhere, feed, shape]

end BoolQuery.Text
