import BoolQuery.Proofs.Query.Scan
import Mathlib.Algebra.Ring.Parity
import Mathlib.Data.List.Induction

/-! The language of queries, without a reader.

Whether a query is accepted depends on its quotes, counted from the left, and on the blanks next
to opening quotes and to the signs in front of nodes: `accepted_iff_inLanguage`.
-/

set_option autoImplicit false

namespace BoolQuery.Query

open Text (isBlank)

/-- A text lies outside every phrase at its end if it has as many closing quotes as opening ones. -/
def Outside (before : List Char) : Prop := Even (before.count '"')

/-- A node may start at the start of a query, after a blank or after a closing quote. -/
def NodeStarts (before : List Char) : Prop :=
  before = [] ∨ (∃ earlier c, before = earlier ++ [c] ∧ isBlank c = true) ∨
    ∃ earlier, before = earlier ++ ['"'] ∧ ¬ Outside earlier

/-- The three conditions under which a query can be read. -/
structure InLanguage (text : List Char) : Prop where
  closed : Outside text
  -- No blank follows an opening quote.
  opening : ∀ before after, text = before ++ '"' :: after → Outside before → Solid after
  -- Something other than a blank follows the sign of a node.
  signs : ∀ before (sign : Sign) after, text = before ++ sign.toChar :: after → Outside before →
    NodeStarts before → ∃ c ∈ after.head?, isBlank c = false

theorem outside_snoc_quote {before : List Char} :
    Outside (before ++ ['"']) ↔ ¬ Outside before := by
  simp [Outside, Nat.even_add_one]

theorem outside_snoc {before : List Char} {c : Char} (unquoted : c ≠ '"') :
    Outside (before ++ [c]) ↔ Outside before := by
  simp [Outside, unquoted]

theorem nodeStarts_snoc {before : List Char} {c : Char} :
    NodeStarts (before ++ [c]) ↔ isBlank c = true ∨ c = '"' ∧ ¬ Outside before := by
  constructor
  · rintro (empty | ⟨earlier, d, same, blank⟩ | ⟨earlier, same, inside⟩)
    · simp at empty
    · obtain ⟨-, rfl⟩ := List.append_inj' same rfl |>.imp_right List.singleton_inj.mp
      exact Or.inl blank
    · obtain ⟨rfl, rfl⟩ := List.append_inj' same rfl |>.imp_right List.singleton_inj.mp
      exact Or.inr ⟨rfl, inside⟩
  · rintro (blank | ⟨rfl, inside⟩)
    · exact Or.inr (Or.inl ⟨before, c, rfl, blank⟩)
    · exact Or.inr (Or.inr ⟨before, rfl, inside⟩)

/-- What a spot tells about the text before it. -/
structure Spot.Describes (spot : Spot) (before : List Char) : Prop where
  inside : spot = .opened ∨ spot = .phrase ↔ ¬ Outside before
  gap : spot = .gap ↔ Outside before ∧ NodeStarts before
  signed : spot = .signed → ∃ earlier, ∃ sign : Sign,
    before = earlier ++ [sign.toChar] ∧ Outside earlier ∧ NodeStarts earlier
  opened : spot = .opened → ∃ earlier, before = earlier ++ ['"'] ∧ Outside earlier

namespace Spot.Describes

theorem empty : Spot.gap.Describes [] where
  inside := by simp [Outside]
  gap := by simp [Outside, NodeStarts]
  signed := by simp
  opened := by simp

theorem step_quote {spot next : Spot} {before : List Char} (known : spot.Describes before)
    (taken : spot.step '"' = some next) : next.Describes (before ++ ['"']) := by
  have inside := known.inside
  have opened : Outside before → ∃ earlier, before ++ ['"'] = earlier ++ ['"'] ∧ Outside earlier :=
    fun outside => ⟨before, rfl, outside⟩
  cases spot <;> cases taken <;> constructor <;>
    simp_all [outside_snoc_quote, nodeStarts_snoc, isBlank_quote]

theorem step_blank {spot next : Spot} {before : List Char} {c : Char}
    (known : spot.Describes before) (blank : isBlank c = true) (taken : spot.step c = some next) :
    next.Describes (before ++ [c]) := by
  have unquoted := ne_quote_of_isBlank blank
  have inside := known.inside
  cases spot <;> simp [Spot.step, blank, unquoted] at taken <;> subst taken <;> constructor <;>
    simp_all [outside_snoc, nodeStarts_snoc]

theorem step_plain {spot next : Spot} {before : List Char} {c : Char}
    (known : spot.Describes before) (plain : isTermChar c = true)
    (taken : spot.step c = some next) : next.Describes (before ++ [c]) := by
  obtain ⟨solid, unquoted⟩ := isTermChar_iff.mp plain
  have inside := known.inside
  have gap := known.gap
  -- Only at the start of a node does it matter whether the character is a sign.
  cases spot with
  | gap =>
    cases sign : Sign.ofChar? c with
    | none =>
      simp [Spot.step, solid, unquoted, sign] at taken
      subst taken
      constructor <;> simp_all [outside_snoc, nodeStarts_snoc]
    | some sign =>
      cases Sign.ofChar?_eq_some.mp sign
      simp [Spot.step, solid, unquoted, sign] at taken
      subst taken
      constructor <;> simp_all [outside_snoc, nodeStarts_snoc]
  | word | signed | opened | phrase =>
    simp [Spot.step, solid, unquoted] at taken
    subst taken
    constructor <;> simp_all [outside_snoc, nodeStarts_snoc]

theorem run {spot : Spot} {text : List Char} (fits : Spot.gap.run text = some spot) :
    spot.Describes text := by
  -- The spot tells about the text from its last character, so the text grows on the right.
  induction text using List.reverseRecOn generalizing spot with
  | nil =>
    cases fits
    exact empty
  | append_singleton text c ih =>
    obtain ⟨middle, passed, taken⟩ := Option.bind_eq_some_iff.mp (run_snoc _ text c ▸ fits)
    cases blank : isBlank c with
    | true => exact (ih passed).step_blank blank taken
    | false =>
      by_cases quoted : c = '"'
      · subst quoted
        exact (ih passed).step_quote taken
      · exact (ih passed).step_plain (isTermChar_iff.mpr ⟨blank, quoted⟩) taken

end Spot.Describes

theorem inLanguage_of_fits {text : List Char} {last : Spot} (fits : Spot.gap.run text = some last)
    (ends : last.missing = none) : InLanguage text where
  closed := by
    by_contra inside
    rcases (Spot.Describes.run fits).inside.mpr inside with rfl | rfl <;> cases ends
  opening := by
    rintro before after rfl outside c head
    obtain ⟨middle, passed, goes⟩ := Option.bind_eq_some_iff.mp (Spot.run_append _ _ _ ▸ fits)
    obtain ⟨spot, taken, goes⟩ := Option.bind_eq_some_iff.mp goes
    -- An opening quote is read outside every phrase, so the scan stands right after it.
    have here : spot = .opened := by
      have inside := (Spot.Describes.run passed).inside
      cases middle <;> simp_all [Spot.step, isBlank_quote]
    subst here
    cases after with
    | nil => cases head
    | cons d after =>
      cases head
      obtain ⟨next, taken, -⟩ := Option.bind_eq_some_iff.mp goes
      by_contra blank
      simp [Spot.step, blank] at taken
  signs := by
    rintro before sign after rfl outside starts
    obtain ⟨middle, passed, goes⟩ := Option.bind_eq_some_iff.mp (Spot.run_append _ _ _ ▸ fits)
    obtain ⟨spot, taken, goes⟩ := Option.bind_eq_some_iff.mp goes
    -- A node starts in a gap, where the scan takes this character for its sign.
    have gap : middle = .gap := (Spot.Describes.run passed).gap.mpr ⟨outside, starts⟩
    have here : spot = .signed := by
      subst gap
      cases sign <;> cases taken <;> rfl
    subst here
    cases after with
    | nil =>
      cases goes
      cases ends
    | cons c after =>
      obtain ⟨next, taken, -⟩ := Option.bind_eq_some_iff.mp goes
      refine ⟨c, rfl, ?_⟩
      by_contra blank
      simp [Spot.step, blank] at taken

theorem fits_of_inLanguage {text : List Char} (valid : InLanguage text) :
    scan .gap 0 text = none := by
  cases outcome : scan .gap 0 text with
  | none => rfl
  | some failure =>
    obtain ⟨before, after, reached, rfl, -, fits, missing, stuck⟩ := scan_eq_some outcome
    have known := Spot.Describes.run fits
    have blanks : ∀ c ∈ after.head?, isBlank c = true :=
      fun c head => (Spot.step_eq_none_iff.mp (stuck c head)).1
    -- Wherever a scan can fail, one of the three conditions is broken.
    cases reached with
    | gap | word => cases missing
    | signed =>
      obtain ⟨earlier, sign, rfl, outside, starts⟩ := known.signed rfl
      obtain ⟨c, head, solid⟩ := valid.signs earlier sign after (by simp) outside starts
      rw [blanks c head] at solid
      contradiction
    | opened =>
      obtain ⟨earlier, rfl, outside⟩ := known.opened rfl
      cases after with
      | nil => exact absurd valid.closed (by simpa [outside_snoc_quote] using outside)
      | cons c after =>
        have solid := valid.opening earlier (c :: after) (by simp) outside c rfl
        rw [blanks c rfl] at solid
        contradiction
    | phrase =>
      cases after with
      | nil => exact absurd (by simpa using valid.closed) (known.inside.mp (Or.inr rfl))
      | cons c after =>
        have misplaced := (Spot.step_eq_none_iff.mp (stuck c rfl)).2
        simp at misplaced

/-- Exactly the queries whose phrases are closed, and in which no blank follows an opening quote
and a body follows each sign of a node, are accepted. No other character matters. -/
theorem accepted_iff_inLanguage (query : String) : Accepted query ↔ InLanguage query.toList := by
  rw [accepted_iff]
  constructor
  · rintro ⟨last, fits, ends⟩
    exact inLanguage_of_fits fits ends
  · intro valid
    exact scan_eq_none_iff.mp (fits_of_inLanguage valid)

end BoolQuery.Query
