import BoolQuery.Proofs.Query.Spelling
import Mathlib.Data.List.Chain

/-! Where the parts of a tree stand in the text of its query.

`Tree.Depicts` says by offsets alone that a tree accounts for each character of a text. The lemmas
after it turn offsets into cuts of the text and back.
-/

set_option autoImplicit false

namespace BoolQuery.Query

open Text (isBlank)

/-! ## What it means to depict a text -/

def BlankAt (text : List Char) (index : Nat) : Prop := ∃ c ∈ text[index]?, isBlank c = true

def QuoteAt (text : List Char) (index : Nat) : Prop := text[index]? = some '"'

def Term.stop (word : Term) : Nat := word.offset + word.text.length

/-- The text of a term stands at its offset and is a word. -/
structure Term.Placed (text : List Char) (word : Term) : Prop where
  nonempty : word.text ≠ ""
  same : (text.drop word.offset).take word.text.length = word.text.toList
  plain : ∀ c ∈ word.text.toList, isBlank c = false ∧ c ≠ '"'

def Term.Covers (word : Term) (index : Nat) : Prop := word.offset ≤ index ∧ index < word.stop

/-- The place after the last of some terms, or a given place if there are none. -/
def lastStop : Nat → List Term → Nat
  | start, [] => start
  | _, word :: others => lastStop word.stop others

/-- The place of the first quote after the terms of a phrase. -/
def closingQuote (text : List Char) (terms : List Term) (offset : Nat) : Nat :=
  let inside := lastStop (offset + 1) terms
  inside + ((text.drop inside).takeWhile (· != '"')).length

/-- The quotes of a phrase stand around its terms. The first term touches the opening quote, a
blank separates it from the next one, and only blanks stand before the closing quote. -/
structure PhrasePlaced (text : List Char) (terms : List Term) (offset : Nat) : Prop where
  opens : QuoteAt text offset
  words : ∀ word ∈ terms, word.Placed text
  first : ∀ word ∈ terms.head?, word.offset = offset + 1
  apart : terms.IsChain fun word next =>
    ∃ index, word.stop ≤ index ∧ index < next.offset ∧ BlankAt text index
  closes : QuoteAt text (closingQuote text terms offset)
  trailing : ∀ index, lastStop (offset + 1) terms ≤ index →
    index < closingQuote text terms offset → BlankAt text index
  empty : terms = [] → closingQuote text terms offset = offset + 1

/-- A bare term is followed by the end of the text, a blank or a quote. -/
def Body.Placed (text : List Char) : Body → Prop
  | .term word => word.Placed text ∧
      (word.stop = text.length ∨ BlankAt text word.stop ∨ QuoteAt text word.stop)
  | .phrase terms offset => PhrasePlaced text terms offset

def Body.stop (text : List Char) : Body → Nat
  | .term word => word.stop
  | .phrase terms offset => closingQuote text terms offset + 1

def Body.Covers (text : List Char) (index : Nat) : Body → Prop
  | .term word => word.Covers index
  | .phrase terms offset =>
    index = offset ∨ index = closingQuote text terms offset ∨ ∃ word ∈ terms, word.Covers index

/-- A sign stands right before its body. A term without a sign does not begin with one. -/
structure Node.Placed (text : List Char) (node : Node) : Prop where
  body : node.body.Placed text
  signed : ∀ sign ∈ node.sign,
    text[node.offset]? = some sign.toChar ∧ node.body.offset = node.offset + 1
  unsigned : node.sign = none → node.body.offset = node.offset ∧
    ∀ word, node.body = .term word → ∀ c ∈ word.text.toList.head?, c ≠ '+' ∧ c ≠ '-'

def Node.Covers (text : List Char) (index : Nat) (node : Node) : Prop :=
  node.sign.isSome ∧ index = node.offset ∨ node.body.Covers text index

/-- The nodes of a tree stand in a text one after the other, and all else is blank. -/
structure Tree.Depicts (text : List Char) (tree : Tree) : Prop where
  ordered : tree.IsChain fun node next =>
    node.offset < next.offset ∧ node.body.stop text ≤ next.offset
  placed : ∀ node ∈ tree, node.Placed text
  covered : ∀ index, index < text.length →
    (∃ node ∈ tree, node.Covers text index) ∨ BlankAt text index

/-! ## Cuts of a text at an offset -/

section

variable {text chars rest blanks : List Char} {offset first last : Nat} {c : Char}

theorem drop_add_length (cut : text.drop offset = chars ++ rest) :
    text.drop (offset + chars.length) = rest := by
  rw [← List.drop_drop, cut, List.drop_left]

theorem drop_succ_of_drop (cut : text.drop offset = c :: rest) : text.drop (offset + 1) = rest := by
  rw [← List.drop_drop, cut, List.drop_one, List.tail_cons]

theorem getElem?_of_drop (cut : text.drop offset = c :: rest) : text[offset]? = some c := by
  rw [← List.head?_drop, cut, List.head?_cons]

theorem drop_of_getElem? (here : text[offset]? = some c) :
    text.drop offset = c :: text.drop (offset + 1) := by
  obtain ⟨inside, rfl⟩ := List.getElem?_eq_some_iff.mp here
  exact List.drop_eq_getElem_cons inside

def BlankBetween (text : List Char) (first last : Nat) : Prop :=
  ∀ index, first ≤ index → index < last → BlankAt text index

theorem blankBetween_of_drop (all : Blanks blanks) (cut : text.drop first = blanks ++ rest) :
    BlankBetween text first (first + blanks.length) := by
  intro index lower upper
  have inside : index - first < blanks.length := by omega
  refine ⟨blanks[index - first], ?_, all _ (List.getElem_mem inside)⟩
  rw [Option.mem_def, ← List.getElem?_eq_getElem inside, ← List.getElem?_append_left inside, ← cut,
    List.getElem?_drop]
  congr 1
  omega

theorem exists_blanks (between : BlankBetween text first last) (le : first ≤ last) :
    ∃ blanks, Blanks blanks ∧ text.drop first = blanks ++ text.drop last ∧
      last = first + blanks.length := by
  induction last, le using Nat.le_induction with
  | base => exact ⟨[], .nil, rfl, rfl⟩
  | succ last le ih =>
    obtain ⟨blanks, all, cut, length⟩ := ih fun index lower upper =>
      between index lower (Nat.lt_succ_of_lt upper)
    obtain ⟨c, here, blank⟩ := between last le (Nat.lt_succ_self last)
    refine ⟨blanks ++ [c], ?_, ?_, ?_⟩
    · intro d inside
      rcases List.mem_append.mp inside with inside | inside
      · exact all d inside
      · cases List.mem_singleton.mp inside
        exact blank
    · rw [cut, drop_of_getElem? here, List.append_assoc, List.singleton_append]
    · rw [List.length_append, List.length_singleton, length, Nat.add_assoc]

theorem Term.placed_iff {word : Term} :
    word.Placed text ↔ Word word.text.toList ∧
      text.drop word.offset = word.text.toList ++ text.drop word.stop := by
  constructor
  · rintro ⟨nonempty, same, plain⟩
    refine ⟨⟨?_, fun c inside => isTermChar_iff.mpr (plain c inside)⟩, ?_⟩
    · simpa using nonempty
    · rw [Term.stop, ← List.drop_drop, ← same, List.take_append_drop]
  · rintro ⟨word, cut⟩
    refine ⟨?_, ?_, fun c inside => isTermChar_iff.mp (word.plain c inside)⟩
    · simpa using word.nonempty
    · rw [cut, ← String.length_toList, List.take_left]

end

theorem ordered_of_apart {text : List Char} {terms : List Term}
    (apart : terms.IsChain fun word next =>
      ∃ index, word.stop ≤ index ∧ index < next.offset ∧ BlankAt text index) :
    terms.IsChain fun word next => word.stop ≤ next.offset := by
  refine apart.imp ?_
  rintro word next ⟨index, lower, upper, -⟩
  omega

/-- In a chain of stretches each one ends before all later ones. -/
theorem stop_le_of_chain {α : Type} {start stop : α → Nat} {item : α} {others : List α}
    (ordered : (item :: others).IsChain fun one next => stop one ≤ start next)
    (proper : ∀ other ∈ others, start other ≤ stop other) :
    ∀ other ∈ others, stop item ≤ start other := by
  induction others generalizing item with
  | nil => simp
  | cons next others ih =>
    obtain ⟨here, ordered⟩ := List.isChain_cons_cons.mp ordered
    intro other inside
    rcases List.mem_cons.mp inside with rfl | inside
    · exact here
    · have later := ih ordered (fun x inside => proper x (by simp [inside])) other inside
      have := proper next (by simp)
      omega

end BoolQuery.Query
