import BoolQuery.Proofs.Number.Decimal
import BoolQuery.Proofs.Query.Drafting
import BoolQuery.Proofs.Text.Quoted

/-! Outlines, and the trees that they are outlines of.

The fifth character of a line tells whether it is the line of a node, a phrase, a term or a term
within a phrase, so that the lines of a body end where the next node begins. What else is in a line
can be read back from it. A tree is therefore determined by its outline, which has a line for each
of its parts: `outline_determines`.
-/

set_option autoImplicit false

namespace BoolQuery.Query

open Outline
open Text (pieces)

/-! ## Lines -/

namespace Outline

/-- The character that tells the sort of a line. -/
def mark (line : String) : Option Char := line.toList[4]?

theorem mark_nodeLine (offset : String) (sign : Option String) :
    mark (nodeLine offset sign) = some 'a' := by
  simp [mark, nodeLine]

theorem mark_phraseLine (offset : String) : mark (phraseLine offset) = some 'p' := by
  simp [mark, phraseLine]

theorem mark_termLine (offset text : String) : mark (termLine offset text) = some 't' := by
  simp [mark, termLine, termText]

theorem mark_innerTermLine (offset text : String) :
    mark (innerTermLine offset text) = some ' ' := by
  simp [mark, innerTermLine]

theorem termText_inj {first second : Nat} {text other : String}
    (same : termText (toString first) text = termText (toString second) other) :
    first = second ∧ text = other := by
  have chars := congrArg String.toList same
  simp only [termText, String.toList_append, toList_toString_nat, List.append_assoc,
    List.append_cancel_left_eq] at chars
  obtain ⟨offset, quoted⟩ := toDigits_append_cons_inj (c := ' ') rfl chars
  exact ⟨offset, Text.quoted_injective (String.toList_inj.mp quoted)⟩

/-- The sign of a node as it stands in its line. -/
def signText (sign : Option Sign) : Option String := sign.map fun sign => sign.toChar.toString

theorem nodeLine_inj {first second : Nat} {sign other : Option Sign}
    (same : nodeLine (toString first) (signText sign) =
      nodeLine (toString second) (signText other)) :
    first = second ∧ sign = other := by
  have chars := congrArg String.toList same
  have shape : " operator=".toList = ' ' :: "operator=".toList := rfl
  simp only [nodeLine, String.toList_append, toList_toString_nat, List.append_assoc,
    List.append_cancel_left_eq, shape, List.cons_append] at chars
  obtain ⟨offset, signs⟩ := toDigits_append_cons_inj (c := ' ') rfl chars
  rw [List.append_cancel_left_eq] at signs
  refine ⟨offset, ?_⟩
  revert signs
  cases sign with
  | none => cases other with
    | none => simp
    | some other => cases other <;> decide
  | some sign => cases other with
    | none => cases sign <;> decide
    | some other => cases sign <;> cases other <;> decide

theorem phraseLine_inj {first second : Nat}
    (same : phraseLine (toString first) = phraseLine (toString second)) : first = second := by
  have chars := congrArg String.toList same
  simp only [phraseLine, String.toList_append, toList_toString_nat,
    List.append_cancel_left_eq] at chars
  exact toDigits_injective chars

end Outline

/-! ## Trees -/

/-- The line of a term within a phrase. -/
def Term.innerLine (word : Term) : String := innerTermLine (toString word.offset) word.text

theorem Term.innerLine_injective : Function.Injective Term.innerLine := by
  rintro ⟨text, offset⟩ ⟨other, offset'⟩ same
  have terms := congrArg String.toList same
  simp only [innerLine, innerTermLine, String.toList_append, List.append_cancel_left_eq] at terms
  obtain ⟨rfl, rfl⟩ := termText_inj (String.toList_inj.mp terms)
  rfl

/-- Lines that begin a node, if there are any. -/
def BeginsNode (lines : List String) : Prop := ∀ line ∈ lines.head?, mark line = some 'a'

theorem beginsNode_flatMap (tree : Tree) : BeginsNode (tree.flatMap Node.outlineLines) := by
  cases tree with
  | nil => exact nofun
  | cons node tree =>
    rintro line here
    obtain rfl := Option.some.inj here
    exact mark_nodeLine _ _

/-- The terms of a phrase end where their lines do. -/
theorem innerLines_append_inj {terms others : List Term} {rest rest' : List String}
    (next : BeginsNode rest) (next' : BeginsNode rest')
    (same : terms.map Term.innerLine ++ rest = others.map Term.innerLine ++ rest') :
    terms = others ∧ rest = rest' := by
  have inner (word : Term) : mark word.innerLine ≠ some 'a' := by
    rw [Term.innerLine, mark_innerTermLine]
    decide
  induction terms generalizing others with
  | nil =>
    cases others with
    | nil => exact ⟨rfl, same⟩
    | cons other others =>
      refine absurd (next other.innerLine ?_) (inner other)
      rw [List.map_nil, List.nil_append] at same
      rw [same]
      rfl
  | cons word terms ih =>
    cases others with
    | nil =>
      refine absurd (next' word.innerLine ?_) (inner word)
      rw [List.map_nil, List.nil_append] at same
      rw [← same]
      rfl
    | cons other others =>
      simp only [List.map_cons, List.cons_append, List.cons.injEq] at same
      obtain ⟨rfl, rfl⟩ := ih same.2
      exact ⟨congrArg (· :: _) (Term.innerLine_injective same.1), rfl⟩

theorem Body.outlineLines_append_inj {body other : Body} {rest rest' : List String}
    (next : BeginsNode rest) (next' : BeginsNode rest')
    (same : body.outlineLines ++ rest = other.outlineLines ++ rest') :
    body = other ∧ rest = rest' := by
  cases body with
  | term word =>
    cases other with
    | term word' =>
      obtain ⟨text, offset⟩ := word
      obtain ⟨text', offset'⟩ := word'
      obtain ⟨line, rest⟩ := List.cons.inj same
      have terms := congrArg String.toList line
      simp only [termLine, String.toList_append, List.append_cancel_left_eq] at terms
      obtain ⟨rfl, rfl⟩ := termText_inj (String.toList_inj.mp terms)
      exact ⟨rfl, rest⟩
    | phrase terms offset =>
      have marks := congrArg mark (List.cons.inj same).1
      rw [mark_termLine, mark_phraseLine] at marks
      exact absurd marks (by decide)
  | phrase terms offset =>
    cases other with
    | term word =>
      have marks := congrArg mark (List.cons.inj same).1
      rw [mark_termLine, mark_phraseLine] at marks
      exact absurd marks (by decide)
    | phrase others offset' =>
      obtain ⟨line, inner⟩ := List.cons.inj same
      obtain ⟨rfl, rfl⟩ := innerLines_append_inj next next' inner
      exact ⟨congrArg (Body.phrase terms) (phraseLine_inj line), rfl⟩

theorem Tree.outlineLines_injective : Function.Injective Tree.outlineLines := by
  intro first second same
  have nodes := (List.cons.inj same).2
  clear same
  induction first generalizing second with
  | nil =>
    cases second with
    | nil => rfl
    | cons node second => cases nodes
  | cons node first ih =>
    cases second with
    | nil => cases nodes
    | cons other second =>
      obtain ⟨sign, body, offset⟩ := node
      obtain ⟨sign', body', offset'⟩ := other
      simp only [List.flatMap_cons, Node.outlineLines, List.cons_append, List.cons.injEq] at nodes
      obtain ⟨rfl, rfl⟩ := nodeLine_inj nodes.1
      obtain ⟨rfl, others⟩ :=
        Body.outlineLines_append_inj (beginsNode_flatMap first) (beginsNode_flatMap second) nodes.2
      rw [ih others]

/-! ## Text -/

theorem Outline.feed_not_mem_termText (offset : Nat) (text : String) :
    '\n' ∉ (termText (toString offset) text).toList := by
  have words : '\n' ∉ "term @".toList ∧ '\n' ∉ " ".toList := by decide
  simp only [termText, String.toList_append, List.mem_append, toList_toString_nat, words,
    feed_not_mem_toDigits, Text.feed_not_mem_quoted, or_false, not_false_eq_true]

theorem Body.feed_not_mem_outlineLines (body : Body) :
    ∀ line ∈ body.outlineLines, '\n' ∉ line.toList := by
  have words : '\n' ∉ "    phrase @".toList ∧ '\n' ∉ "    ".toList ∧ '\n' ∉ "      ".toList := by
    decide
  cases body with
  | term word =>
    rw [outlineLines, List.forall_mem_singleton]
    simp only [termLine, String.toList_append, List.mem_append, words, feed_not_mem_termText,
      or_false, not_false_eq_true]
  | phrase terms offset =>
    rw [outlineLines, List.forall_mem_cons, List.forall_mem_map]
    constructor
    · simp only [phraseLine, String.toList_append, List.mem_append, toList_toString_nat, words,
        feed_not_mem_toDigits, or_false, not_false_eq_true]
    · intro word member
      simp only [innerTermLine, String.toList_append, List.mem_append, words,
        feed_not_mem_termText, or_false, not_false_eq_true]

theorem Node.feed_not_mem_outlineLines (node : Node) :
    ∀ line ∈ node.outlineLines, '\n' ∉ line.toList := by
  obtain ⟨sign, body, offset⟩ := node
  have signs : '\n' ∉ ((signText sign).getD "(none)").toList := by
    cases sign with
    | none => decide
    | some sign => cases sign <;> decide
  have words : '\n' ∉ "  clause @".toList ∧ '\n' ∉ " operator=".toList := by decide
  rw [outlineLines, List.forall_mem_cons]
  refine ⟨?_, body.feed_not_mem_outlineLines⟩
  simp only [nodeLine, String.toList_append, List.mem_append, toList_toString_nat, words,
    feed_not_mem_toDigits, false_or, or_false]
  exact signs

theorem Tree.pieces_outline (tree : Tree) :
    pieces tree.outline.toList = tree.outlineLines.map String.toList := by
  rw [outline, outlineLines]
  apply Text.pieces_intercalate (List.cons_ne_nil _ _)
  rw [List.forall_mem_cons]
  refine ⟨by decide, ?_⟩
  intro line member
  obtain ⟨node, -, inside⟩ := List.mem_flatMap.mp member
  exact node.feed_not_mem_outlineLines line inside

theorem Tree.outline_injective : Function.Injective Tree.outline := by
  intro first second same
  have lines := congrArg (fun outline => pieces outline.toList) same
  simp only [pieces_outline] at lines
  exact outlineLines_injective (List.map_injective_iff.mpr (fun _ _ => String.toList_inj.mp) lines)

/-- The terms of a phrase; a term by itself is not within one. -/
def Body.innerTerms : Body → List Term
  | .term _ => []
  | .phrase terms _ => terms

theorem Tree.length_outlineLines (tree : Tree) :
    tree.outlineLines.length =
      1 + tree.length + tree.length + (tree.flatMap fun node => node.body.innerTerms).length := by
  have body (body : Body) : body.outlineLines.length = 1 + body.innerTerms.length := by
    cases body <;> simp [Body.outlineLines, Body.innerTerms, Nat.add_comm]
  rw [outlineLines, List.length_cons]
  induction tree with
  | nil => rfl
  | cons node tree ih =>
    simp only [List.flatMap_cons, List.length_append, Node.outlineLines, List.length_cons, body]
    omega

/-- The outline of a tree is that of no other, and the same whether the tree was read or put
together by hand. It has a line for the query, one for each node, one for each body and one for each
term within a phrase. -/
theorem outline_determines :
    Function.Injective Tree.outline ∧
    ∀ tree : Tree,
      Draft.outline (tree.map Node.draft) = .ok tree.outline ∧
      (pieces tree.outline.toList).length =
        1 + tree.length + (tree.map Node.body).length +
          (tree.flatMap fun node => node.body.innerTerms).length := by
  refine ⟨Tree.outline_injective, fun tree => ⟨Draft.outline_draft tree, ?_⟩⟩
  rw [tree.pieces_outline, List.length_map, tree.length_outlineLines, List.length_map]

end BoolQuery.Query
