import BoolQuery.Proofs.Query.Scan
import BoolQuery.Proofs.Query.Spelling

/-! Queries joined by blanks.

An offset enters the reader only by being added to, and the reader keeps nothing in mind from one
node to the next. After an accepted query and blanks, another query is therefore read as it is on
its own, from a later place: `read_joined`.
-/

set_option autoImplicit false

namespace BoolQuery.Query

open Text (isBlank)

/-! ## A later place -/

def Term.shift (distance : Nat) (word : Term) : Term :=
  { word with offset := word.offset + distance }

def Body.shift (distance : Nat) : Body → Body
  | .term word => .term (word.shift distance)
  | .phrase terms offset => .phrase (terms.map (Term.shift distance)) (offset + distance)

def Node.shift (distance : Nat) (node : Node) : Node :=
  ⟨node.sign, node.body.shift distance, node.offset + distance⟩

/-- The tree with all its offsets increased, those of terms within phrases included. -/
def Tree.shift (distance : Nat) (tree : Tree) : Tree := tree.map (Node.shift distance)

def Failure.shift (distance : Nat) (failure : Failure) : Failure :=
  { failure with offset := failure.offset + distance }

theorem PhraseSpells.shift {offset : Nat} {inner : List Char} {terms : List Term}
    (spelled : PhraseSpells offset inner terms) (distance : Nat) :
    PhraseSpells (offset + distance) inner (terms.map (Term.shift distance)) := by
  induction spelled with
  | empty => exact .empty
  | @word offset text blanks rest others word all apart spelled ih =>
    have place : offset + text.length + blanks.length + distance =
        offset + distance + text.length + blanks.length := by omega
    rw [place] at ih
    exact .word word all (fun more => apart (by simpa using more)) ih

theorem BodySpells.shift {offset : Nat} {text : List Char} {body : Body}
    (spelled : BodySpells offset text body) (distance : Nat) :
    BodySpells (offset + distance) text (body.shift distance) := by
  cases spelled with
  | term word => exact .term word
  | phrase inside =>
    have moved := inside.shift distance
    rw [Nat.add_right_comm] at moved
    exact .phrase moved

theorem NodeSpells.shift {offset : Nat} {text : List Char} {node : Node}
    (spelled : NodeSpells offset text node) (distance : Nat) :
    NodeSpells (offset + distance) text (node.shift distance) := by
  cases spelled with
  | signed sign body =>
    have moved := body.shift distance
    rw [Nat.add_right_comm] at moved
    exact .signed sign moved
  | unsigned body unsigned => exact .unsigned (body.shift distance) unsigned

theorem Body.endsBefore_shift {body : Body} {rest : List Char} (distance : Nat) :
    (body.shift distance).EndsBefore rest ↔ body.EndsBefore rest := by
  cases body <;> exact Iff.rfl

theorem TreeSpells.shift {offset : Nat} {input : List Char} {tree : Tree}
    (spelled : TreeSpells offset input tree) (distance : Nat) :
    TreeSpells (offset + distance) input (tree.shift distance) := by
  induction spelled with
  | empty => exact .empty
  | blank blank spelled ih =>
    rw [Nat.add_right_comm] at ih
    exact .blank blank ih
  | node node ends others ih =>
    rw [Nat.add_right_comm] at ih
    exact .node (node.shift distance) ((Body.endsBefore_shift distance).mpr ends) ih

theorem scan_shift (spot : Spot) (offset distance : Nat) (input : List Char) :
    scan spot (offset + distance) input = (scan spot offset input).map (Failure.shift distance) := by
  induction input generalizing spot offset with
  | nil =>
    rw [scan, scan, Option.map_map]
    rfl
  | cons c rest ih =>
    cases taken : spot.step c with
    | some next => simp only [scan, taken, Nat.add_right_comm offset distance 1, ih]
    | none =>
      simp only [scan, taken, Option.map_map]
      rfl

/-! ## After an accepted query -/

/-- A bare term at the end of a text is ended by a blank as well. -/
theorem Breaks.append {text blanks rest : List Char} (breaks : Breaks text) (all : Blanks blanks)
    (filled : blanks ≠ []) : Breaks (text ++ (blanks ++ rest)) := by
  cases text with
  | nil =>
    obtain ⟨c, blanks, rfl⟩ := List.exists_cons_of_ne_nil filled
    exact breaks_cons.mpr (Or.inl (all c (by simp)))
  | cons c text => exact breaks

theorem Body.EndsBefore.append {body : Body} {text blanks rest : List Char}
    (ends : body.EndsBefore text) (all : Blanks blanks) (filled : blanks ≠ []) :
    body.EndsBefore (text ++ (blanks ++ rest)) := by
  cases body with
  | term word => exact Breaks.append ends all filled
  | phrase => trivial

theorem TreeSpells.append {offset : Nat} {text blanks rest : List Char} {tree others : Tree}
    (spelled : TreeSpells offset text tree) (all : Blanks blanks) (filled : blanks ≠ [])
    (after : TreeSpells (offset + text.length + blanks.length) rest others) :
    TreeSpells offset (text ++ (blanks ++ rest)) (tree ++ others) := by
  induction spelled with
  | empty =>
    have whole := TreeSpells.blanks all after
    exact whole
  | @blank offset c more tree blank spelled ih =>
    rw [List.length_cons, Nat.add_comm more.length, ← Nat.add_assoc] at after
    exact .blank blank (ih after)
  | node node ends spelled ih =>
    rw [List.length_append, ← Nat.add_assoc] at after
    rw [List.append_assoc]
    exact .node node (ends.append all filled) (ih after)

namespace Spot

theorem run_gap_blanks {blanks : List Char} (all : Blanks blanks) : gap.run blanks = some .gap := by
  induction blanks with
  | nil => rfl
  | cons c blanks ih =>
    have next : gap.step c = some .gap := by simp [step, all c (by simp)]
    rw [run_cons, next, Option.bind_some]
    exact ih fun d inside => all d (by simp [inside])

/-- Where a query may end, blanks lead to a gap. -/
theorem run_blanks {spot : Spot} {blanks : List Char} (complete : spot.missing = none)
    (all : Blanks blanks) (filled : blanks ≠ []) : spot.run blanks = some .gap := by
  obtain ⟨c, blanks, rfl⟩ := List.exists_cons_of_ne_nil filled
  have first : spot.step c = some .gap := by
    have blank := all c (by simp)
    cases spot <;> cases complete <;> simp [step, blank]
  rw [run_cons, first, Option.bind_some]
  exact run_gap_blanks fun d inside => all d (by simp [inside])

end Spot

theorem scan_joined {text blanks : List Char} {last : Spot} (fits : Spot.gap.run text = some last)
    (complete : last.missing = none) (all : Blanks blanks) (filled : blanks ≠ [])
    (rest : List Char) :
    scan .gap 0 (text ++ (blanks ++ rest)) =
      (scan .gap 0 rest).map (Failure.shift (text.length + blanks.length)) := by
  rw [scan_append 0 text _ fits, scan_append _ blanks rest (Spot.run_blanks complete all filled),
    Nat.add_assoc, scan_shift]

/-- An accepted query, blanks and any query, written one after the other, are read as the two
queries are on their own. The nodes of the second one, or its failure, stand at a later place. -/
theorem read_joined (first blanks second : String) (tree : Tree)
    (read : Tree.read first = .ok tree) (filled : blanks ≠ "") (all : Blanks blanks.toList) :
    (∀ others, Tree.read second = .ok others → Tree.read (first ++ blanks ++ second) =
      .ok (tree ++ others.shift (first.length + blanks.length))) ∧
    (∀ failure, Tree.read second = .error failure → Tree.read (first ++ blanks ++ second) =
      .error (failure.shift (first.length + blanks.length))) := by
  have text : (first ++ blanks ++ second).toList =
      first.toList ++ (blanks.toList ++ second.toList) := by simp
  have filled : blanks.toList ≠ [] := by simpa using filled
  constructor
  · intro others reread
    have after := (spells_of_readNodes reread).shift (first.length + blanks.length)
    rw [← Nat.add_assoc] at after
    have joined := (spells_of_readNodes read).append all filled after
    rw [← text] at joined
    exact readNodes_of_spells joined
  · intro failure rejected
    obtain ⟨last, fits, complete⟩ := accepted_iff.mp ⟨tree, read⟩
    rw [read_eq_error_iff] at rejected ⊢
    rw [text, scan_joined fits complete all filled, rejected]
    rfl

theorem glued_nodes_read_joined :
    Tree.read "+a\"b  c\" \t-\"d e\"f" = .ok
      [⟨some .plus, .term ⟨"a", 1⟩, 0⟩, ⟨none, .phrase [⟨"b", 3⟩, ⟨"c", 6⟩] 2, 2⟩,
        ⟨some .minus, .phrase [⟨"d", 12⟩, ⟨"e", 14⟩] 11, 10⟩, ⟨none, .term ⟨"f", 16⟩, 16⟩] ∧
    Tree.read "+a\"b  c\" \t-\"d e\"-" = .error ⟨17, .term⟩ := by
  have first : Tree.read "+a\"b  c\"" = .ok
      [⟨some .plus, .term ⟨"a", 1⟩, 0⟩, ⟨none, .phrase [⟨"b", 3⟩, ⟨"c", 6⟩] 2, 2⟩] := by
    decide +kernel
  have second : Tree.read "-\"d e\"f" = .ok
      [⟨some .minus, .phrase [⟨"d", 2⟩, ⟨"e", 4⟩] 1, 0⟩, ⟨none, .term ⟨"f", 6⟩, 6⟩] := by
    decide +kernel
  have unsigned : Tree.read "-\"d e\"-" = .error ⟨7, .term⟩ := read_eq_error_iff.mpr (by decide)
  have all : Blanks " \t".toList := by simp [Blanks, isBlank]
  exact ⟨(read_joined _ " \t" _ _ first (by decide) all).1 _ second,
    (read_joined _ " \t" _ _ first (by decide) all).2 _ unsigned⟩

end BoolQuery.Query
