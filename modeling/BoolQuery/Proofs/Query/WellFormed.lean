import BoolQuery.Proofs.Query.Drafting
import BoolQuery.Proofs.Query.LastRun
import BoolQuery.Proofs.Query.Printing

/-! The form of the documents that queries are compiled to.

`WellFormed` says what the groups of a document look like as data. The document of every query is
of this form, and the last clause of the query is always in it: `compile_wellFormed`.
-/

set_option autoImplicit false

namespace BoolQuery.Query

open Text (isBlank)

/-! ## Forms -/

/-- The data of a match of the searched field against a text. -/
def matchData (kind text : String) : Data :=
  .object [(kind, .object [("title", .object [("query", .text text)])])]

/-- The data of a leaf in the group of an operator: a term that could not be taken for anything
else, or words joined by single spaces. -/
inductive LeafForm (operator : Operator) : Data → Prop where
  | term {text : String} : text ≠ "" → (∀ c ∈ text.toList, isBlank c = false ∧ c ≠ '"') →
      (operator = .should → ∀ c ∈ text.toList.head?, c ≠ '+' ∧ c ≠ '-') →
      LeafForm operator (matchData "match" text)
  | phrase {words : List String} :
      (∀ word ∈ words, word ≠ "" ∧ ∀ c ∈ word.toList, isBlank c = false) →
      (∀ c ∈ (" ".intercalate words).toList, c ≠ '"') →
      LeafForm operator (matchData "match_phrase" (" ".intercalate words))

/-- The groups of a document: in order, none of them empty, and with nothing but leaves. -/
structure WellFormed (groups : Members) : Prop where
  ordered : (groups.map Prod.fst).Sublist ["should", "must", "must_not"]
  filled : ∀ entry ∈ groups, ∃ operator leaves, entry = (Operator.name operator, .list leaves) ∧
    leaves ≠ [] ∧ ∀ leaf ∈ leaves, LeafForm operator leaf

theorem unquoted_intercalate {words : List String}
    (plain : ∀ word ∈ words, ∀ c ∈ word.toList, c ≠ '"') :
    ∀ c ∈ (" ".intercalate words).toList, c ≠ '"' := by
  intro c inside
  rw [String.toList_intercalate] at inside
  induction words with
  | nil => cases inside
  | cons word words ih =>
    cases words with
    | nil =>
      rw [List.map_singleton, List.intercalate_singleton] at inside
      exact plain word (by simp) c inside
    | cons next words =>
      rw [List.map_cons, List.map_cons, List.intercalate_cons_cons, List.mem_append,
        List.mem_append] at inside
      rcases inside with (inside | space) | inside
      · exact plain word (by simp) c inside
      · rw [List.mem_singleton.mp space]
        decide
      · exact ih (fun other member => plain other (by simp [member])) inside

theorem Word.ne_empty {text : String} (word : Word text.toList) : text ≠ "" := by
  rintro rfl
  exact word.nonempty rfl

theorem Clause.Writable.leafForm {clause : Clause} (writable : clause.Writable) :
    LeafForm clause.operator clause.leaf.toData := by
  obtain ⟨operator, leaf⟩ := clause
  obtain ⟨form, unsigned⟩ := writable
  cases form with
  | @term text word =>
    refine LeafForm.term word.ne_empty ?_ ?_
    · exact fun c inside => isTermChar_iff.mp (word.plain c inside)
    · intro should c head
      exact Sign.ofChar?_eq_none.mp (unsigned should text rfl c head)
  | @phrase words plain =>
    refine LeafForm.phrase ?_ ?_
    · exact fun word member => ⟨(plain word member).ne_empty, (plain word member).visible⟩
    · refine unquoted_intercalate fun word member c inside => ?_
      exact (isTermChar_iff.mp ((plain word member).plain c inside)).2

theorem wellFormed_groups {tree : Tree} (writable : ∀ clause ∈ tree.clauses, clause.Writable) :
    WellFormed tree.document.groups where
  ordered := tree.document.names_sublist
  filled := by
    intro entry member
    obtain ⟨operator, present, rfl⟩ := List.mem_map.mp member
    refine ⟨operator, _, rfl, ?_, ?_⟩
    · rw [ne_eq, List.map_eq_nil_iff]
      exact Document.mem_operators.mp present
    · intro leaf inside
      obtain ⟨source, found, rfl⟩ := List.mem_map.mp inside
      have known : Clause.mk operator source ∈ tree.document.group operator :=
        List.mem_map_of_mem found
      exact (writable _ (tree.mem_clauses_of_mem_group known)).leafForm

/-! ## The last clause -/

theorem Buckets.getLast?_get_ofClauses {clauses : List Clause} {last : Clause}
    (final : last ∈ clauses.getLast?) :
    ((ofClauses clauses).get last.operator).getLast? = some last := by
  obtain ⟨before, cut, filled, -⟩ :=
    (lastRun_get_ofClauses last.operator clauses).exists_append ⟨last, final, rfl⟩
  rw [cut, List.getLast?_append_of_ne_nil _ filled] at final
  exact final

/-- No later run can take the place of the one that the last clause is in. -/
theorem Tree.last_in_groups {tree : Tree} {last : Node} (final : last ∈ tree.getLast?) :
    ∃ leaves, (last.clause.operator.name, .list leaves) ∈ tree.document.groups ∧
      leaves.getLast? = some last.clause.leaf.toData := by
  have final : last.clause ∈ tree.clauses.getLast? := by
    rw [Tree.clauses, List.getLast?_map, Option.mem_def.mp final]
    rfl
  have held : (tree.document.get last.clause.operator).getLast? = some last.clause.leaf := by
    rw [Tree.document, Document.ofBuckets, Buckets.get_map, List.getLast?_map,
      Buckets.getLast?_get_ofClauses final]
    rfl
  refine ⟨(tree.document.get last.clause.operator).map Leaf.toData, ?_, ?_⟩
  · refine List.mem_map_of_mem (Document.mem_operators.mpr ?_)
    intro empty
    rw [empty] at held
    cases held
  · rw [List.getLast?_map, held]
    rfl

theorem Tree.groups_eq_nil_iff (tree : Tree) : tree.document.groups = [] ↔ tree = [] := by
  constructor
  · intro bare
    rw [← List.getLast?_eq_none_iff, Option.eq_none_iff_forall_not_mem]
    intro last final
    obtain ⟨leaves, member, -⟩ := Tree.last_in_groups final
    rw [bare] at member
    cases member
  · rintro rfl
    rfl

theorem TreeSpells.nil_iff {offset : Nat} {input : List Char} :
    TreeSpells offset input [] ↔ Blanks input := by
  constructor
  · intro spelled
    generalize same : ([] : Tree) = tree at spelled
    induction spelled with
    | empty => exact .nil
    | blank blank spelled ih => exact List.forall_mem_cons.mpr ⟨blank, ih same⟩
    | node => cases same
  · intro all
    have whole : TreeSpells offset (input ++ []) [] := .blanks all .empty
    rwa [List.append_nil] at whole

/-- What a query is compiled to has the form of a document, and ends the group of its last clause
with that clause. Only blanks are compiled to no groups. -/
theorem compile_wellFormed (query : String) {tree : Tree} (read : Tree.read query = .ok tree) :
    ∃ document groups, compile query = .ok document ∧
      Draft.translate (tree.map Node.draft) = .ok document ∧
      document.toData = .object [("query", .object [("bool", .object groups)])] ∧
      WellFormed groups ∧
      (∀ last ∈ tree.getLast?, ∃ leaves,
        (last.clause.operator.name, .list leaves) ∈ groups ∧
        leaves.getLast? = some last.clause.leaf.toData) ∧
      (groups = [] ↔ ∀ c ∈ query.toList, isBlank c = true) := by
  have spelled : TreeSpells 0 query.toList tree := spells_of_readNodes read
  refine ⟨tree.document, tree.document.groups, ?_, Draft.translate_draft tree,
    tree.document.toData_eq, wellFormed_groups spelled.writable,
    fun last final => Tree.last_in_groups final, ?_⟩
  · rw [compile, read]
    rfl
  · rw [tree.groups_eq_nil_iff]
    constructor
    · rintro rfl
      exact TreeSpells.nil_iff.mp spelled
    · intro all
      have blank : readNodes 0 query.toList = .ok [] :=
        readNodes_of_spells (TreeSpells.nil_iff.mpr all)
      exact Except.ok.inj (read.symm.trans blank)

/-- Of three runs the first is lost, and the last clause is kept. -/
theorem returning_operator_compile_wellFormed :
    ∃ document groups, compile "a -\"b  c\" +d e" = .ok document ∧
      document.toData = .object [("query", .object [("bool", .object groups)])] ∧
      WellFormed groups ∧
      ∃ leaves, ("should", .list leaves) ∈ groups ∧
        leaves.getLast? = some (matchData "match" "e") := by
  have read : Tree.read "a -\"b  c\" +d e" = .ok
      [⟨none, .term ⟨"a", 0⟩, 0⟩, ⟨some .minus, .phrase [⟨"b", 4⟩, ⟨"c", 7⟩] 3, 2⟩,
        ⟨some .plus, .term ⟨"d", 11⟩, 10⟩, ⟨none, .term ⟨"e", 13⟩, 13⟩] := by decide +kernel
  obtain ⟨document, groups, compiled, -, data, formed, last, -⟩ := compile_wellFormed _ read
  exact ⟨document, groups, compiled, data, formed, last _ rfl⟩

end BoolQuery.Query
