import BoolQuery.Proofs.Query.Runs
import BoolQuery.Proofs.Query.Spelling
import BoolQuery.Query.Trace

/-! Writing clauses and documents back as queries.

Clauses that come from a query can be written down, and reading what is written gives them back:
`exists_read_written`. A document lists its groups one after the other, so nothing is discarded
when it is read again: `compile_queryText`.
-/

set_option autoImplicit false

namespace BoolQuery.Query

open Text (isBlank)

/-! ## The text of a document -/

def Operator.written : Operator → String
  | .should => ""
  | .must => "+"
  | .mustNot => "-"

def Leaf.written : Leaf → String
  | .term text => text
  | .phrase text => "\"" ++ text ++ "\""

def Clause.written (clause : Clause) : String := clause.operator.written ++ clause.leaf.written

def Document.group (document : Document) (operator : Operator) : List Clause :=
  (document.get operator).map (Clause.mk operator)

/-- The groups of a document in a given order, each of its leaves after the mark of its group. -/
def Document.queryText (document : Document) (order : List Operator) : String :=
  " ".intercalate ((order.flatMap document.group).map Clause.written)

/-! ## Clauses that can be written -/

inductive Leaf.Writable : Leaf → Prop where
  | term {text : String} : Word text.toList → Writable (.term text)
  | phrase {words : List String} : (∀ word ∈ words, Word word.toList) →
      Writable (.phrase (" ".intercalate words))

/-- A term that should match is not taken for a signed one. -/
structure Clause.Writable (clause : Clause) : Prop where
  leaf : clause.leaf.Writable
  unsigned : clause.operator = .should → ∀ text, clause.leaf = .term text →
    ∀ c ∈ text.toList.head?, Sign.ofChar? c = none

theorem PhraseSpells.words {offset : Nat} {inner : List Char} {terms : List Term}
    (spelled : PhraseSpells offset inner terms) : ∀ word ∈ terms, Word word.text.toList := by
  induction spelled with
  | empty => simp
  | word word all apart spelled ih =>
    intro other member
    rcases List.mem_cons.mp member with rfl | member
    · rwa [String.toList_ofList]
    · exact ih other member

theorem BodySpells.writable {offset : Nat} {text : List Char} {body : Body}
    (spelled : BodySpells offset text body) : body.leaf.Writable := by
  cases spelled with
  | term word => exact .term (by rwa [String.toList_ofList])
  | phrase inside =>
    apply Leaf.Writable.phrase
    intro word member
    obtain ⟨term, found, rfl⟩ := List.mem_map.mp member
    exact inside.words term found

theorem NodeSpells.writable {offset : Nat} {text : List Char} {node : Node}
    (spelled : NodeSpells offset text node) : node.clause.Writable := by
  cases spelled with
  | signed sign body =>
    refine ⟨body.writable, ?_⟩
    intro should
    cases sign <;> cases should
  | unsigned body unsigned =>
    refine ⟨body.writable, ?_⟩
    intro _ text same c head
    cases body with
    | term word =>
      cases same
      rw [String.toList_ofList] at head
      exact unsigned c head
    | phrase => cases same

theorem TreeSpells.writable {offset : Nat} {input : List Char} {tree : Tree}
    (spelled : TreeSpells offset input tree) : ∀ clause ∈ tree.clauses, clause.Writable := by
  induction spelled with
  | empty => simp [Tree.clauses]
  | blank blank spelled ih => exact ih
  | node node ends others ih =>
    intro clause member
    rcases List.mem_cons.mp member with rfl | member
    · exact node.writable
    · exact ih clause member

/-! ## Reading what is written -/

theorem exists_phraseSpells (offset : Nat) (words : List String)
    (plain : ∀ word ∈ words, Word word.toList) :
    ∃ terms, PhraseSpells offset (" ".intercalate words).toList terms ∧
      terms.map Term.text = words := by
  induction words generalizing offset with
  | nil => exact ⟨[], .empty, rfl⟩
  | cons word words ih =>
    have first := plain word (by simp)
    cases words with
    | nil =>
      refine ⟨[⟨word, offset⟩], ?_, rfl⟩
      have whole : PhraseSpells offset _ _ := .word first .nil (by simp) .empty
      simpa using whole
    | cons next words =>
      obtain ⟨terms, spelled, same⟩ := ih (offset + word.toList.length + [' '].length)
        fun other member => plain other (by simp [member])
      have blank : Blanks [' '] := by simp [Blanks, isBlank]
      have whole := PhraseSpells.word first blank (by simp) spelled
      refine ⟨⟨word, offset⟩ :: terms, ?_, ?_⟩
      · simpa using whole
      · rw [List.map_cons, same]

theorem Leaf.Writable.spells {leaf : Leaf} (writable : leaf.Writable) (offset : Nat) :
    ∃ body, BodySpells offset leaf.written.toList body ∧ body.leaf = leaf := by
  cases writable with
  | @term text word =>
    refine ⟨_, .term word, ?_⟩
    rw [String.ofList_toList]
    rfl
  | @phrase words plain =>
    obtain ⟨terms, spelled, same⟩ := exists_phraseSpells (offset + 1) words plain
    refine ⟨.phrase terms offset, ?_, ?_⟩
    · have whole := BodySpells.phrase spelled
      simpa [Leaf.written] using whole
    · rw [Body.leaf, same]

theorem Clause.Writable.spells {clause : Clause} (writable : clause.Writable) (offset : Nat) :
    ∃ node, NodeSpells offset clause.written.toList node ∧ node.clause = clause := by
  obtain ⟨operator, leaf⟩ := clause
  cases operator with
  | should =>
    obtain ⟨body, spelled, same⟩ := writable.leaf.spells offset
    refine ⟨⟨none, body, offset⟩, ?_, by rw [Node.clause, same]; rfl⟩
    have unmarked : (Clause.mk .should leaf).written = leaf.written := String.empty_append
    rw [unmarked]
    refine .unsigned spelled ?_
    intro c head
    cases leaf with
    | term text => exact writable.unsigned rfl text rfl c head
    | phrase text =>
      simp [Leaf.written] at head
      cases head
      rfl
  | must =>
    obtain ⟨body, spelled, same⟩ := writable.leaf.spells (offset + 1)
    refine ⟨⟨some .plus, body, offset⟩, ?_, by rw [Node.clause, same]; rfl⟩
    have whole := NodeSpells.signed .plus spelled
    simpa [Clause.written, Operator.written, Sign.toChar] using whole
  | mustNot =>
    obtain ⟨body, spelled, same⟩ := writable.leaf.spells (offset + 1)
    refine ⟨⟨some .minus, body, offset⟩, ?_, by rw [Node.clause, same]; rfl⟩
    have whole := NodeSpells.signed .minus spelled
    simpa [Clause.written, Operator.written, Sign.toChar] using whole

/-- Clauses that can be written are read from their texts, joined by single spaces. -/
theorem exists_treeSpells (offset : Nat) (clauses : List Clause)
    (writable : ∀ clause ∈ clauses, clause.Writable) :
    ∃ tree : Tree,
      TreeSpells offset (" ".intercalate (clauses.map Clause.written)).toList tree ∧
      tree.clauses = clauses := by
  induction clauses generalizing offset with
  | nil => exact ⟨[], .empty, rfl⟩
  | cons clause clauses ih =>
    obtain ⟨node, spelled, same⟩ := (writable clause (by simp)).spells offset
    cases clauses with
    | nil =>
      refine ⟨[node], ?_, by rw [Tree.clauses, List.map_singleton, same]⟩
      have ends : node.body.EndsBefore [] := by
        cases node.body with
        | term word => simp [Body.EndsBefore, Breaks]
        | phrase => trivial
      have whole := TreeSpells.node spelled ends .empty
      simpa using whole
    | cons next clauses =>
      obtain ⟨tree, rest, others⟩ := ih (offset + clause.written.toList.length + 1)
        fun other member => writable other (by simp [member])
      refine ⟨node :: tree, ?_, ?_⟩
      · -- The space that joins the texts ends a bare term.
        have ends : node.body.EndsBefore
            (' ' :: (" ".intercalate ((next :: clauses).map Clause.written)).toList) := by
          cases node.body with
          | term word => exact breaks_cons.mpr (Or.inl rfl)
          | phrase => trivial
        have whole := TreeSpells.node spelled ends (.blank rfl rest)
        simpa using whole
      · rw [Tree.clauses, List.map_cons, same, ← others]
        rfl

theorem exists_read_written (clauses : List Clause)
    (writable : ∀ clause ∈ clauses, clause.Writable) :
    ∃ tree, Tree.read (" ".intercalate (clauses.map Clause.written)) = .ok tree ∧
      tree.clauses = clauses := by
  obtain ⟨tree, spelled, same⟩ := exists_treeSpells 0 clauses writable
  exact ⟨tree, readNodes_of_spells spelled, same⟩

/-! ## Documents -/

theorem compile_eq_ok {query : String} {document : Document}
    (compiled : compile query = .ok document) :
    ∃ tree, Tree.read query = .ok tree ∧ tree.document = document := map_eq_ok compiled

theorem Document.mem_operators {document : Document} {operator : Operator} :
    operator ∈ document.operators ↔ document.get operator ≠ [] := by
  unfold Document.operators
  cases operator <;> simp [Operator.all]

theorem Document.nodup_operators (document : Document) : document.operators.Nodup := by
  apply List.Nodup.filter
  decide

theorem Tree.mem_clauses_of_mem_group {tree : Tree} {operator : Operator} {clause : Clause}
    (member : clause ∈ tree.document.group operator) : clause ∈ tree.clauses := by
  obtain ⟨leaf, found, rfl⟩ := List.mem_map.mp member
  rw [Tree.document, Document.ofBuckets, Buckets.get_map] at found
  obtain ⟨source, gathered, rfl⟩ := List.mem_map.mp found
  obtain ⟨known, rfl⟩ := Buckets.mem_of_mem_get gathered
  exact known

/-- The groups of a document, one after the other, make up the same document. -/
theorem Document.ofClauses_groups (document : Document) {order : List Operator}
    (arranged : order.Perm document.operators) :
    Document.ofBuckets (.ofClauses (order.flatMap document.group)) = document := by
  have distinct : order.Nodup := arranged.nodup_iff.mpr document.nodup_operators
  have known : ∀ operator, operator ∈ order ↔ document.get operator ≠ [] := fun operator => by
    rw [arranged.mem_iff, Document.mem_operators]
  apply Buckets.ext_get
  intro operator
  rw [Document.ofBuckets, Buckets.get_map, Buckets.get_ofClauses_flatMap distinct]
  · split
    next member =>
      rw [Document.group, List.map_map]
      exact List.map_id _
    next absent =>
      rw [known, ne_eq, not_not] at absent
      rw [absent, List.map_nil]
  · intro other member
    rw [Document.group, ne_eq, List.map_eq_nil_iff]
    exact (known other).mp member
  · intro other clause member
    obtain ⟨leaf, -, rfl⟩ := List.mem_map.mp member
    rfl

/-- The text of a document, with its groups in any order, is a query for the same document. -/
theorem compile_queryText (query : String) (document : Document)
    (compiled : compile query = .ok document) (order : List Operator)
    (arranged : order.Perm document.operators) :
    compile (document.queryText order) = .ok document := by
  obtain ⟨tree, read, rfl⟩ := compile_eq_ok compiled
  -- All that is written was read before, so it can be read again.
  have writable : ∀ clause ∈ order.flatMap tree.document.group, clause.Writable := by
    intro clause member
    obtain ⟨operator, -, inside⟩ := List.mem_flatMap.mp member
    exact (spells_of_readNodes read).writable clause (tree.mem_clauses_of_mem_group inside)
  obtain ⟨again, reread, same⟩ := exists_read_written _ writable
  have text : Tree.read (tree.document.queryText order) = .ok again := reread
  rw [compile, text]
  refine congrArg Except.ok ?_
  rw [Tree.document, same]
  exact tree.document.ofClauses_groups arranged

theorem discarded_runs_compile_queryText :
    ∃ document : Document,
      compile "a +b \"c  d\" -+e -\"\" +f" = .ok document ∧
      [Operator.mustNot, .should, .must].Perm document.operators ∧
      document.queryText [.mustNot, .should, .must] = "-+e -\"\" \"c d\" +f" ∧
      compile (document.queryText [.mustNot, .should, .must]) = .ok document := by
  have compiled : compile "a +b \"c  d\" -+e -\"\" +f" =
      .ok ⟨[.phrase "c d"], [.term "f"], [.term "+e", .phrase ""]⟩ := by decide +kernel
  have arranged : [Operator.mustNot, .should, .must].Perm
      (Document.operators ⟨[.phrase "c d"], [.term "f"], [.term "+e", .phrase ""]⟩) := by decide
  exact ⟨_, compiled, arranged, by decide, compile_queryText _ _ compiled _ arranged⟩

end BoolQuery.Query
