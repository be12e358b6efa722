import BoolQuery.Proofs.Query.LastRun
import BoolQuery.Proofs.Query.Printing
import BoolQuery.Query.Trace

/-! What the trace of a query accounts for.

While clauses are gathered, those in the buckets and those that were discarded are all that came by:
`Gathering.total_foldl_add`. Some are discarded exactly if an operator comes back after another one,
so the trace of a query tells what became of each of its clauses: `trace_accounts`.
-/

set_option autoImplicit false

namespace BoolQuery.Query

/-! ## Nothing is lost in the gathering -/

theorem Buckets.size_set {α : Type} (buckets : Buckets α) (operator : Operator) (items : List α) :
    (buckets.set operator items).size + (buckets.get operator).length =
      buckets.size + items.length := by
  cases operator <;> simp only [size, set, get] <;> omega

namespace Gathering

variable {α : Type} (operatorOf : α → Option Operator)

/-- The items that came by so far. -/
def total (gathering : Gathering α) : Nat := gathering.discarded + gathering.buckets.size

/-- What a run pushes out of its bucket is counted. -/
theorem total_add (gathering : Gathering α) {run : List α}
    (named : (runOperator operatorOf run).isSome) :
    (gathering.add operatorOf run).total = gathering.total + run.length := by
  obtain ⟨operator, known⟩ := Option.isSome_iff_exists.mp named
  rw [runOperator] at known
  have sizes := gathering.buckets.size_set operator run
  simp only [add, known, total]
  omega

theorem total_foldl_add (gathering : Gathering α) (rows : List (List α))
    (named : ∀ run ∈ rows, (runOperator operatorOf run).isSome) :
    (rows.foldl (add operatorOf) gathering).total = gathering.total + rows.flatten.length := by
  induction rows generalizing gathering with
  | nil => rfl
  | cons run rows ih =>
    rw [List.foldl_cons, ih _ fun other member => named other (by simp [member]),
      gathering.total_add operatorOf (named run (by simp)), List.flatten_cons, List.length_append,
      Nat.add_assoc]

theorem total_ofClauses (clauses : List Clause) : (ofClauses clauses).total = clauses.length := by
  have named : ∀ run ∈ Clause.runs clauses, (Clause.runOperator run).isSome := by
    intro run member
    obtain ⟨clause, more, rfl⟩ :=
      List.exists_cons_of_ne_nil (List.ne_nil_of_mem_splitBy member)
    rfl
  have whole := total_foldl_add (fun clause : Clause => some clause.operator) ⟨{}, 0⟩ _ named
  rw [Clause.runs, runs, List.flatten_splitBy] at whole
  rw [ofClauses, ofItems, whole]
  exact Nat.zero_add _

end Gathering

/-! ## Operators that come back -/

/-- An operator forms several runs: a clause of another operator parts two of its clauses. -/
def Returns (operator : Operator) (clauses : List Clause) : Prop :=
  ∃ first between last : Clause, [first, between, last].Sublist clauses ∧
    first.operator = operator ∧ between.operator ≠ operator ∧ last.operator = operator

/-- How many clauses have an operator. -/
def occurrences (operator : Operator) (clauses : List Clause) : Nat :=
  clauses.countP fun clause => clause.operator = operator

theorem length_eq_occurrences (clauses : List Clause) :
    clauses.length = occurrences .should clauses + occurrences .must clauses +
      occurrences .mustNot clauses := by
  induction clauses with
  | nil => rfl
  | cons clause clauses ih =>
    simp only [occurrences, List.countP_cons, List.length_cons] at ih ⊢
    cases clause.operator <;> simp <;> omega

theorem sublist_of_append {α : Type} {item : α} {items front rest : List α}
    (inside : (item :: items).Sublist (front ++ rest)) (outside : item ∉ front) :
    (item :: items).Sublist rest := by
  induction front with
  | nil => exact inside
  | cons first front ih =>
    rw [List.mem_cons, not_or] at outside
    exact ih (inside.of_cons_of_ne outside.1) outside.2

section

variable {operator : Operator} {clauses block before after : List Clause}

/-- An operator comes back exactly if it stands somewhere before its last run. -/
theorem returns_append_iff (filled : block ≠ [])
    (uniform : ∀ clause ∈ block, clause.operator = operator)
    (absent : ∀ clause ∈ after, clause.operator ≠ operator)
    (stops : ∀ clause ∈ before.getLast?, clause.operator ≠ operator) :
    Returns operator (before ++ (block ++ after)) ↔
      ∃ clause ∈ before, clause.operator = operator := by
  constructor
  · rintro ⟨first, between, last, inside, same, differs, same'⟩
    refine Classical.byContradiction fun none => ?_
    -- The first clause is not before the run, the next one not in it, so the last comes too late.
    have start := sublist_of_append inside fun member => none ⟨first, member, same⟩
    have gap : [between, last].Sublist (block ++ after) := (List.sublist_cons_self _ _).trans start
    have rest := sublist_of_append gap fun member => differs (uniform between member)
    exact absent last (rest.subset (by simp)) same'
  · rintro ⟨first, member, same⟩
    obtain ⟨last, block, rfl⟩ := List.exists_cons_of_ne_nil filled
    cases final : before.getLast? with
    | none =>
      rw [List.getLast?_eq_none_iff.mp final] at member
      cases member
    | some between =>
      have differs := stops between final
      refine ⟨first, between, last, ?_, same, differs, uniform last (by simp)⟩
      have cut := List.dropLast_append_getLast? between final
      have early : first ∈ before.dropLast := by
        rw [← cut, List.mem_append, List.mem_singleton] at member
        refine member.resolve_right ?_
        rintro rfl
        exact differs same
      have front : [first, between].Sublist before := by
        rw [← cut]
        exact (List.singleton_sublist.mpr early).append (List.Sublist.refl [between])
      exact front.append (List.singleton_sublist.mpr (by simp))

/-- The last run holds all clauses of its operator, unless the operator comes back. -/
theorem LastRun.length_lt_iff (last : LastRun operator clauses block) :
    block.length ≤ occurrences operator clauses ∧
      (block.length < occurrences operator clauses ↔ Returns operator clauses) := by
  cases last with
  | absent absent =>
    have none : occurrences operator clauses = 0 := by
      simpa [occurrences, List.countP_eq_zero] using absent
    have never : ¬ Returns operator clauses := by
      rintro ⟨first, between, last, inside, same, -⟩
      exact absent first (inside.subset (by simp)) same
    rw [none]
    exact ⟨Nat.zero_le _, by simpa using never⟩
  | @block before _ after filled uniform absent stops =>
    have all : occurrences operator block = block.length := by
      simpa [occurrences, List.countP_eq_length] using uniform
    have none : occurrences operator after = 0 := by
      simpa [occurrences, List.countP_eq_zero] using absent
    have sum : occurrences operator (before ++ (block ++ after)) = occurrences operator before +
        (occurrences operator block + occurrences operator after) := by
      simp only [occurrences, List.countP_append]
    have early : 0 < occurrences operator before ↔
        ∃ clause ∈ before, clause.operator = operator := by
      simp [occurrences, List.countP_pos_iff]
    rw [returns_append_iff filled uniform absent stops, ← early, sum, all, none]
    omega

end

/-- Clauses are discarded exactly if an operator comes back. -/
theorem discarded_ne_zero_iff (clauses : List Clause) :
    (Gathering.ofClauses clauses).discarded ≠ 0 ↔ ∃ operator, Returns operator clauses := by
  have total := Gathering.total_ofClauses clauses
  rw [length_eq_occurrences clauses] at total
  have kept (operator : Operator) := (Buckets.lastRun_get_ofClauses operator clauses).length_lt_iff
  have should := kept .should
  have must := kept .must
  have mustNot := kept .mustNot
  have sizes : (Gathering.ofClauses clauses).total = (Gathering.ofClauses clauses).discarded +
      (((Buckets.ofClauses clauses).get .should).length +
        ((Buckets.ofClauses clauses).get .must).length +
        ((Buckets.ofClauses clauses).get .mustNot).length) := rfl
  constructor
  · intro some
    refine Classical.byContradiction fun never => ?_
    have none (operator : Operator) : ¬ Returns operator clauses :=
      fun returns => never ⟨operator, returns⟩
    have should := should.2.not.mpr (none .should)
    have must := must.2.not.mpr (none .must)
    have mustNot := mustNot.2.not.mpr (none .mustNot)
    omega
  · rintro ⟨operator, returns⟩
    have less := (kept operator).2.mpr returns
    cases operator <;> omega

/-! ## The records of a trace -/

/-- A record at the debug level, with a message and fields. -/
def Tells (record : Log.Record) (message : String) (fields : Members) : Prop :=
  record.level = 10 ∧ record.message = message ∧ record.arguments = [] ∧
    record.fields = fields.map fun field => (field.1, .data field.2)

theorem Document.size_eq (clauses : List Clause) :
    (Document.ofBuckets (.ofClauses clauses)).size = (Buckets.ofClauses clauses).size := by
  simp only [ofBuckets, Buckets.map, Buckets.size, List.length_map]

theorem Document.size_document (tree : Tree) :
    (Gathering.ofClauses tree.clauses).discarded + tree.document.size = tree.length := by
  have total := Gathering.total_ofClauses tree.clauses
  rw [Tree.clauses, List.length_map] at total
  rw [Tree.document, size_eq]
  exact total

theorem Document.names_sorted (document : Document) :
    (document.sortedOperators.map Operator.name).Pairwise (· < ·) := by
  have ordered : ([Operator.must, .mustNot, .should].map Operator.name).Pairwise (· < ·) := by
    decide
  exact ordered.sublist (List.filter_sublist.map _)

theorem Document.names_perm (document : Document) :
    (document.sortedOperators.map Operator.name).Perm (document.groups.map Prod.fst) := by
  have all : [Operator.must, .mustNot, .should].Perm Operator.all := by decide
  rw [names_groups]
  exact (all.filter _).map _

/-- A rejected query leaves one record, which tells of its failure. An accepted one ends with the
record of its compilation; before it stands one that tells of the clauses that the document does
not hold, if an operator comes back, and else the document holds all of them. -/
theorem trace_accounts (query : String) :
    (∀ failure, compile query = .error failure → ∃ record,
      (trace query).map Event.record = [record] ∧
      Tells record "Query failed to parse"
        [("offset", .int failure.offset), ("expected", .text failure.expected.name)]) ∧
    ∀ tree, Tree.read query = .ok tree → ∃ (document : Document) (groups : Members)
        (names : List String) (losses : List Log.Record) (last : Log.Record),
      compile query = .ok document ∧
      document.toData = .object [("query", .object [("bool", .object groups)])] ∧
      (trace query).map Event.record = losses ++ [last] ∧
      ((∃ operator, Returns operator tree.clauses) → ∃ loss, losses = [loss] ∧
        Tells loss "Discarded clauses from earlier runs"
          [("discarded", .int (tree.length - document.size)), ("clauses", .int tree.length)]) ∧
      ((¬ ∃ operator, Returns operator tree.clauses) →
        losses = [] ∧ document.size = tree.length) ∧
      Tells last "Compiled query"
        [("clauses", .int tree.length), ("groups", .list (names.map .text))] ∧
      names.Pairwise (· < ·) ∧ names.Perm (groups.map Prod.fst) := by
  constructor
  · intro failure rejected
    cases read : Tree.read query with
    | ok tree =>
      rw [compile, read] at rejected
      cases rejected
    | error cause =>
      rw [compile, read] at rejected
      cases rejected
      rw [trace, read]
      exact ⟨_, rfl, rfl, rfl, rfl, rfl⟩
  · intro tree read
    have sum := Document.size_document tree
    have counted : tree.clauses.length = tree.length := List.length_map _
    have lost := discarded_ne_zero_iff tree.clauses
    refine ⟨tree.document, tree.document.groups, tree.document.sortedOperators.map Operator.name,
      (if (Gathering.ofClauses tree.clauses).discarded = 0 then []
        else [Event.record (.discarded (Gathering.ofClauses tree.clauses).discarded tree.length)]),
      Event.record (.compiled tree.length tree.document.sortedOperators), ?_,
      tree.document.toData_eq, ?_, ?_, ?_, ?_, tree.document.names_sorted,
      tree.document.names_perm⟩
    · rw [compile, read]
      rfl
    · rw [trace, read]
      simp only [Tree.events, counted]
      split <;> rfl
    · intro returns
      rw [if_neg (lost.mpr returns)]
      refine ⟨_, rfl, rfl, rfl, rfl, ?_⟩
      have same : ((Gathering.ofClauses tree.clauses).discarded : Int) =
          tree.length - tree.document.size := by omega
      simp only [Event.record, countField, same]
      rfl
    · intro never
      have none := not_not.mp (lost.not.mpr never)
      rw [if_pos none]
      exact ⟨rfl, by omega⟩
    · refine ⟨rfl, rfl, rfl, ?_⟩
      simp only [Event.record, countField, List.map_map]
      rfl

/-- Of five clauses two are pushed out, one of each of two operators. A phrase that is not closed is
told with the place where its quote is missing. -/
theorem returning_operators_trace_accounts :
    (∃ tree loss last, Tree.read "a +b c +d -e" = .ok tree ∧
      (trace "a +b c +d -e").map Event.record = [loss, last] ∧
      Tells loss "Discarded clauses from earlier runs"
        [("discarded", .int 2), ("clauses", .int 5)]) ∧
    ∃ record, (trace "a \"b").map Event.record = [record] ∧
      Tells record "Query failed to parse"
        [("offset", .int 4), ("expected", .text "phrase-close")] := by
  constructor
  · have read : Tree.read "a +b c +d -e" = .ok
        [⟨none, .term ⟨"a", 0⟩, 0⟩, ⟨some .plus, .term ⟨"b", 3⟩, 2⟩, ⟨none, .term ⟨"c", 5⟩, 5⟩,
          ⟨some .plus, .term ⟨"d", 8⟩, 7⟩, ⟨some .minus, .term ⟨"e", 11⟩, 10⟩] := by
      decide +kernel
    have compiled : compile "a +b c +d -e" = .ok ⟨[.term "c"], [.term "d"], [.term "e"]⟩ := by
      decide +kernel
    obtain ⟨document, groups, names, losses, last, same, -, told, discards, -⟩ :=
      (trace_accounts "a +b c +d -e").2 _ read
    cases compiled.symm.trans same
    obtain ⟨loss, rfl, tells⟩ := discards
      ⟨.should, ⟨.should, .term "a"⟩, ⟨.must, .term "b"⟩, ⟨.should, .term "c"⟩, by decide⟩
    exact ⟨_, loss, last, read, told, tells⟩
  · have rejected : compile "a \"b" = .error ⟨4, .phraseClose⟩ := by decide +kernel
    exact (trace_accounts "a \"b").1 _ rejected

end BoolQuery.Query
