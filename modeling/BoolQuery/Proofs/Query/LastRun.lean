import BoolQuery.Proofs.Query.Runs

/-! The last run of an operator.

`LastRun` says which clauses of a row make up the last run of an operator, without any gathering.
Every row has one, and it is what the bucket of the operator holds, so the buckets of two rows
tell that of both in sequence: `get_ofClauses_lastRun`.
-/

set_option autoImplicit false

namespace BoolQuery.Query

/-- The block of neighbours with an operator that ends where the operator occurs last, as far as
it reaches to the left; no clauses if the operator does not occur. -/
inductive LastRun (operator : Operator) : List Clause → List Clause → Prop where
  | absent {clauses : List Clause} : (∀ clause ∈ clauses, clause.operator ≠ operator) →
      LastRun operator clauses []
  | block {before block after : List Clause} : block ≠ [] →
      (∀ clause ∈ block, clause.operator = operator) →
      (∀ clause ∈ after, clause.operator ≠ operator) →
      (∀ clause ∈ before.getLast?, clause.operator ≠ operator) →
      LastRun operator (before ++ (block ++ after)) block

/-- The last run of an operator stands at the beginning of the row. -/
def BeginsWithLastRun (operator : Operator) (clauses : List Clause) : Prop :=
  ∃ block after, clauses = block ++ after ∧ block ≠ [] ∧
    (∀ clause ∈ block, clause.operator = operator) ∧ ∀ clause ∈ after, clause.operator ≠ operator

def EndsWith (operator : Operator) (clauses : List Clause) : Prop :=
  ∃ clause ∈ clauses.getLast?, clause.operator = operator

variable {operator : Operator} {clauses others block : List Clause}

namespace LastRun

theorem of_begins {after : List Clause} (filled : block ≠ [])
    (uniform : ∀ clause ∈ block, clause.operator = operator)
    (absent : ∀ clause ∈ after, clause.operator ≠ operator) :
    LastRun operator (block ++ after) block := by
  rw [← List.nil_append (block ++ after)]
  exact .block filled uniform absent (by simp)

theorem absent_of_nil (last : LastRun operator clauses []) :
    ∀ clause ∈ clauses, clause.operator ≠ operator := by
  cases last with
  | absent absent => exact absent
  | block filled => exact absurd rfl filled

/-- Clauses with other operators do not change the last run if they come later. -/
theorem append_absent (last : LastRun operator clauses block)
    (absent : ∀ clause ∈ others, clause.operator ≠ operator) :
    LastRun operator (clauses ++ others) block := by
  cases last with
  | absent none =>
    refine .absent fun clause member => ?_
    exact (List.mem_append.mp member).elim (none clause) (absent clause)
  | @block before _ after filled uniform none stops =>
    rw [List.append_assoc, List.append_assoc]
    refine .block filled uniform (fun clause member => ?_) stops
    exact (List.mem_append.mp member).elim (none clause) (absent clause)

/-- Clauses that come earlier do not change it unless the two rows meet within a run. -/
theorem append_apart (last : LastRun operator clauses block) (filled : block ≠ [])
    (apart : ¬ (BeginsWithLastRun operator clauses ∧ EndsWith operator others)) :
    LastRun operator (others ++ clauses) block := by
  cases last with
  | absent => exact absurd rfl filled
  | @block before _ after _ uniform absent stops =>
    rw [← List.append_assoc]
    refine .block filled uniform absent fun clause member same => ?_
    cases before with
    | nil =>
      rw [List.append_nil] at member
      exact apart ⟨⟨block, after, rfl, filled, uniform, absent⟩, clause, member, same⟩
    | cons first before =>
      rw [List.getLast?_append_of_ne_nil _ (by simp)] at member
      exact stops clause member same

/-- The last run of an operator that the row ends with reaches up to its end. -/
theorem exists_append (last : LastRun operator clauses block) (ends : EndsWith operator clauses) :
    ∃ before, clauses = before ++ block ∧ block ≠ [] ∧
      (∀ clause ∈ block, clause.operator = operator) ∧
      ∀ clause ∈ before.getLast?, clause.operator ≠ operator := by
  obtain ⟨final, member, same⟩ := ends
  cases last with
  | absent none => exact absurd same (none final (List.mem_of_mem_getLast? member))
  | @block before _ after filled uniform none stops =>
    have bare : after = [] := by
      by_contra more
      rw [← List.append_assoc, List.getLast?_append_of_ne_nil _ more] at member
      exact none final (List.mem_of_mem_getLast? member) same
    rw [bare, List.append_nil]
    exact ⟨before, rfl, filled, uniform, stops⟩

/-- Two rows that meet within a run have it from both sides. -/
theorem append_meeting {after : List Clause} (last : LastRun operator others block)
    (ends : EndsWith operator others) {more : List Clause} (filled : more ≠ [])
    (uniform : ∀ clause ∈ more, clause.operator = operator)
    (absent : ∀ clause ∈ after, clause.operator ≠ operator) :
    LastRun operator (others ++ (more ++ after)) (block ++ more) := by
  obtain ⟨before, rfl, -, uniform', stops⟩ := last.exists_append ends
  rw [List.append_assoc, ← List.append_assoc block]
  refine .block (by simp [filled]) (fun clause member => ?_) absent stops
  exact (List.mem_append.mp member).elim (uniform' clause) (uniform clause)

theorem singleton {clause : Clause} (same : clause.operator = operator) :
    LastRun operator [clause] [clause] := by
  have whole : LastRun operator ([clause] ++ []) [clause] :=
    of_begins (by simp) (by simpa using same) (by simp)
  exact whole

theorem exists_of (operator : Operator) (clauses : List Clause) :
    ∃ block, LastRun operator clauses block := by
  -- The row grows on the right: a clause leaves the last run as it is, begins it or prolongs it.
  induction clauses using List.reverseRecOn with
  | nil => exact ⟨[], .absent (by simp)⟩
  | append_singleton clauses clause ih =>
    obtain ⟨block, last⟩ := ih
    by_cases same : clause.operator = operator
    · by_cases ends : EndsWith operator clauses
      · have longer : LastRun operator (clauses ++ ([clause] ++ [])) (block ++ [clause]) :=
          last.append_meeting ends (by simp) (by simpa using same) (by simp)
        exact ⟨block ++ [clause], longer⟩
      · exact ⟨[clause], (singleton same).append_apart (by simp) fun both => ends both.2⟩
    · exact ⟨block, last.append_absent (by simpa using same)⟩

end LastRun

/-! ## The bucket of an operator -/

namespace Buckets

theorem runs_append {first second : List Clause}
    (apart : ∀ clause ∈ first.getLast?, ∀ next ∈ second.head?, clause.operator ≠ next.operator) :
    Clause.runs (first ++ second) = Clause.runs first ++ Clause.runs second := by
  apply List.splitBy_append
  intro clause last next head
  simpa using apart clause last next head

theorem filter_runs_absent (absent : ∀ clause ∈ clauses, clause.operator ≠ operator) :
    ((Clause.runs clauses).filter fun run => Clause.runOperator run = some operator) = [] := by
  rw [List.filter_eq_nil_iff]
  intro run member named
  obtain ⟨clause, inside⟩ := List.exists_mem_of_ne_nil run (List.ne_nil_of_mem_splitBy member)
  have known : Clause.runOperator run = some clause.operator :=
    Gathering.runOperator_of_mem_runs _ member inside
  have found : clause ∈ (Clause.runs clauses).flatten := List.mem_flatten_of_mem member inside
  rw [Clause.runs, Gathering.runs, List.flatten_splitBy] at found
  apply absent clause found
  simpa [known] using named

theorem runs_uniform (filled : block ≠ []) (uniform : ∀ clause ∈ block, clause.operator = operator) :
    Clause.runs block = [block] := by
  apply List.splitBy_of_isChain filled
  apply List.Pairwise.isChain
  apply List.pairwise_of_forall_mem_list
  intro first one second two
  simp [uniform first one, uniform second two]

theorem get_ofClauses_of_lastRun (last : LastRun operator clauses block) :
    (ofClauses clauses).get operator = block := by
  rw [get_ofClauses]
  cases last with
  | absent absent => rw [filter_runs_absent absent, List.getLast?_nil, Option.getD_none]
  | @block before _ after filled uniform absent stops =>
    obtain ⟨clause, more, rfl⟩ := List.exists_cons_of_ne_nil filled
    have here : clause.operator = operator := uniform clause (by simp)
    have left : Clause.runs (before ++ (clause :: more ++ after)) =
        Clause.runs before ++ Clause.runs (clause :: more ++ after) := by
      apply runs_append
      intro other final next head
      cases head
      exact here ▸ stops other final
    have right : Clause.runs (clause :: more ++ after) =
        [clause :: more] ++ Clause.runs after := by
      rw [← runs_uniform filled uniform]
      apply runs_append
      intro other final next head
      rw [uniform other (List.mem_of_mem_getLast? final)]
      exact (absent next (List.mem_of_mem_head? head)).symm
    rw [left, right, List.filter_append, List.filter_append, filter_runs_absent absent]
    simp [here]

theorem lastRun_get_ofClauses (operator : Operator) (clauses : List Clause) :
    LastRun operator clauses ((ofClauses clauses).get operator) := by
  obtain ⟨block, last⟩ := LastRun.exists_of operator clauses
  rwa [get_ofClauses_of_lastRun last]

/-- The bucket of an operator holds its last run and nothing else. Of two rows in sequence it
holds the last run of the second, or that of the first if the operator does not occur in the
second, or both where they meet. -/
theorem get_ofClauses_lastRun (operator : Operator) :
    (∀ clauses block,
      (ofClauses clauses).get operator = block ↔ LastRun operator clauses block) ∧
    ∀ first second : List Clause,
      ((∀ clause ∈ second, clause.operator ≠ operator) →
        (ofClauses (first ++ second)).get operator = (ofClauses first).get operator) ∧
      (BeginsWithLastRun operator second ∧ EndsWith operator first →
        (ofClauses (first ++ second)).get operator =
          (ofClauses first).get operator ++ (ofClauses second).get operator) ∧
      ((∃ clause ∈ second, clause.operator = operator) →
        ¬ (BeginsWithLastRun operator second ∧ EndsWith operator first) →
        (ofClauses (first ++ second)).get operator = (ofClauses second).get operator) := by
  refine ⟨fun clauses block => ⟨?_, get_ofClauses_of_lastRun⟩, fun first second => ⟨?_, ?_, ?_⟩⟩
  · rintro rfl
    exact lastRun_get_ofClauses operator clauses
  · intro absent
    exact get_ofClauses_of_lastRun ((lastRun_get_ofClauses operator first).append_absent absent)
  · rintro ⟨⟨block, after, rfl, filled, uniform, absent⟩, ends⟩
    rw [get_ofClauses_of_lastRun (.of_begins filled uniform absent)]
    apply get_ofClauses_of_lastRun
    exact (lastRun_get_ofClauses operator first).append_meeting ends filled uniform absent
  · rintro ⟨clause, member, same⟩ apart
    have last := lastRun_get_ofClauses operator second
    refine get_ofClauses_of_lastRun (last.append_apart ?_ apart)
    -- A row in which the operator occurs has a last run with clauses in it.
    intro empty
    rw [empty] at last
    exact last.absent_of_nil clause member same

theorem meeting_rows_lastRun :
    (ofClauses [⟨.should, .term "a"⟩, ⟨.must, .term "b"⟩, ⟨.should, .term "c"⟩,
      ⟨.should, .phrase "d"⟩, ⟨.must, .term "e"⟩]).get .should =
      [⟨.should, .term "c"⟩, ⟨.should, .phrase "d"⟩] := by
  have joined := ((get_ofClauses_lastRun .should).2
    [⟨.should, .term "a"⟩, ⟨.must, .term "b"⟩, ⟨.should, .term "c"⟩]
    [⟨.should, .phrase "d"⟩, ⟨.must, .term "e"⟩]).2.1
    ⟨⟨[⟨.should, .phrase "d"⟩], [⟨.must, .term "e"⟩], rfl, by simp, by simp, by simp⟩,
      ⟨.should, .term "c"⟩, rfl, rfl⟩
  exact joined

end Buckets

end BoolQuery.Query
