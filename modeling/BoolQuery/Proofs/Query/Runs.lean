import BoolQuery.Query.Buckets
import Mathlib.Data.List.Nodup
import Mathlib.Data.List.SplitBy

/-! Runs and the buckets they fill.

A bucket holds the last run of its operator: `get_ofClauses`. Clauses that stand in one run for
each operator are gathered without loss: `get_ofClauses_flatMap`.
-/

set_option autoImplicit false

namespace BoolQuery.Query

theorem Buckets.ext_get {α : Type} {first second : Buckets α}
    (same : ∀ operator, first.get operator = second.get operator) : first = second := by
  cases first
  cases second
  simp only [Buckets.mk.injEq]
  exact ⟨same .should, same .must, same .mustNot⟩

namespace Gathering

variable {α : Type} (operatorOf : α → Option Operator)

/-- Rows of neighbours with one operator. -/
def runs (items : List α) : List (List α) :=
  items.splitBy fun first second => operatorOf first == operatorOf second

/-- All items of a run have the operator of its first. -/
def runOperator (run : List α) : Option Operator := run.head?.bind operatorOf

theorem get_add (gathering : Gathering α) (run : List α) (operator : Operator) :
    (gathering.add operatorOf run).buckets.get operator =
      if runOperator operatorOf run = some operator then run
      else gathering.buckets.get operator := by
  unfold add runOperator
  cases known : run.head?.bind operatorOf with
  | none => simp
  | some other =>
    by_cases same : other = operator
    · simp [same, Buckets.get_set_same]
    · simp [same, Buckets.get_set_other _ _ (Ne.symm same)]

theorem get_foldl_add (gathering : Gathering α) (rows : List (List α)) (operator : Operator) :
    (rows.foldl (add operatorOf) gathering).buckets.get operator =
      ((rows.filter fun run => runOperator operatorOf run = some operator).getLast?).getD
        (gathering.buckets.get operator) := by
  induction rows generalizing gathering with
  | nil => rfl
  | cons run rows ih =>
    -- What the first run adds is seen only if no later run has its operator.
    rw [List.foldl_cons, ih, get_add]
    by_cases same : runOperator operatorOf run = some operator
    · simp [same, List.getLast?_cons]
    · simp [same]

theorem get_ofItems (items : List α) (operator : Operator) :
    (ofItems operatorOf items).buckets.get operator =
      (((runs operatorOf items).filter fun run =>
        runOperator operatorOf run = some operator).getLast?).getD [] := by
  have empty : ({} : Buckets α).get operator = [] := by cases operator <;> rfl
  rw [← empty]
  exact get_foldl_add operatorOf ⟨{}, 0⟩ _ operator

theorem runOperator_of_mem_runs {items run : List α} (member : run ∈ runs operatorOf items)
    {item : α} (inside : item ∈ run) : runOperator operatorOf run = operatorOf item := by
  have chain := List.isChain_of_mem_splitBy member
  cases run with
  | nil => cases inside
  | cons first run =>
    have pairwise : (first :: run).Pairwise fun one next => operatorOf one = operatorOf next := by
      refine (chain.imp fun one next same => ?_).pairwise
      simpa using same
    rcases List.mem_cons.mp inside with rfl | inside
    · rfl
    · exact List.rel_of_pairwise_cons pairwise inside

end Gathering

open Gathering

def Clause.runs (clauses : List Clause) : List (List Clause) :=
  Gathering.runs (fun clause => some clause.operator) clauses

def Clause.runOperator (run : List Clause) : Option Operator :=
  Gathering.runOperator (fun clause => some clause.operator) run

@[simp] theorem Clause.runOperator_cons (clause : Clause) (run : List Clause) :
    Clause.runOperator (clause :: run) = some clause.operator := rfl

namespace Buckets

/-- A bucket holds the last run of its operator. -/
theorem get_ofClauses (clauses : List Clause) (operator : Operator) :
    (ofClauses clauses).get operator =
      (((Clause.runs clauses).filter fun run =>
        Clause.runOperator run = some operator).getLast?).getD [] :=
  get_ofItems (fun clause : Clause => some clause.operator) clauses operator

theorem mem_of_mem_get {clauses : List Clause} {operator : Operator} {clause : Clause}
    (member : clause ∈ (ofClauses clauses).get operator) :
    clause ∈ clauses ∧ clause.operator = operator := by
  rw [get_ofClauses] at member
  cases last : ((Clause.runs clauses).filter fun run =>
      Clause.runOperator run = some operator).getLast? with
  | none => simp [last] at member
  | some run =>
    rw [last, Option.getD_some] at member
    obtain ⟨found, named⟩ := List.mem_filter.mp (List.mem_of_getLast? last)
    constructor
    · have joined : (Clause.runs clauses).flatten = clauses := List.flatten_splitBy _ clauses
      rw [← joined]
      exact List.mem_flatten_of_mem found member
    · have whole := runOperator_of_mem_runs _ found member
      have first : Clause.runOperator run = some operator := by simpa using named
      exact Option.some.inj (whole.symm.trans first)

variable {order : List Operator} {group : Operator → List Clause}

/-- Groups of one operator each are the runs of their row, if no operator comes twice. -/
theorem runs_flatMap (distinct : order.Nodup) (filled : ∀ operator ∈ order, group operator ≠ [])
    (uniform : ∀ operator, ∀ clause ∈ group operator, clause.operator = operator) :
    Clause.runs (order.flatMap group) = order.map group := by
  rw [List.flatMap_def]
  -- Groups are not empty, have one operator each, and differ from their neighbours.
  apply List.splitBy_flatten
  · intro empty
    obtain ⟨operator, member, none⟩ := List.mem_map.mp empty
    exact filled operator member none
  · intro row member
    obtain ⟨operator, -, rfl⟩ := List.mem_map.mp member
    apply List.Pairwise.isChain
    apply List.pairwise_of_forall_mem_list
    intro first one second two
    simp [uniform operator first one, uniform operator second two]
  · rw [List.isChain_map]
    apply List.Pairwise.isChain
    refine distinct.imp_of_mem ?_
    intro first second one two different
    refine ⟨filled first one, filled second two, ?_⟩
    simp [uniform first _ (List.getLast_mem _), uniform second _ (List.head_mem _), different]

theorem runOperator_group (filled : ∀ operator ∈ order, group operator ≠ [])
    (uniform : ∀ operator, ∀ clause ∈ group operator, clause.operator = operator)
    {operator : Operator} (member : operator ∈ order) :
    Clause.runOperator (group operator) = some operator := by
  obtain ⟨clause, others, same⟩ := List.exists_cons_of_ne_nil (filled operator member)
  rw [same, Clause.runOperator_cons, uniform operator clause (by simp [same])]

theorem get_ofClauses_flatMap (distinct : order.Nodup)
    (filled : ∀ operator ∈ order, group operator ≠ [])
    (uniform : ∀ operator, ∀ clause ∈ group operator, clause.operator = operator)
    (operator : Operator) :
    (ofClauses (order.flatMap group)).get operator =
      if operator ∈ order then group operator else [] := by
  have chosen : ((order.map group).filter fun run => Clause.runOperator run = some operator) =
      List.replicate (order.count operator) (group operator) := by
    rw [List.filter_map, ← List.map_replicate, ← List.filter_eq]
    congr 1
    apply List.filter_congr
    intro other member
    simp [runOperator_group filled uniform member]
  rw [get_ofClauses, runs_flatMap distinct filled uniform, chosen]
  split
  next member => simp [List.count_eq_one_of_mem distinct member]
  next absent => simp [List.count_eq_zero_of_not_mem absent]

end Buckets

end BoolQuery.Query
