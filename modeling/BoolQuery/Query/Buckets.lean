import BoolQuery.Query.Clause

/-! Buckets of clauses.

A row of clauses falls into runs of neighbours with one operator. The last run of an operator
fills its bucket; earlier runs of that operator are discarded, never joined to it.
-/

set_option autoImplicit false

namespace BoolQuery.Query

structure Buckets (α : Type) where
  should : List α := []
  must : List α := []
  mustNot : List α := []
  deriving DecidableEq, Repr

namespace Buckets

variable {α β : Type}

def get (buckets : Buckets α) : Operator → List α
  | .should => buckets.should
  | .must => buckets.must
  | .mustNot => buckets.mustNot

def set (buckets : Buckets α) (operator : Operator) (items : List α) : Buckets α :=
  match operator with
  | .should => { buckets with should := items }
  | .must => { buckets with must := items }
  | .mustNot => { buckets with mustNot := items }

def map (convert : α → β) (buckets : Buckets α) : Buckets β :=
  ⟨buckets.should.map convert, buckets.must.map convert, buckets.mustNot.map convert⟩

def isEmpty (buckets : Buckets α) : Bool :=
  buckets.should.isEmpty && buckets.must.isEmpty && buckets.mustNot.isEmpty

def size (buckets : Buckets α) : Nat :=
  buckets.should.length + buckets.must.length + buckets.mustNot.length

theorem get_set_same (buckets : Buckets α) (operator : Operator) (items : List α) :
    (buckets.set operator items).get operator = items := by
  cases operator <;> rfl

theorem get_set_other (buckets : Buckets α) {operator other : Operator} (items : List α)
    (differs : other ≠ operator) : (buckets.set operator items).get other = buckets.get other := by
  cases operator <;> cases other <;> first | rfl | exact absurd rfl differs

theorem get_map (convert : α → β) (buckets : Buckets α) (operator : Operator) :
    (buckets.map convert).get operator = (buckets.get operator).map convert := by
  cases operator <;> rfl

end Buckets

/-- Buckets under way, with the number of items that were discarded so far. -/
structure Gathering (α : Type) where
  buckets : Buckets α
  discarded : Nat

namespace Gathering

variable {α : Type}

/-- A run replaces what its bucket held. Items without an operator fill no bucket. -/
def add (operatorOf : α → Option Operator) (gathering : Gathering α) (run : List α) :
    Gathering α :=
  -- All items of a run have the operator of its first.
  match run.head?.bind operatorOf with
  | none => gathering
  | some operator =>
    ⟨gathering.buckets.set operator run,
      gathering.discarded + (gathering.buckets.get operator).length⟩

def ofItems (operatorOf : α → Option Operator) (items : List α) : Gathering α :=
  (items.splitBy fun first second => operatorOf first == operatorOf second).foldl
    (add operatorOf) ⟨{}, 0⟩

def ofClauses (clauses : List Clause) : Gathering Clause :=
  ofItems (fun clause => some clause.operator) clauses

end Gathering

/-- The last run of each operator. -/
def Buckets.ofClauses (clauses : List Clause) : Buckets Clause :=
  (Gathering.ofClauses clauses).buckets

end BoolQuery.Query
