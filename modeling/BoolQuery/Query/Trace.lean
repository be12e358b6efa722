import BoolQuery.Log.Record
import BoolQuery.Query.Document
import BoolQuery.Query.Reader

/-! Compiling a query, and the trace of what happens on the way.

A rejected query leaves one event. An accepted one ends with its compilation, before which the
loss of clauses to later runs is told, if there was any.
-/

set_option autoImplicit false

namespace BoolQuery.Query

def compile (query : String) : Except Failure Document := (Tree.read query).map Tree.document

inductive Event where
  | failed (failure : Failure)
  -- So many clauses, out of a total, lost their bucket to a later run.
  | discarded (count total : Nat)
  -- So many clauses were compiled; the operators are those of the document.
  | compiled (clauses : Nat) (operators : List Operator)
  deriving DecidableEq, Repr

/-- The operators of a document in alphabetical order. -/
def Document.sortedOperators (document : Document) : List Operator :=
  [Operator.must, .mustNot, .should].filter fun operator => !(document.get operator).isEmpty

def Tree.events (tree : Tree) : List Event :=
  let clauses := tree.clauses
  let discarded := (Gathering.ofClauses clauses).discarded
  (if discarded = 0 then [] else [.discarded discarded clauses.length]) ++
    [.compiled clauses.length tree.document.sortedOperators]

def trace (query : String) : List Event :=
  match Tree.read query with
  | .error failure => [.failed failure]
  | .ok tree => tree.events

def countField (name : String) (count : Nat) : String × Log.Field := (name, .data (.int count))

def textField (name text : String) : String × Log.Field := (name, .data (.text text))

def Failure.fields (failure : Failure) : Log.Fields :=
  [countField "offset" failure.offset, textField "expected" failure.expected.name]

def Event.record : Event → Log.Record
  | .failed failure =>
    { logger := "query_compiler.syntax.grammar"
      level := Log.Level.debug.number
      message := "Query failed to parse"
      fields := failure.fields }
  | .discarded count total =>
    { logger := "query_compiler.syntax.aggregate"
      level := Log.Level.debug.number
      message := "Discarded clauses from earlier runs"
      fields := [countField "discarded" count, countField "clauses" total] }
  | .compiled clauses operators =>
    { logger := "query_compiler.syntax"
      level := Log.Level.debug.number
      message := "Compiled query"
      fields :=
        [countField "clauses" clauses,
         ("groups", .data (.list (operators.map fun operator => .text operator.name)))] }

end BoolQuery.Query
