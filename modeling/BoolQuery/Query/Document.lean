import BoolQuery.Data.Basic
import BoolQuery.Query.Buckets

/-! Boolean query documents.

A document holds the leaves of each operator. As data it is an object with one member for each
operator that has leaves, always in the same order.
-/

set_option autoImplicit false

namespace BoolQuery.Query

abbrev Document := Buckets Leaf

def Document.ofBuckets (buckets : Buckets Clause) : Document := buckets.map Clause.leaf

/-- The field of the searched documents that every leaf is matched against. -/
def targetField : String := "title"

def Leaf.toData (leaf : Leaf) : Data :=
  let (kind, text) := match leaf with
    | .term text => ("match", text)
    | .phrase text => ("match_phrase", text)
  .object [(kind, .object [(targetField, .object [("query", .text text)])])]

/-- The operators that have leaves, in the order in which a document lists them. -/
def Document.operators (document : Document) : List Operator :=
  Operator.all.filter fun operator => !(document.get operator).isEmpty

def Document.toData (document : Document) : Data :=
  let groups := document.operators.map fun operator =>
    (operator.name, Data.list ((document.get operator).map Leaf.toData))
  .object [("query", .object [("bool", .object groups)])]

def Tree.document (tree : Tree) : Document := .ofBuckets (.ofClauses tree.clauses)

end BoolQuery.Query
