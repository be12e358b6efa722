import BoolQuery.Query.Tree

/-! Clauses.

A clause is a node without its position: the sign becomes an operator, and the terms of a phrase
become one text.
-/

set_option autoImplicit false

namespace BoolQuery.Query

inductive Operator where
  | should
  | must
  | mustNot
  deriving DecidableEq, Repr

def Operator.name : Operator → String
  | .should => "should"
  | .must => "must"
  | .mustNot => "must_not"

def Operator.all : List Operator := [.should, .must, .mustNot]

def Operator.ofName? (name : String) : Option Operator :=
  Operator.all.find? fun operator => operator.name == name

def Operator.ofSign : Option Sign → Operator
  | none => .should
  | some .plus => .must
  | some .minus => .mustNot

inductive Leaf where
  | term (text : String)
  | phrase (text : String)
  deriving DecidableEq, Repr

structure Clause where
  operator : Operator
  leaf : Leaf
  deriving DecidableEq, Repr

/-- The terms of a phrase are joined by single spaces, whatever blanks stood between them. -/
def Body.leaf : Body → Leaf
  | .term word => .term word.text
  | .phrase terms _ => .phrase (" ".intercalate (terms.map Term.text))

def Node.clause (node : Node) : Clause := ⟨.ofSign node.sign, node.body.leaf⟩

def Tree.clauses (tree : Tree) : List Clause := tree.map Node.clause

end BoolQuery.Query
