/-! Query trees.

A query is a row of nodes. A node is a term or a phrase, with an optional sign in front. Each
part remembers its offset: the number of characters of the query before it.
-/

set_option autoImplicit false

namespace BoolQuery.Query

/-- The mark in front of a node that must, or must not, match. -/
inductive Sign where
  | plus
  | minus
  deriving DecidableEq, Repr

def Sign.toChar : Sign → Char
  | .plus => '+'
  | .minus => '-'

def Sign.ofChar? (c : Char) : Option Sign :=
  if c = '+' then some .plus else if c = '-' then some .minus else none

theorem Sign.ofChar?_eq_some {c : Char} {sign : Sign} :
    Sign.ofChar? c = some sign ↔ sign.toChar = c := by
  cases sign <;> simp only [ofChar?, toChar] <;> split <;> (try split) <;> simp_all [eq_comm]

theorem Sign.ofChar?_eq_none {c : Char} : Sign.ofChar? c = none ↔ c ≠ '+' ∧ c ≠ '-' := by
  unfold Sign.ofChar?
  by_cases plus : c = '+'
  · simp [plus]
  · by_cases minus : c = '-' <;> simp [plus, minus]

structure Term where
  text : String
  offset : Nat
  deriving DecidableEq, Repr

/-- What a node asks for. The offset of a phrase is that of its opening quote. -/
inductive Body where
  | term (word : Term)
  | phrase (terms : List Term) (offset : Nat)
  deriving DecidableEq, Repr

/-- A term or phrase with its sign; the offset is that of the sign, if there is one. -/
structure Node where
  sign : Option Sign
  body : Body
  offset : Nat
  deriving DecidableEq, Repr

/-- The nodes of a query in source order. -/
abbrev Tree := List Node

def Body.offset : Body → Nat
  | .term word => word.offset
  | .phrase _ offset => offset

end BoolQuery.Query
