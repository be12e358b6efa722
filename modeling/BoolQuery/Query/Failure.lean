/-! Failures of reading a query: where reading stopped, and what would have fitted there. -/

set_option autoImplicit false

namespace BoolQuery.Query

inductive Expected where
  | term
  | phraseClose
  | endOfInput
  deriving DecidableEq, Repr

def Expected.name : Expected → String
  | .term => "term"
  | .phraseClose => "phrase-close"
  | .endOfInput => "end-of-input"

def Expected.description : Expected → String
  | .term => "a term or phrase"
  | .phraseClose => "a closing quote (\")"
  | .endOfInput => "end of input"

def Expected.all : List Expected := [.term, .phraseClose, .endOfInput]

def Expected.ofName? (name : String) : Option Expected :=
  Expected.all.find? fun expected => expected.name == name

/-- The offset is the number of characters that could still begin a query. -/
structure Failure where
  offset : Nat
  expected : Expected
  deriving DecidableEq, Repr

end BoolQuery.Query
