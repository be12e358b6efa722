import BoolQuery.Query.Reader
import BoolQuery.Text.Room

/-! Diagnostics: a failure shown against the text of its query.

The offset may lie outside the text. A negative one counts from the end when the line is sought,
and stands as it is when the column is computed, so a column need not be positive. One far beyond
the text leaves more blanks before the caret than can be made; that of a failure never does.
-/

set_option autoImplicit false

namespace BoolQuery.Query

structure Diagnostic where
  query : String
  offset : Int
  expected : Expected
  deriving DecidableEq, Repr

def Failure.diagnose (failure : Failure) (query : String) : Diagnostic :=
  ⟨query, failure.offset, failure.expected⟩

namespace Diagnostic

/-- The number of characters before the place, within the text. -/
def cut (diagnostic : Diagnostic) : Nat :=
  let length := diagnostic.query.length
  if diagnostic.offset < 0 then (length + diagnostic.offset).toNat
  else min diagnostic.offset.toNat length

def before (diagnostic : Diagnostic) : List Char := diagnostic.query.toList.take diagnostic.cut

def lineBefore (diagnostic : Diagnostic) : List Char :=
  (diagnostic.before.reverse.takeWhile (· != '\n')).reverse

def line (diagnostic : Diagnostic) : Nat := diagnostic.before.count '\n' + 1

/-- The number of the column, from one at the start of the line. -/
def column (diagnostic : Diagnostic) : Int :=
  -- The difference is the offset at which the line begins.
  diagnostic.offset - (diagnostic.cut - diagnostic.lineBefore.length : Nat) + 1

def sourceLine (diagnostic : Diagnostic) : List Char :=
  diagnostic.lineBefore ++
    (diagnostic.query.toList.drop diagnostic.cut).takeWhile (· != '\n')

def message (diagnostic : Diagnostic) : String :=
  "Expected " ++ diagnostic.expected.description ++ " at line " ++ toString diagnostic.line ++
    ", column " ++ toString diagnostic.column

/-- The number of blanks before the caret; there are none if it is negative. -/
def padding (diagnostic : Diagnostic) : Int := diagnostic.column - 1

def render (diagnostic : Diagnostic) : String :=
  let padding := List.replicate diagnostic.padding.toNat ' '
  "\n".intercalate [diagnostic.message,
    "  " ++ String.ofList diagnostic.sourceLine,
    "  " ++ String.ofList padding ++ "^"]

def fitted (diagnostic : Diagnostic) : Except Text.Excess Diagnostic :=
  (Text.checkRow diagnostic.padding).map fun _ => diagnostic

end BoolQuery.Query.Diagnostic
