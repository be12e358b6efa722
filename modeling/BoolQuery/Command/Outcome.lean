import BoolQuery.Log.Router
import BoolQuery.Options.Form

/-! Outcomes of commands: an exit code, and what was written to either stream. -/

set_option autoImplicit false

namespace BoolQuery.Command

open Log (Stream)

structure Outcome where
  exit : Nat
  out : String
  err : String
  deriving DecidableEq, Repr

def exitOk : Nat := 0

def exitInputError : Nat := 1

def exitConfigError : Nat := 2

def exitMisuse : Nat := 2

def textOf (stream : Stream) (written : List (Stream × String)) : String :=
  String.join ((written.filter fun part => part.1 == stream).map (·.2))

def Outcome.ofWritten (exit : Nat) (written : List (Stream × String)) : Outcome :=
  ⟨exit, textOf .out written, textOf .err written⟩

/-- Help is written to the standard output, a misuse with the usage to the standard error. -/
def Outcome.ofStop : Options.Stop → Outcome
  | .help text => ⟨exitOk, text, ""⟩
  | .misuse usage program message =>
    ⟨exitMisuse, "", usage ++ program ++ ": error: " ++ message ++ "\n"⟩

end BoolQuery.Command
