import BoolQuery.Config.Loading
import BoolQuery.Json.Writer

/-! Reports on the configuration, in words and as JSON. -/

set_option autoImplicit false

namespace BoolQuery.Config

def numberOr (word : String) (number : Nat) : String :=
  if number = 0 then word else toString number

def Settings.summary (settings : Settings) : String :=
  "Configuration looks good.\n" ++
    "  Output indent: " ++ numberOr "compact" settings.indent ++ "\n" ++
    "  Max query length: " ++ numberOr "unlimited" settings.maxQueryLength ++ "\n"

/-- The configuration as an object whose names are sorted. -/
def Settings.toData (settings : Settings) : Data :=
  .object
    [("limits", .object [("max_query_length", .int settings.maxQueryLength)]),
     ("output", .object [("indent", .int settings.indent)])]

def Settings.show (settings : Settings) : String := Json.write (.block 2) settings.toData ++ "\n"

structure Checkup where
  good : Bool
  out : String
  err : String
  deriving DecidableEq, Repr

def checkup (loaded : Except Problem Settings) : Checkup :=
  match loaded with
  | .ok settings => ⟨true, settings.summary, ""⟩
  | .error problem => ⟨false, "", "Configuration invalid:\n  " ++ problem.message ++ "\n"⟩

end BoolQuery.Config
