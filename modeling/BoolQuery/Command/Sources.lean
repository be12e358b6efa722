import BoolQuery.Config.Loading
import BoolQuery.Options.Form
import BoolQuery.Text.Room

/-! Sources of a command: the files that its options choose for the configuration. -/

set_option autoImplicit false

namespace BoolQuery.Command

open Config (Environment LoadError Problem Settings)
open Options (Given)

/-- What stops a command, so that it comes to no outcome. -/
inductive Breakdown where
  | config (cause : Config.Breakdown)
  -- An option for a path is there without a value.
  | noPath
  -- The option for the level is there without a value.
  | noLevel
  -- What the command writes cannot be made.
  | excess (cause : Text.Excess)
  deriving DecidableEq, Repr

structure Sources where
  envFile : Given String := .missing
  configFile : Given String := .missing
  deriving DecidableEq, Repr

def chosenPath : Given String → Except Breakdown (Option String)
  | .missing => .ok none
  | .bare => .error .noPath
  | .value path => .ok (some path)

/-- The choice of files; no file is looked at before both are chosen. -/
def Sources.choice (sources : Sources) : Except Breakdown Config.Choice := do
  let envFile ← chosenPath sources.envFile
  let configFile ← chosenPath sources.configFile
  return { envFile, configFile }

def Sources.load (sources : Sources) (view : Files.View) (environment : Environment) :
    Except Breakdown (Except Problem Settings) := do
  let choice ← sources.choice
  match Config.separate (Config.load view environment choice) with
  | .ok result => return result
  | .error cause => throw (.config cause)

theorem Sources.load_of_load {sources : Sources} {view : Files.View} {environment : Environment}
    {choice : Config.Choice} {loaded : Except LoadError Settings}
    (chosen : sources.choice = .ok choice)
    (loads : Config.load view environment choice = loaded) :
    sources.load view environment = (Config.separate loaded).mapError .config := by
  rw [load, chosen]
  simp only [bind, Except.bind, loads]
  cases Config.separate loaded <;> rfl

end BoolQuery.Command
