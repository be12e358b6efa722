import BoolQuery.Config.EnvFile
import BoolQuery.Config.Setting
import BoolQuery.Files.Path
import BoolQuery.Toml.Document

/-! Loading the configuration.

Three sources are merged: an environment file, a configuration file, and the environment itself,
the later ones winning. A file that is missing is an empty source. Which files to read may be
said by the caller or by two variables of the environment; else they are the default ones.
-/

set_option autoImplicit false

namespace BoolQuery.Config

open Files (Obstacle Path View)

inductive Source where
  | envFile
  | configFile
  deriving DecidableEq, Repr

def Source.variableName : Source → String
  | .envFile => "QUERY_COMPILER_ENV_FILE"
  | .configFile => "QUERY_COMPILER_CONFIG_FILE"

def Source.defaultPath : Source → String
  | .envFile => "default.env"
  | .configFile => "default.toml"

def Source.title : Source → String
  | .envFile => "env file"
  | .configFile => "config file"

inductive Problem where
  | unreadable (source : Source) (path : Path) (obstacle : Obstacle)
  | malformed (path : Path)
  | invalid (settings : List Setting)
  deriving DecidableEq, Repr

/-- What the wording of a malformed document is replaced by. -/
def malformedMark : String := "<toml error>"

def Problem.message : Problem → String
  | .unreadable source path obstacle =>
    "Failed to read " ++ source.title ++ " " ++ path.text ++ ": " ++ obstacle.message path
  | .malformed path => "Failed to parse config file " ++ path.text ++ ": " ++ malformedMark
  | .invalid settings => invalidMessage settings

/-- What stops the loading altogether. -/
inductive Breakdown where
  -- The bytes of a file are not well formed.
  | noText
  -- A path holds the character zero.
  | brokenPath
  -- A number has too many digits.
  | oversized
  -- Values are nested too deep.
  | tooDeep
  deriving DecidableEq, Repr

inductive LoadError where
  | problem (problem : Problem)
  | breakdown (breakdown : Breakdown)
  deriving DecidableEq, Repr

/-- Tell what stops the loading apart from problems that the user is told of. -/
def separate {α : Type} : Except LoadError α → Except Breakdown (Except Problem α)
  | .ok value => .ok (.ok value)
  | .error (.problem problem) => .ok (.error problem)
  | .error (.breakdown breakdown) => .error breakdown

structure Choice where
  envFile : Option String := none
  configFile : Option String := none
  -- Bindings to take the settings from in place of the environment.
  bindings : Option Members := none

/-- The path of a source. A variable that is empty says nothing. -/
def Source.resolve (source : Source) (chosen : Option String) (environment : Environment) : Path :=
  let named := (environment.lookup source.variableName).filter fun text => !text.isEmpty
  .ofText ((chosen.or named).getD source.defaultPath)

def Source.read (source : Source) (view : View) (path : Path) :
    Except LoadError (Option String) :=
  match view path with
  | .ok (some text) => .ok (some text)
  | .ok none => .error (.breakdown .noText)
  | .error .missing => .ok none
  | .error .broken => .error (.breakdown .brokenPath)
  | .error obstacle => .error (.problem (.unreadable source path obstacle))

def loadEnvFile (view : View) (path : Path) : Except LoadError Environment := do
  let text ← Source.envFile.read view path
  return (text.map readEnvFile).getD []

def loadTable (view : View) (path : Path) : Except LoadError Members := do
  match ← Source.configFile.read view path with
  | none => return []
  | some text =>
    match Toml.read text with
    | .ok table => return table
    | .error .malformed => throw (.problem (.malformed path))
    | .error .oversized => throw (.breakdown .oversized)
    | .error .tooDeep => throw (.breakdown .tooDeep)

def Environment.toMembers (environment : Environment) : Members :=
  environment.map fun binding => (binding.1, .text binding.2)

/-- The sources merged, the later ones winning. -/
def mergeSources (envFile table bindings : Members) : Members :=
  merge (merge (merge [] (ofBindings envFile)) (knownFields table)) (ofBindings bindings)

/-- Sources nested deeper than this cannot be merged. -/
def deepest : Nat := 986

def settingsOfSources (envFile table bindings : Members) : Except LoadError Settings :=
  let depth := max (nestingMembers (knownFields table)) (nestingMembers (ofBindings bindings))
  if deepest < depth then .error (.breakdown .tooDeep)
  else match Settings.ofData (mergeSources envFile table bindings) with
    | .ok settings => .ok settings
    | .error (.invalid settings) => .error (.problem (.invalid settings))
    | .error (.textless .oversized) => .error (.breakdown .oversized)
    | .error (.textless .tooDeep) => .error (.breakdown .tooDeep)

/-- Load the configuration; the environment file is read first. -/
def load (view : View) (environment : Environment) (choice : Choice) :
    Except LoadError Settings := do
  let envFile ← loadEnvFile view (Source.envFile.resolve choice.envFile environment)
  let table ← loadTable view (Source.configFile.resolve choice.configFile environment)
  settingsOfSources envFile.toMembers table (choice.bindings.getD environment.toMembers)

end BoolQuery.Config
