import BoolQuery.Command.Compile
import BoolQuery.Command.Configure

/-! The command line.

The first argument names the program to run, the others are its own. The files that the program
may read are read beforehand, so that the program itself is a function of what was found.
-/

set_option autoImplicit false

namespace BoolQuery.Main

open Command (Outcome)
open Config (Environment Setting Source)
open Files (Obstacle Path View)

def readPath (path : Path) : IO (Except Obstacle (Option String)) := do
  if path.text.toList.contains '\x00' then return .error .broken
  let place := (← IO.currentDir) / path.text
  if ← place.isDir then return .error .isDirectory
  else match ← (IO.FS.readBinFile place).toBaseIO with
    | .ok bytes => return .ok (String.fromUTF8? bytes)
    | .error (.inappropriateType ..) => return .error .notDirectory
    | .error (.invalidArgument ..) => return .error .nameTooLong
    | .error _ => return .error .missing

def readEnvironment : IO Environment := do
  let names := [Source.envFile, .configFile].map Source.variableName ++
    Setting.all.map Setting.variableName
  names.filterMapM fun name => do
    return (← IO.getEnv name).map (name, ·)

def readView (environment : Environment) (sources : Command.Sources) : IO View := do
  let envPath := Source.envFile.resolve sources.envFile.value? environment
  let configPath := Source.configFile.resolve sources.configFile.value? environment
  let envFound ← readPath envPath
  let configFound ← readPath configPath
  return fun path =>
    if path = envPath then envFound
    else if path = configPath then configFound
    else .error .missing

partial def readAll (input : IO.FS.Stream) (before : String) : IO String := do
  let line ← input.getLine
  if line.isEmpty then return before else readAll input (before ++ line)

/-- The standard input, if the command line does not hold the query. -/
def readQuery (arguments : List String) : IO String := do
  match Command.Compile.readChoices arguments with
  | .ok { query := none, .. } => readAll (← IO.getStdin) ""
  | _ => return ""

def run (program : String) (arguments : List String) :
    IO (Except Command.Breakdown Outcome) := do
  let environment ← readEnvironment
  if program = Command.Configure.program then
    let sources := match Command.Configure.readChoices arguments with
      | .ok choices => choices.sources
      | .error _ => {}
    let view ← readView environment sources
    return Command.Configure.run view environment arguments
  else
    let sources := match Command.Compile.readChoices arguments with
      | .ok choices => choices.sources
      | .error _ => {}
    let view ← readView environment sources
    return Command.Compile.run view environment arguments (← readQuery arguments)

/-- Run the program that the first argument names, and write what it wrote. -/
def start (arguments : List String) : IO UInt32 := do
  match ← run (arguments.headD Command.Compile.program) arguments.tail with
  | .ok outcome =>
    IO.print outcome.out
    IO.eprint outcome.err
    return UInt32.ofNat outcome.exit
  | .error _ =>
    IO.eprintln "The command cannot be carried out."
    return 1

end BoolQuery.Main

def main (arguments : List String) : IO UInt32 := BoolQuery.Main.start arguments
