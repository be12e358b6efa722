import BoolQuery.Command.Compile
import BoolQuery.Command.Configure
import BoolQuery.Files.Change

/-! Sessions.

A session holds the files of the working directory, the environment and a configuration that is
kept once it has been loaded. Its steps run one after the other; one that fails changes nothing,
except for directories that it made on its way.
-/

set_option autoImplicit false

namespace BoolQuery

open Config (Choice Environment LoadError Settings)
open Files (Entry Obstacle Path Store)

structure Session where
  store : Store := .empty
  environment : Environment := []
  kept : Option Settings := none

namespace Session

inductive Step where
  | write (path : Path) (entry : Entry)
  -- The path of a file to remove is taken as it is written.
  | remove (path : String)
  | setVariable (name value : String)
  | unsetVariable (name : String)
  | forget
  | readEnvFile (path : Path)
  | load (choice : Choice)
  | settings
  | doctor (choice : Choice)
  | compile (arguments : List String) (input : String)
  | configure (arguments : List String)

inductive Answer where
  | done
  | environment (environment : Environment)
  | settings (settings : Settings)
  | checkup (checkup : Config.Checkup)
  | outcome (outcome : Command.Outcome)
  deriving DecidableEq, Repr

inductive Failure where
  | load (error : LoadError)
  | command (breakdown : Command.Breakdown)
  | store (obstacle : Obstacle)
  | variable (flaw : Environment.Flaw)
  deriving DecidableEq, Repr

/-- Put an entry at a path. Directories made on the way stay even if that fails. -/
def write (session : Session) (path : Path) (entry : Entry) : Session × Except Failure Answer :=
  let (store, obstacle) := session.store.write path entry
  ({ session with store }, match obstacle with
    | none => .ok .done
    | some obstacle => .error (.store obstacle))

def remove (session : Session) (path : String) : Session × Except Failure Answer :=
  match session.store.remove path with
  | .ok store => ({ session with store }, .ok .done)
  | .error obstacle => (session, .error (.store obstacle))

def setVariable (session : Session) (name value : String) : Session × Except Failure Answer :=
  match session.environment.set name value with
  | .ok environment => ({ session with environment }, .ok .done)
  | .error flaw => (session, .error (.variable flaw))

/-- Load the configuration from the files and the environment as they are now. -/
def load (session : Session) (choice : Choice) : Except LoadError Settings :=
  Config.load session.store.read session.environment choice

/-- The kept configuration; if there is none it is loaded, and kept unless that fails. -/
def settings (session : Session) : Session × Except LoadError Settings :=
  match session.kept with
  | some settings => (session, .ok settings)
  | none =>
    match session.load {} with
    | .ok settings => ({ session with kept := some settings }, .ok settings)
    | .error error => (session, .error error)

def loaded {α : Type} (answer : α → Answer) (result : Except LoadError α) : Except Failure Answer :=
  match result with
  | .ok value => .ok (answer value)
  | .error error => .error (.load error)

/-- What a check answers. A problem is part of the answer. -/
def checked (result : Except Config.Breakdown (Except Config.Problem Settings)) :
    Except Failure Answer :=
  match result with
  | .ok result => .ok (.checkup (Config.checkup result))
  | .error breakdown => .error (.load (.breakdown breakdown))

/-- What stops a command stops the step. -/
def outcome (result : Except Command.Breakdown Command.Outcome) : Except Failure Answer :=
  match result with
  | .ok outcome => .ok (.outcome outcome)
  | .error breakdown => .error (.command breakdown)

def step (session : Session) : Step → Session × Except Failure Answer
  | .write path entry => session.write path entry
  | .remove path => session.remove path
  | .setVariable name value => session.setVariable name value
  | .unsetVariable name =>
    ({ session with environment := session.environment.erase name }, .ok .done)
  | .forget => ({ session with kept := none }, .ok .done)
  | .readEnvFile path =>
    (session, loaded .environment (Config.loadEnvFile session.store.read path))
  | .load choice => (session, loaded .settings (session.load choice))
  | .settings =>
    let (session, result) := session.settings
    (session, loaded .settings result)
  | .doctor choice => (session, checked (Config.separate (session.load choice)))
  | .compile arguments input =>
    (session, outcome
      (Command.Compile.run session.store.read session.environment arguments input))
  | .configure arguments =>
    (session, outcome (Command.Configure.run session.store.read session.environment arguments))

def run (session : Session) : List Step → Session × List (Except Failure Answer)
  | [] => (session, [])
  | step :: rest =>
    let (after, answer) := session.step step
    let (final, answers) := run after rest
    (final, answer :: answers)

end Session

end BoolQuery
