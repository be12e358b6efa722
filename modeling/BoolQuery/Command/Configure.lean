import BoolQuery.Command.Outcome
import BoolQuery.Command.Sources
import BoolQuery.Config.Report
import BoolQuery.Options.Reader

/-! The command that checks the configuration or shows it. -/

set_option autoImplicit false

namespace BoolQuery.Command.Configure

open Config (Environment)
open Options (Form Spec Stop)

def program : String := "query-compiler-config"

def helpText : String :=
  "\n".intercalate
    ["usage: query-compiler-config [-h] \x7bdoctor,show\x7d ...",
     "",
     "Configuration utilities for the query compiler.",
     "",
     "positional arguments:",
     "  \x7bdoctor,show\x7d",
     "    doctor       Validate configuration sources.",
     "    show         Print the effective configuration as JSON.",
     "",
     "options:",
     "  -h, --help     show this help message and exit",
     ""]

inductive Task where
  | doctor
  | show
  deriving DecidableEq, Repr

def Task.all : List Task := [.doctor, .show]

def Task.name : Task → String
  | .doctor => "doctor"
  | .show => "show"

def Task.ofName? (name : String) : Option Task := Task.all.find? fun task => task.name == name

def Task.program (task : Task) : String := Configure.program ++ " " ++ task.name

/-- The second line of the usage stands under the first option. -/
def Task.helpText (task : Task) : String :=
  let front := "usage: " ++ task.program ++ " "
  "\n".intercalate
    [front ++ "[-h] [--env-file ENV_FILE]",
     String.ofList (List.replicate front.length ' ') ++ "[--config-file CONFIG_FILE]",
     "",
     "options:",
     "  -h, --help            show this help message and exit",
     "  --env-file ENV_FILE   Path to the .env file to read.",
     "  --config-file CONFIG_FILE",
     "                        Path to the user config file (config.toml).",
     ""]

structure Choices where
  task : Option Task := none
  sources : Sources := {}

def Task.specs : List (Spec Choices) :=
  [Options.helpSpec Choices,
   ⟨["--env-file"], .value fun value choices =>
      .ok { choices with sources.envFile := .ofOption value }⟩,
   ⟨["--config-file"], .value fun value choices =>
      .ok { choices with sources.configFile := .ofOption value }⟩]

def Task.form (task : Task) : Form Choices := ⟨task.program, task.helpText, Task.specs⟩

def form : Form Choices := ⟨program, helpText, [Options.helpSpec Choices]⟩

/-- The name of a task, and the arguments that are read by the task's own form. -/
def takeTask (name : String) (arguments : List String) (choices : Choices) :
    Except Stop (Choices × List String) :=
  match Task.ofName? name with
  | none =>
    .error (form.argumentMisuse "command"
      ("invalid choice: " ++ Text.quoted name ++ " (choose from " ++
        ", ".intercalate (Task.all.map fun task => Text.quoted task.name) ++ ")"))
  | some task => task.form.readSome .none { choices with task := some task } arguments

def readChoices (arguments : List String) : Except Stop Choices :=
  form.read (.rest takeTask) {} arguments

def showSettings (loaded : Except Config.Problem Config.Settings) : Outcome :=
  match loaded with
  | .ok settings => ⟨exitOk, settings.show, ""⟩
  | .error problem =>
    ⟨exitInputError, "", "Configuration invalid: " ++ problem.message ++ "\n"⟩

def checkSettings (loaded : Except Config.Problem Config.Settings) : Outcome :=
  let checkup := Config.checkup loaded
  ⟨if checkup.good then exitOk else exitInputError, checkup.out, checkup.err⟩

/-- Carry out the command. Without a task it shows its help, and fails. -/
def run (view : Files.View) (environment : Environment) (arguments : List String) :
    Except Breakdown Outcome :=
  match readChoices arguments with
  | .error stop => .ok (.ofStop stop)
  | .ok choices =>
    let loaded := choices.sources.load view environment
    match choices.task with
    | none => .ok ⟨exitInputError, helpText, ""⟩
    | some .show => loaded.map showSettings
    | some .doctor => loaded.map checkSettings

end BoolQuery.Command.Configure
