import BoolQuery.Command.Outcome
import BoolQuery.Command.Sources
import BoolQuery.Json.Writer
import BoolQuery.Options.Reader
import BoolQuery.Query.Diagnostic
import BoolQuery.Query.Outline
import BoolQuery.Query.Trace

/-! The command that compiles a query.

The query is an argument or the standard input. The document goes to the standard output; what
happens on the way is logged, by default to the standard error.
-/

set_option autoImplicit false

namespace BoolQuery.Command.Compile

open Config (Environment Settings)
open Log (Level Stream)
open Options (Form Spec)
open Query (Event)

def program : String := "query-compile"

def helpText : String :=
  "\n".intercalate
    ["usage: query-compile [-h] [--config CONFIG] [--env-file ENV_FILE]",
     "                     [--log-level \x7bCRITICAL,ERROR,WARNING,INFO,DEBUG,NOTSET\x7d]",
     "                     [--log-format \x7btext,json\x7d]",
     "                     [--log-destination \x7bauto,stdout,stderr\x7d]",
     "                     [--indent INDENT] [--tree]",
     "                     [query]",
     "",
     "Compile a search query into a boolean query document.",
     "",
     "positional arguments:",
     "  query                 Query string to compile; read from stdin when omitted.",
     "                        (default: None)",
     "",
     "options:",
     "  -h, --help            show this help message and exit",
     "  --config CONFIG       Path to a TOML configuration file overriding defaults.",
     "                        (default: None)",
     "  --env-file ENV_FILE   Optional .env file with QUERY_COMPILER_* settings.",
     "                        (default: None)",
     "  --log-level \x7bCRITICAL,ERROR,WARNING,INFO,DEBUG,NOTSET\x7d",
     "                        Logging verbosity (case-insensitive). (default: INFO)",
     "  --log-format \x7btext,json\x7d",
     "                        Structured JSON or human-readable text logs. (default:",
     "                        text)",
     "  --log-destination \x7bauto,stdout,stderr\x7d",
     "                        Write logs to stdout, stderr, or split automatically",
     "                        by level. (default: stderr)",
     "  --indent INDENT       JSON indent for the emitted document (0 for a single",
     "                        line). Defaults to the configured output indent.",
     "                        (default: None)",
     "  --tree                Also write the parse tree to stderr. (default: False)",
     ""]

structure Choices where
  sources : Sources := {}
  -- Missing if the option is there without a value.
  level : Option Level := some .info
  layout : Log.Layout := .text
  destination : Log.Destination := .err
  indent : Option Nat := none
  tree : Bool := false
  query : Option String := none

def unexpected (what value : String) (expected : List String) : String :=
  "Invalid log " ++ what ++ " '" ++ value ++ "'. Expected one of: " ++ ", ".intercalate expected

def readLevel (value : String) : Except String Level :=
  match Level.all.find? fun level => level.name == Text.capitals value with
  | some level => .ok level
  | none => .error (unexpected "level" value (Level.all.map Level.name))

def layouts : List (String × Log.Layout) := [("text", .text), ("json", .json)]

def readLayout (value : String) : Except String Log.Layout :=
  match layouts.lookup (Text.smallLetters value) with
  | some layout => .ok layout
  | none => .error (unexpected "format" value (layouts.map (·.1)))

def destinations : List (String × Log.Destination) :=
  [("auto", .auto), ("stdout", .out), ("stderr", .err)]

def readDestination (value : String) : Except String Log.Destination :=
  match destinations.lookup (Text.smallLetters value) with
  | some destination => .ok destination
  | none => .error (unexpected "destination" value (destinations.map (·.1)))

def readIndent (value : String) : Except String Nat :=
  let invalid := "Invalid indent '" ++ value ++ "'. "
  match Numeral.read value.toList with
  | none => .error (invalid ++ "Expected an integer.")
  | some number =>
    match number.toNat? with
    | none => .error (invalid ++ "Must not be negative.")
    | some indent => .ok indent

def specs : List (Spec Choices) :=
  [Options.helpSpec Choices,
   ⟨["--config"], .value fun value choices =>
      .ok { choices with sources.configFile := .ofOption value }⟩,
   ⟨["--env-file"], .value fun value choices =>
      .ok { choices with sources.envFile := .ofOption value }⟩,
   ⟨["--log-level"], .value fun value choices => do
      return { choices with level := ← value.mapM readLevel }⟩,
   -- Without a value the layout is text, the destination goes by the level, and nothing is indented.
   ⟨["--log-format"], .value fun value choices => do
      return { choices with layout := (← value.mapM readLayout).getD .text }⟩,
   ⟨["--log-destination"], .value fun value choices => do
      return { choices with destination := (← value.mapM readDestination).getD .auto }⟩,
   ⟨["--indent"], .value fun value choices => do
      return { choices with indent := some ((← value.mapM readIndent).getD 0) }⟩,
   ⟨["--tree"], .switch fun choices => { choices with tree := true }⟩]

def form : Form Choices := ⟨program, helpText, specs⟩

def readChoices (arguments : List String) : Except Options.Stop Choices :=
  form.read (.one fun query choices => { choices with query := some query }) {} arguments

def Choices.router (choices : Choices) : Except Breakdown Log.Router :=
  match choices.level with
  | some level => .ok ⟨level.number, Log.handlers choices.layout choices.destination⟩
  | none => .error .noLevel

/-- The lines that a record gives; no record of this command has a field under a refused name. -/
def logged (router : Log.Router) (record : Log.Record) : List (Stream × String) :=
  match router.emit record with
  | .ok lines => lines
  | .error _ => []

def logger : String := "query_compiler.cli.compile"

def record (level : Level) (message : String) (fields : Log.Fields) : Log.Record :=
  { logger, level := level.number, message, fields }

def ownField : String × Log.Field := Query.textField "cli" "compile"

def readyRecord : Log.Record := record .info "Compile CLI ready" [ownField]

def problemRecord (problem : Config.Problem) : Log.Record :=
  record .error "Configuration invalid" [ownField, Query.textField "error" problem.message]

def tooLongRecord (length limit : Nat) : Log.Record :=
  record .error "Query exceeds the configured length limit"
    [Query.countField "length" length, Query.countField "max_query_length" limit]

def failureRecord (failure : Query.Failure) : Log.Record :=
  record .error "Query syntax error" failure.fields

/-- The query on the standard input: its line ends are normalized, and those at the end
dropped. -/
def readInput (input : String) : String :=
  String.ofList (Text.trimEndWhile (· == '\n') (Text.normalizeEnds input.toList))

/-- Compile a query within a configuration. The query is read twice if its tree is asked for, so
a failure is traced once in either case. An indent matters only once there is a document. -/
def compileQuery (router : Log.Router) (choices : Choices) (settings : Settings)
    (query : String) : Except Breakdown Outcome :=
  let ready := logged router readyRecord
  if !Config.admits settings.maxQueryLength query.length then
    .ok (.ofWritten exitInputError
      (ready ++ logged router (tooLongRecord query.length settings.maxQueryLength)))
  else
    -- Reading for the outline leaves no trace of its own when it succeeds.
    let traced := (Query.trace query).flatMap fun event => logged router event.record
    match Query.Tree.read query with
    | .error failure =>
      .ok (.ofWritten exitInputError
        (ready ++ traced ++ logged router (failureRecord failure) ++
          [(.err, (failure.diagnose query).render ++ "\n")]))
    | .ok tree =>
      let outline := if choices.tree then [(Stream.err, tree.outline ++ "\n")] else []
      match Json.writeIndented (choices.indent.getD settings.indent) tree.document.toData with
      | .error cause => .error (.excess cause)
      | .ok document =>
        .ok (.ofWritten exitOk (ready ++ outline ++ traced ++ [(.out, document ++ "\n")]))

/-- Carry out the command. Logging is set up before the configuration is loaded. -/
def run (view : Files.View) (environment : Environment) (arguments : List String)
    (input : String) : Except Breakdown Outcome :=
  match readChoices arguments with
  | .error stop => .ok (.ofStop stop)
  | .ok choices => do
    let router ← choices.router
    match ← choices.sources.load view environment with
    | .error problem => return .ofWritten exitConfigError (logged router (problemRecord problem))
    | .ok settings =>
      compileQuery router choices settings (choices.query.getD (readInput input))

end BoolQuery.Command.Compile
