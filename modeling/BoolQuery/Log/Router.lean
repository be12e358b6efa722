import BoolQuery.Log.Layout
import BoolQuery.Log.Message
import BoolQuery.Text.Letter

/-! Routing of log records.

A router lets records through by their level and hands them to its handlers, each of which
writes to one stream. Configuring a router drops its handlers before it adds others, so that none
of an earlier configuration is left.
-/

set_option autoImplicit false

namespace BoolQuery.Log

inductive Stream where
  | out
  | err
  deriving DecidableEq, Repr

/-- A handler takes the records within its bounds; a missing bound bounds nothing. -/
structure Handler where
  stream : Stream
  layout : Layout
  least : Option Int := none
  greatest : Option Int := none
  deriving DecidableEq, Repr

def Handler.accepts (handler : Handler) (level : Int) : Bool :=
  handler.least.all (· ≤ level) && handler.greatest.all (level ≤ ·)

/-- Where records go: to one stream, or by their level to either. -/
inductive Destination where
  | auto
  | out
  | err
  deriving DecidableEq, Repr

/-- Records up to the information level go to the standard output, those from the warning level
to the standard error. -/
def handlers (layout : Layout) : Destination → List Handler
  | .out => [{ stream := .out, layout }]
  | .err => [{ stream := .err, layout }]
  | .auto =>
    [{ stream := .out, layout, greatest := some Level.info.number },
     { stream := .err, layout, least := some Level.warning.number }]

structure Router where
  level : Int
  handlers : List Handler
  deriving DecidableEq, Repr

/-- Until it is configured a router writes nothing. -/
def Router.initial : Router := ⟨Level.warning.number, []⟩

inductive LevelRequest where
  | name (name : String)
  | number (level : Int)

def levelAliases : List (String × Level) := [("WARN", .warning), ("FATAL", .critical)]

def Level.ofName? (name : String) : Option Level :=
  let capitals := Text.capitals name
  (Level.all.find? fun level => level.name == capitals).or (levelAliases.lookup capitals)

structure Request where
  level : LevelRequest := .name "INFO"
  layout : Layout := .text
  destination : Destination := .auto

structure UnknownLevel where
  name : String
  deriving DecidableEq, Repr

def UnknownLevel.message (unknown : UnknownLevel) : String := "Unknown log level: " ++ unknown.name

def LevelRequest.resolve : LevelRequest → Except UnknownLevel Int
  | .number level => .ok level
  | .name wanted =>
    match Level.ofName? wanted with
    | some level => .ok level.number
    | none => .error ⟨wanted⟩

def Router.add (router : Router) (handler : Handler) : Router :=
  { router with handlers := router.handlers ++ [handler] }

/-- The level is found before anything is changed, so a request for an unknown one leaves the
router as it was. Any other drops all handlers and adds its own, one after another. -/
def Router.configure (router : Router) (request : Request) : Router × Option UnknownLevel :=
  match request.level.resolve with
  | .error unknown => (router, some unknown)
  | .ok level =>
    let cleared : Router := { router with handlers := [] }
    let own := Log.handlers request.layout request.destination
    (own.foldl Router.add { cleared with level }, none)

/-- Whether records of a level pass. Those without a positive level never do. -/
def Router.passes (router : Router) (level : Int) : Bool := 0 < level && router.level ≤ level

/-- A field whose name the record uses for itself. -/
structure NameClash where
  name : String
  deriving DecidableEq, Repr

def NameClash.message (clash : NameClash) : String :=
  "Attempt to overwrite " ++ Text.quoted clash.name ++ " in LogRecord"

def Record.entry? (record : Record) : Option Entry :=
  match tellMessage record.fields record.message (.ofList record.arguments) with
  | .error _ => none
  | .ok message =>
    some {
      level := levelName record.level
      logger := record.loggerName
      message
      fault := record.fault
      fields := record.fields }

/-- The lines that a record gives, each with the stream that it goes to. A record that is let
through must not hold a field under a refused name. -/
def Router.emit (router : Router) (record : Record) :
    Except NameClash (List (Stream × String)) :=
  -- Fields of a record that does not pass are never looked at.
  if !router.passes record.level then .ok []
  else
    match record.fields.find? fun field => refusedNames.contains field.1 with
    | some field => .error ⟨field.1⟩
    | none =>
      .ok ((router.handlers.filter (·.accepts record.level)).filterMap fun handler => do
        let entry ← record.entry?
        let line ← handler.layout.render? entry
        some (handler.stream, line ++ "\n"))

end BoolQuery.Log
