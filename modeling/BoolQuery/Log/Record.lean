import BoolQuery.Data.Display

/-! Log records. -/

set_option autoImplicit false

namespace BoolQuery.Log

inductive Level where
  | notSet
  | debug
  | info
  | warning
  | error
  | critical
  deriving DecidableEq, Repr

def Level.number : Level → Int
  | .notSet => 0
  | .debug => 10
  | .info => 20
  | .warning => 30
  | .error => 40
  | .critical => 50

def Level.name : Level → String
  | .notSet => "NOTSET"
  | .debug => "DEBUG"
  | .info => "INFO"
  | .warning => "WARNING"
  | .error => "ERROR"
  | .critical => "CRITICAL"

/-- From the most severe to the least severe, the order in which users are told of them. -/
def Level.all : List Level := [.critical, .error, .warning, .info, .debug, .notSet]

def levelName (number : Int) : String :=
  match Level.all.find? fun level => level.number == number with
  | some level => level.name
  | none => "Level " ++ toString number

/-- The value of a field. A path has no JSON form of its own and is written as its text. -/
inductive Field where
  | data (value : Data)
  | path (text : String)
  deriving Inhabited

abbrev Fields := List (String × Field)

/-- Give a name a value; a name that is present keeps its place. -/
def Fields.put (fields : Fields) (name : String) (value : Field) : Fields :=
  match fields with
  | [] => [(name, value)]
  | (other, old) :: rest =>
    if other = name then (name, value) :: rest else (other, old) :: Fields.put rest name value

/-- A field under this name stands in the place that a record tells its message from. -/
def messageTeller : String := "getMessage"

def Fields.hideMessage (fields : Fields) : Bool := fields.any fun field => field.1 == messageTeller

structure Fault where
  kind : String
  message : String

/-- A fault about a key shows the key in quotes. -/
def Fault.describe (fault : Fault) : String :=
  let message := if fault.kind = "KeyError" then Text.quoted fault.message else fault.message
  if message.isEmpty then fault.kind else fault.kind ++ ": " ++ message

/-- A record as a program logs it. The message may hold places for the arguments. -/
structure Record where
  logger : String
  level : Int
  message : String
  arguments : List Data := []
  fields : Fields := []
  fault : Option Fault := none

/-- The logger above all others has no name, and is shown under this one. -/
def rootName : String := "root"

def Record.loggerName (record : Record) : String :=
  if record.logger.isEmpty then rootName else record.logger

end BoolQuery.Log
