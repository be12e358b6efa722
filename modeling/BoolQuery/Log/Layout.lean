import BoolQuery.Json.Writer
import BoolQuery.Log.Record

/-! Layouts of log records: a line of text, or a JSON object on a single line.

Fields follow the record's own parts. Names that the record uses for itself, and names that
begin with an underscore, are not shown.
-/

set_option autoImplicit false

namespace BoolQuery.Log

def recordParts : List String :=
  ["name", "msg", "args", "levelname", "levelno", "pathname", "filename", "module", "exc_info",
   "exc_text", "stack_info", "lineno", "funcName", "created", "msecs", "relativeCreated",
   "thread", "threadName", "process", "processName"]

def refusedNames : List String := recordParts ++ ["message", "asctime"]

def hiddenNames : List String := refusedNames ++ ["taskName"]

def isShown (name : String) : Bool :=
  !hiddenNames.contains name && name.toList.head? != some '_'

/-- The clock is not read; this mark stands for the time. -/
def timeMark : String := "<time>"

structure Entry where
  level : String
  logger : String
  message : String
  fault : Option Fault := none
  -- A description of the fault made beforehand, which only the text layout uses.
  faultText : Option String := none
  stack : Option String := none
  fields : Fields := []

def Entry.shownFields (entry : Entry) : Fields := entry.fields.filter fun field => isShown field.1

def Entry.isWritable (entry : Entry) : Bool :=
  entry.shownFields.all fun field => match field.2 with
    | .data value => value.hasText
    | .path _ => true

/-- A text that is missing or empty is left out. -/
def presentText (text : Option String) : Option String := text.filter fun text => !text.isEmpty

def Field.plain : Field → List Char
  | .data value => value.plain
  | .path text => text.toList

def Field.toData : Field → Data
  | .data value => value
  | .path text => .text text

def appendLine (text : List Char) (line : Option String) : List Char :=
  match line with
  | none => text
  | some line => (if text.getLast? = some '\n' then text else text ++ ['\n']) ++ line.toList

def fieldPairs (fields : Fields) : List Char :=
  [' '].intercalate (fields.map fun field => field.1.toList ++ '=' :: field.2.plain)

/-- The line of text of an entry. The fields stand at the end of its first line, before the lines
of the message, the fault and the stack that follow. -/
def Entry.toText (entry : Entry) : List Char :=
  let head := (" | ".intercalate [timeMark, entry.level, entry.logger, entry.message]).toList
  let faultText := (presentText entry.faultText).or (entry.fault.map Fault.describe)
  let text := appendLine (appendLine head faultText) (presentText entry.stack)
  let fields := fieldPairs entry.shownFields
  -- The first line may end within the message.
  if fields.isEmpty then text
  else
    text.takeWhile (· != '\n') ++ " | ".toList ++ fields ++ text.dropWhile (· != '\n')

def optionalMember (name : String) (text : Option String) : Members :=
  match text with
  | none => []
  | some text => [(name, .text text)]

/-- The members of the JSON layout. A field with the name of an earlier member takes its place. -/
def Entry.members (entry : Entry) : Members :=
  let own : Members :=
    [("timestamp", .text timeMark), ("level", .text entry.level), ("logger", .text entry.logger),
     ("message", .text entry.message)] ++
      optionalMember "exception" (entry.fault.map Fault.describe) ++
      optionalMember "stack" (presentText entry.stack)
  entry.shownFields.foldl (fun members field => members.put field.1 field.2.toData) own

inductive Layout where
  | text
  | json
  deriving DecidableEq, Repr

/-- The laid out entry, without a line end; none if an integer in it is too long. -/
def Layout.render? (layout : Layout) (entry : Entry) : Option String :=
  if entry.isWritable then
    match layout with
    | .text => some (String.ofList entry.toText)
    | .json => some (Json.write .line (.object entry.members))
  else none

end BoolQuery.Log
