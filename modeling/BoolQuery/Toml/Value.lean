import BoolQuery.Toml.Moment
import BoolQuery.Toml.Table
import BoolQuery.Toml.Text

/-! Keys and values of TOML. -/

set_option autoImplicit false

namespace BoolQuery.Toml

def require {α : Type} (found : Option α) : Except Error α :=
  match found with
  | some value => .ok value
  | none => .error .malformed

def isBareKeyChar (c : Char) : Bool := c.isAlphanum || c == '-' || c == '_'

def readKeyPart (input : List Char) : Except Error (String × List Char) :=
  let bare := input.takeWhile isBareKeyChar
  if bare.isEmpty then do
    let (text, rest) ← require (readShortText input)
    return (String.ofList text, rest)
  else .ok (String.ofList bare, input.dropWhile isBareKeyChar)

/-- A key, and the blanks after it. The fuel is at least the length of the text. -/
def readKey : Nat → List Char → Except Error (Key × List Char)
  | 0, _ => .error .malformed
  | fuel + 1, input => do
    let (part, rest) ← readKeyPart input
    match skipGap rest with
    | '.' :: rest =>
      let (others, rest) ← readKey fuel (skipGap rest)
      return (part :: others, rest)
    | rest => return ([part], rest)

def skipComment (input : List Char) : Except Error (List Char) :=
  match input with
  | '#' :: rest =>
    let comment := rest.takeWhile (· != '\n')
    if comment.any isForbidden then .error .malformed else .ok (rest.dropWhile (· != '\n'))
  | _ => .ok input

/-- What follows blanks, line ends and comments between the items of an array; at first within a
comment, or not. -/
def skipBetween : Bool → List Char → Except Error (List Char)
  | _, [] => .ok []
  | true, c :: rest =>
    if c = '\n' then skipBetween false rest
    else if isForbidden c then .error .malformed
    else skipBetween true rest
  | false, c :: rest =>
    if isLooseGap c then skipBetween false rest
    else if c = '#' then skipBetween true rest
    else .ok (c :: rest)

/-- The steps down that nested values may take from a statement. -/
def deepest : Nat := 986

/-- The steps down from an array to its items. -/
def arraySteps : Nat := 2

/-- The steps down from an inline table to its values. -/
def tableSteps : Nat := 3

mutual

/-- A value of any kind. The fuel is at least twice the length of the text; `depth` is the number
of steps that can still be taken down. -/
def readValue : Nat → Nat → List Char → Except Error (Data × List Char)
  | 0, _, _ => .error .malformed
  | fuel + 1, depth, input =>
    match input with
    | [] => .error .malformed
    | '"' :: _ => do
      let (text, rest) ← require (readText input)
      return (.text (String.ofList text), rest)
    | '\x27' :: _ => do
      let (text, rest) ← require (readText input)
      return (.text (String.ofList text), rest)
    | 't' :: 'r' :: 'u' :: 'e' :: rest => .ok (.bool true, rest)
    | 'f' :: 'a' :: 'l' :: 's' :: 'e' :: rest => .ok (.bool false, rest)
    | '[' :: rest => do
      if depth < arraySteps then throw .tooDeep
      let (items, rest) ← readItems fuel (depth - arraySteps) (← skipBetween false rest)
      return (.list items, rest)
    | '\x7b' :: rest => do
      if depth < tableSteps then throw .tooDeep
      match skipGap rest with
      | '\x7d' :: rest => return (.object [], rest)
      | rest =>
        let (table, rest) ← readInline fuel (depth - tableSteps) [] {} rest
        return (.object table, rest)
    | _ =>
      match (readMoment? input).or (readNumber? input) with
      | some reading => reading
      | none => .error .malformed

/-- The items of an array up to its closing bracket, before which a comma may stand. -/
def readItems : Nat → Nat → List Char → Except Error (List Data × List Char)
  | 0, _, _ => .error .malformed
  | fuel + 1, depth, input =>
    match input with
    | ']' :: rest => .ok ([], rest)
    | _ => do
      let (item, rest) ← readValue fuel depth input
      match ← skipBetween false rest with
      | ']' :: rest => return ([item], rest)
      | ',' :: rest =>
        let (others, rest) ← readItems fuel depth (← skipBetween false rest)
        return (item :: others, rest)
      | _ => throw .malformed

/-- The members of an inline table, at least one, and its closing brace. -/
def readInline :
    Nat → Nat → Members → Marks → List Char → Except Error (Members × List Char)
  | 0, _, _, _, _ => .error .malformed
  | fuel + 1, depth, table, marks, input => do
    let (key, value, rest) ← readPair fuel depth input
    if marks.isClosed key then throw .malformed
    let table ← require
      (change? .tables (add? (key.getLast?.getD "") value) key.dropLast table)
    match skipGap rest with
    | '\x7d' :: rest => return (table, rest)
    -- Within an inline table only what precedes a comma can be met again.
    | ',' :: rest =>
      let marks := match value with
        | .object _ | .list _ => marks.close key
        | _ => marks
      readInline fuel depth table marks (skipGap rest)
    | _ => throw .malformed

def readPair : Nat → Nat → List Char → Except Error (Key × Data × List Char)
  | 0, _, _ => .error .malformed
  | fuel + 1, depth, input => do
    let (key, rest) ← readKey fuel input
    match rest with
    | '=' :: rest => readValue fuel depth (skipGap rest) >>= fun (value, rest) =>
      return (key, value, rest)
    | _ => throw .malformed

end

end BoolQuery.Toml
