import BoolQuery.Toml.Value

/-! Documents of TOML.

A document is a row of statements, one a line: a pair adds a value to the table of the last
header, a header in single brackets opens a table, one in double brackets begins a new table of
an array.
-/

set_option autoImplicit false

namespace BoolQuery.Toml

structure Progress where
  root : Members := []
  marks : Marks := {}
  header : Key := []

def isInline : Data → Bool
  | .object _ | .list _ => true
  | _ => false

/-- Add a pair. The tables that its dotted key passes through must not have been opened by a
header, and can no longer be. -/
def Progress.addPair (progress : Progress) (key : Key) (value : Data) : Except Error Progress := do
  -- The tables between the last header and the name that gets the value.
  let through := (List.range (key.length - 1)).map fun count =>
    progress.header ++ key.take (count + 1)
  if through.any progress.marks.isOpened then throw .malformed
  let marks := through.foldl Marks.openLater progress.marks
  let parent := progress.header ++ key.dropLast
  if marks.isClosed parent then throw .malformed
  let root ← require
    (change? .tablesAndArrays (add? (key.getLast?.getD "") value) parent progress.root)
  let marks := if isInline value then marks.close (progress.header ++ key) else marks
  return { progress with root, marks }

def Progress.openTable (progress : Progress) (key : Key) : Except Error Progress := do
  if progress.marks.isOpened key || progress.marks.isClosed key then throw .malformed
  let root ← require (change? .tablesAndArrays some key progress.root)
  return { root, marks := progress.marks.open key, header := key }

/-- Begin a new table of an array. What was marked inside the table before it is forgotten. -/
def Progress.openItem (progress : Progress) (key : Key) : Except Error Progress := do
  if progress.marks.isClosed key then throw .malformed
  let root ← require
    (change? .tablesAndArrays (append? (key.getLast?.getD "")) key.dropLast progress.root)
  return { root, marks := (progress.marks.forget key).open key, header := key }

/-- One statement, after the blanks before it. The fuel is more than the length of the text. -/
def readStatement (fuel : Nat) (progress : Progress) (input : List Char) :
    Except Error (Progress × List Char) :=
  let settled := { progress with marks := progress.marks.settle }
  match input with
  | '[' :: '[' :: rest => do
    let (key, rest) ← readKey fuel (skipGap rest)
    let progress ← settled.openItem key
    match rest with
    | ']' :: ']' :: rest => return (progress, rest)
    | _ => throw .malformed
  | '[' :: rest => do
    let (key, rest) ← readKey fuel (skipGap rest)
    let progress ← settled.openTable key
    match rest with
    | ']' :: rest => return (progress, rest)
    | _ => throw .malformed
  | _ => do
    let (key, value, rest) ← readPair (2 * fuel) deepest input
    let progress ← progress.addPair key value
    return (progress, rest)

/-- The statement of a line, if there is one, and what follows it. -/
def readContent (fuel : Nat) (progress : Progress) (input : List Char) :
    Except Error (Progress × List Char) :=
  match input with
  | [] | '\n' :: _ | '#' :: _ => .ok (progress, input)
  | _ => do
    let (progress, rest) ← readStatement fuel progress input
    return (progress, skipGap rest)

def readLines : Nat → Progress → List Char → Except Error Progress
  | 0, _, _ => .error .malformed
  | fuel + 1, progress, input => do
    let (progress, rest) ← readContent (fuel + 1) progress (skipGap input)
    -- A comment may end a line.
    match ← skipComment rest with
    | [] => return progress
    | '\n' :: rest => readLines fuel progress rest
    | _ => throw .malformed

def joinLineEnds : List Char → List Char
  | [] => []
  | '\r' :: '\n' :: rest => '\n' :: joinLineEnds rest
  | c :: rest => c :: joinLineEnds rest

def read (text : String) : Except Error Members := do
  let input := joinLineEnds text.toList
  let progress ← readLines (input.length + 1) {} input
  return progress.root

end BoolQuery.Toml
