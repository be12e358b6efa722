import BoolQuery.Text.Hex

/-! Strings of TOML.

A basic string stands between double quotes and has escapes, a literal one between single quotes
and has none. Either kind may span lines between three quotes. Control characters other than the
tab, and the line feed in a string that spans lines, are refused.
-/

set_option autoImplicit false

namespace BoolQuery.Toml

def isGap (c : Char) : Bool := c == ' ' || c == '\t'

def isLooseGap (c : Char) : Bool := isGap c || c == '\n'

def skipGap (input : List Char) : List Char := input.dropWhile isGap

/-- Control characters that a comment or a string must not hold. -/
def isForbidden (c : Char) : Bool := (c.toNat < 0x20 || c.toNat == 0x7f) && c != '\t'

/-- The character with a code point given by hexadecimal digits, if there is one. -/
def codeChar? (width : Nat) (input : List Char) : Option (Char × List Char) := do
  let digits := input.take width
  let code ← Text.hexNumber? digits
  if digits.length = width ∧ (code < 0xd800 ∨ (0xe000 ≤ code ∧ code < 0x110000)) then
    some (Char.ofNat code, input.drop width)
  else none

def readEscape : List Char → Option (Char × List Char)
  | 'b' :: rest => some ('\x08', rest)
  | 't' :: rest => some ('\t', rest)
  | 'n' :: rest => some ('\n', rest)
  | 'f' :: rest => some ('\x0c', rest)
  | 'r' :: rest => some ('\r', rest)
  | '"' :: rest => some ('"', rest)
  | '\\' :: rest => some ('\\', rest)
  | 'u' :: rest => codeChar? 4 rest
  | 'U' :: rest => codeChar? 8 rest
  | _ => none

/-- What follows a backslash at the end of a line: all blanks up to the next other character. -/
def afterFold? (input : List Char) : Option (List Char) :=
  match input with
  | c :: _ =>
    if isLooseGap c then
      match skipGap input with
      | '\n' :: rest => some (rest.dropWhile isLooseGap)
      | _ => none
    else none
  | [] => none

/-- The characters of a basic string on one line, after its opening quote. -/
def readBasic : Nat → List Char → Option (List Char × List Char)
  | 0, _ => none
  | _, [] => none
  | _, '"' :: rest => some ([], rest)
  | fuel + 1, '\\' :: rest => do
    let (c, rest) ← readEscape rest
    let (text, rest) ← readBasic fuel rest
    return (c :: text, rest)
  | fuel + 1, c :: rest => do
    if isForbidden c then none
    else
      let (text, rest) ← readBasic fuel rest
      return (c :: text, rest)

/-- Up to two quotes right after the closing three belong to the string. -/
def trailingQuotes (quote : Char) (input : List Char) : List Char × List Char :=
  let quotes := (input.take 2).takeWhile (· == quote)
  (quotes, input.drop quotes.length)

def readLongBasic : Nat → List Char → Option (List Char × List Char)
  | 0, _ => none
  | _, [] => none
  | _, '"' :: '"' :: '"' :: rest => some (trailingQuotes '"' rest)
  | fuel + 1, '\\' :: rest =>
    match afterFold? rest with
    | some rest => readLongBasic fuel rest
    | none => do
      let (c, rest) ← readEscape rest
      let (text, rest) ← readLongBasic fuel rest
      return (c :: text, rest)
  | fuel + 1, c :: rest => do
    if isForbidden c && c != '\n' then none
    else
      let (text, rest) ← readLongBasic fuel rest
      return (c :: text, rest)

def readLiteral : List Char → Option (List Char × List Char)
  | [] => none
  | '\x27' :: rest => some ([], rest)
  | c :: rest =>
    if isForbidden c then none
    else (readLiteral rest).map fun (text, rest) => (c :: text, rest)

def readLongLiteral : List Char → Option (List Char × List Char)
  | [] => none
  | '\x27' :: '\x27' :: '\x27' :: rest => some (trailingQuotes '\x27' rest)
  | c :: rest =>
    if isForbidden c && c != '\n' then none
    else (readLongLiteral rest).map fun (text, rest) => (c :: text, rest)

/-- A line end right after the opening quotes is not part of the string. -/
def dropFirstLineEnd : List Char → List Char
  | '\n' :: rest => rest
  | input => input

def readShortText (input : List Char) : Option (List Char × List Char) :=
  match input with
  | '"' :: rest => readBasic (rest.length + 1) rest
  | '\x27' :: rest => readLiteral rest
  | _ => none

def readText (input : List Char) : Option (List Char × List Char) :=
  match input with
  | '"' :: '"' :: '"' :: rest => readLongBasic (rest.length + 1) (dropFirstLineEnd rest)
  | '\x27' :: '\x27' :: '\x27' :: rest => readLongLiteral (dropFirstLineEnd rest)
  | _ => readShortText input

end BoolQuery.Toml
