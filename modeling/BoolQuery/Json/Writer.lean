import BoolQuery.Data.Basic
import BoolQuery.Text.Hex
import BoolQuery.Text.Room

/-! Writing JSON.

The text holds ASCII only: a character outside it is escaped by its UTF-16 units. The whole text
is a single line, or each item stands on a line of its own, indented by its depth.
-/

set_option autoImplicit false

namespace BoolQuery.Json

def escapeUnit (unit : Nat) : List Char := '\\' :: 'u' :: Text.hexDigits 4 unit

def escapeChar (c : Char) : List Char :=
  if c = '"' then ['\\', '"']
  else if c = '\\' then ['\\', '\\']
  else if c = '\n' then ['\\', 'n']
  else if c = '\r' then ['\\', 'r']
  else if c = '\t' then ['\\', 't']
  else if c = '\x08' then ['\\', 'b']
  else if c = '\x0c' then ['\\', 'f']
  else if 0x20 ≤ c.toNat ∧ c.toNat ≤ 0x7e then [c]
  else if c.toNat < 0x10000 then escapeUnit c.toNat
  else
    escapeUnit (0xd800 + (c.toNat - 0x10000) / 0x400) ++
      escapeUnit (0xdc00 + (c.toNat - 0x10000) % 0x400)

def writeText (text : String) : List Char :=
  '"' :: text.toList.flatMap escapeChar ++ ['"']

inductive Layout where
  | line
  -- Each on a line of its own, behind so many blanks for each level of its depth.
  | block (indent : Nat)
  deriving DecidableEq, Repr

/-- What stands before an item at a depth: nothing, or a line break and the blanks. -/
def Layout.lineBreak (layout : Layout) (depth : Nat) : List Char :=
  match layout with
  | .line => []
  | .block indent => '\n' :: List.replicate (indent * depth) ' '

def Layout.separator (layout : Layout) (depth : Nat) : List Char :=
  match layout with
  | .line => [',', ' ']
  | .block _ => ',' :: layout.lineBreak depth

mutual

/-- The text of a value whose opening bracket stands at a depth. -/
def writeAt (layout : Layout) (depth : Nat) : Data → List Char
  | .null => "null".toList
  | .bool true => "true".toList
  | .bool false => "false".toList
  | .int value => (toString value).toList
  | .float value => value.render "Infinity" "NaN"
  | .text value => writeText value
  | .list [] => ['[', ']']
  | .list (item :: rest) =>
    '[' :: layout.lineBreak (depth + 1) ++ writeAt layout (depth + 1) item ++
      writeItems layout depth rest
  | .object [] => ['\x7b', '\x7d']
  | .object ((name, value) :: rest) =>
    '\x7b' :: layout.lineBreak (depth + 1) ++ writeText name ++ [':', ' '] ++
      writeAt layout (depth + 1) value ++ writeMembers layout depth rest

/-- The items after the first one, and the closing bracket. -/
def writeItems (layout : Layout) (depth : Nat) : List Data → List Char
  | [] => layout.lineBreak depth ++ [']']
  | item :: rest =>
    layout.separator (depth + 1) ++ writeAt layout (depth + 1) item ++
      writeItems layout depth rest

/-- The members after the first one, and the closing brace. -/
def writeMembers (layout : Layout) (depth : Nat) : List (String × Data) → List Char
  | [] => layout.lineBreak depth ++ ['\x7d']
  | (name, value) :: rest =>
    layout.separator (depth + 1) ++ writeText name ++ [':', ' '] ++
      writeAt layout (depth + 1) value ++ writeMembers layout depth rest

end

def write (layout : Layout) (value : Data) : String := String.ofList (writeAt layout 0 value)

/-! ## Indents -/

/-- An indent of zero gives a single line, a negative one lines without blanks. -/
def Layout.ofIndent (indent : Int) : Layout := if indent = 0 then .line else .block indent.toNat

/-- The number of blanks that fill a text up. Each step of the indent adds as many as the first. -/
def Layout.filling (layout : Layout) (value : Data) : Nat :=
  match layout with
  | .line => 0
  | .block indent =>
    indent * ((writeAt (.block 1) 0 value).length - (writeAt (.block 0) 0 value).length)

/-- The JSON text of a value at an indent, if the blanks for it can be made. An indent that is too
large is refused even where nothing is indented. -/
def writeIndented (indent : Int) (value : Data) : Except Text.Excess String := do
  Text.checkRow indent
  let layout := Layout.ofIndent indent
  Text.checkRow (layout.filling value)
  return write layout value

theorem writeIndented_eq_ok_iff {indent : Int} {value : Data} {text : String} :
    writeIndented indent value = .ok text ↔
      Text.checkRow indent = .ok () ∧
      Text.checkRow ((Layout.ofIndent indent).filling value) = .ok () ∧
      write (.ofIndent indent) value = text := by
  simp only [writeIndented, bind, Except.bind, pure, Except.pure]
  cases Text.checkRow indent with
  | error => simp
  | ok =>
    cases Text.checkRow ((Layout.ofIndent indent).filling value) with
    | error => simp
    | ok => simp

end BoolQuery.Json
