import BoolQuery.Data.Basic
import BoolQuery.Text.Hex

/-! Reading JSON.

A number without fraction and exponent is an integer of any size, any other number a float. Of
two members with one name the later value counts. Each reader takes its part from the front of
the text and returns what follows; nesting is bounded by the length of the text.
-/

set_option autoImplicit false

namespace BoolQuery.Json

/-- Blanks between the parts of a JSON text. -/
def isGap (c : Char) : Bool := c == ' ' || c == '\t' || c == '\n' || c == '\r'

def skipGap (input : List Char) : List Char := input.dropWhile isGap

def pairChar? (high low : Nat) : Option Char :=
  if 0xd800 ≤ high ∧ high < 0xdc00 ∧ 0xdc00 ≤ low ∧ low < 0xe000 then
    some (Char.ofNat (0x10000 + (high - 0xd800) * 0x400 + (low - 0xdc00)))
  else none

def unitChar? (unit : Nat) : Option Char :=
  if 0xd800 ≤ unit ∧ unit < 0xe000 then none else some (Char.ofNat unit)

def escapedChar? (c : Char) : Option Char :=
  if c = '"' ∨ c = '\\' ∨ c = '/' then some c
  else if c = 'n' then some '\n'
  else if c = 'r' then some '\r'
  else if c = 't' then some '\t'
  else if c = 'b' then some '\x08'
  else if c = 'f' then some '\x0c'
  else none

/-- The characters of a string after its opening quote, and what follows the closing one. -/
def readText : List Char → Option (List Char × List Char)
  | [] => none
  | '"' :: rest => some ([], rest)
  | '\\' :: 'u' :: a :: b :: c :: d :: rest => do
    let unit ← Text.hexNumber? [a, b, c, d]
    match unitChar? unit with
    | some char =>
      let (text, after) ← readText rest
      some (char :: text, after)
    -- A unit that is no character by itself must begin a pair.
    | none =>
      match rest with
      | '\\' :: 'u' :: e :: f :: g :: h :: rest =>
        let char ← pairChar? unit (← Text.hexNumber? [e, f, g, h])
        let (text, after) ← readText rest
        some (char :: text, after)
      | _ => none
  | '\\' :: c :: rest => do
    let char ← escapedChar? c
    let (text, after) ← readText rest
    some (char :: text, after)
  | c :: rest =>
    if c.toNat < 0x20 || c == '\\' then none
    else (readText rest).map fun (text, after) => (c :: text, after)

def digitsValue (digits : List Char) : Nat :=
  digits.foldl (fun value c => value * 10 + (c.toNat - 48)) 0

def readDigits? (input : List Char) : Option (List Char × List Char) :=
  let digits := input.takeWhile Char.isDigit
  if digits.isEmpty then none else some (digits, input.dropWhile Char.isDigit)

def readFraction (input : List Char) : Option (Option (List Char) × List Char) :=
  match input with
  | '.' :: rest => (readDigits? rest).map fun (digits, after) => (some digits, after)
  | _ => some (none, input)

def readExponent (input : List Char) : Option (Option Int × List Char) :=
  match input with
  | mark :: rest =>
    if mark = 'e' ∨ mark = 'E' then
      let (negative, digits) := match rest with
        | '-' :: digits => (true, digits)
        | '+' :: digits => (false, digits)
        | digits => (false, digits)
      (readDigits? digits).map fun (digits, after) =>
        let value : Int := digitsValue digits
        (some (if negative then -value else value), after)
    else some (none, input)
  | [] => some (none, [])

/-- A number. Its whole part has no leading zero. -/
def readNumber (input : List Char) : Option (Data × List Char) := do
  let (negative, input) := match input with
    | '-' :: rest => (true, rest)
    | _ => (false, input)
  let (whole, rest) ← readDigits? input
  if whole.head? = some '0' ∧ 1 < whole.length then none
  else
    let (fraction, rest) ← readFraction rest
    let (exponent, rest) ← readExponent rest
    match fraction, exponent with
    | none, none =>
      let value : Int := digitsValue whole
      some (.int (if negative then -value else value), rest)
    | _, _ =>
      let places := fraction.getD []
      let mantissa := digitsValue (whole ++ places)
      some (.float (.ofDecimal negative mantissa (exponent.getD 0 - places.length)), rest)

def readWord (word : String) (value : Data) (input : List Char) : Option (Data × List Char) :=
  if word.toList.isPrefixOf input then some (value, input.drop word.length) else none

mutual

def readValue : Nat → List Char → Option (Data × List Char)
  | 0, _ => none
  | fuel + 1, input =>
    match skipGap input with
    | [] => none
    | '"' :: rest => (readText rest).map fun (text, after) => (.text (String.ofList text), after)
    | '[' :: rest =>
      match skipGap rest with
      | ']' :: after => some (.list [], after)
      | _ => (readItems fuel rest).map fun (items, after) => (.list items, after)
    | '\x7b' :: rest =>
      match skipGap rest with
      | '\x7d' :: after => some (.object [], after)
      | _ => (readMembers fuel [] rest).map fun (members, after) => (.object members, after)
    | 'n' :: rest => readWord "null" .null ('n' :: rest)
    | 't' :: rest => readWord "true" (.bool true) ('t' :: rest)
    | 'f' :: rest => readWord "false" (.bool false) ('f' :: rest)
    | input => readNumber input

/-- The items of a list, at least one, and its closing bracket. -/
def readItems : Nat → List Char → Option (List Data × List Char)
  | 0, _ => none
  | fuel + 1, input => do
    let (item, rest) ← readValue fuel input
    match skipGap rest with
    | ',' :: rest =>
      let (others, after) ← readItems fuel rest
      some (item :: others, after)
    | ']' :: after => some ([item], after)
    | _ => none

/-- The members of an object, at least one, after those that were read, and its closing brace. -/
def readMembers : Nat → Members → List Char → Option (Members × List Char)
  | 0, _, _ => none
  | fuel + 1, members, input => do
    match skipGap input with
    | '"' :: rest =>
      let (name, rest) ← readText rest
      match skipGap rest with
      | ':' :: rest =>
        let (value, rest) ← readValue fuel rest
        let members := members.put (String.ofList name) value
        match skipGap rest with
        | ',' :: rest => readMembers fuel members rest
        | '\x7d' :: after => some (members, after)
        | _ => none
      | _ => none
    | _ => none

end

/-- The value of a JSON text that holds nothing else. -/
def read (text : String) : Option Data :=
  let input := text.toList
  match readValue (2 * input.length + 2) input with
  | some (value, rest) => if (skipGap rest).isEmpty then some value else none
  | none => none

end BoolQuery.Json
