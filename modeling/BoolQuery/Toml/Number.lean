import BoolQuery.Data.Display
import BoolQuery.Text.Hex

/-! Numbers of TOML.

Digits may have single underscores between them. A whole number is decimal, without leading
zeros, or hexadecimal, octal or binary; a decimal one of more than 4300 digits is oversized.
-/

set_option autoImplicit false

namespace BoolQuery.Toml

inductive Error where
  -- The text is no document.
  | malformed
  -- A decimal number has too many digits.
  | oversized
  -- Values are nested too deep to be read.
  | tooDeep
  deriving DecidableEq, Repr

def readMoreDigits (isDigit : Char → Bool) : List Char → List Char × List Char
  | [] => ([], [])
  | [c] => if isDigit c then ([c], []) else ([], [c])
  | '_' :: c :: rest =>
    if isDigit c then
      let (digits, rest) := readMoreDigits isDigit rest
      (c :: digits, rest)
    else ([], '_' :: c :: rest)
  | c :: rest =>
    if isDigit c then
      let (digits, rest) := readMoreDigits isDigit rest
      (c :: digits, rest)
    else ([], c :: rest)

def readDigits? (isDigit : Char → Bool) (input : List Char) : Option (List Char × List Char) :=
  match input with
  | c :: rest =>
    if isDigit c then
      let (digits, rest) := readMoreDigits isDigit rest
      some (c :: digits, rest)
    else none
  | [] => none

def digitsValue (base : Nat) (digits : List Char) : Nat :=
  digits.foldl (fun total c => total * base + (Text.hexValue? c).getD 0) 0

/-- A whole number after the mark of a base other than ten. -/
def readBased? (input : List Char) : Option (Data × List Char) :=
  let based (base : Nat) (isDigit : Char → Bool) (rest : List Char) :=
    (readDigits? isDigit rest).map fun (digits, rest) =>
      (Data.int (digitsValue base digits), rest)
  match input with
  | '0' :: 'x' :: rest => based 16 (fun c => (Text.hexValue? c).isSome) rest
  | '0' :: 'o' :: rest => based 8 (fun c => '0' ≤ c && c ≤ '7') rest
  | '0' :: 'b' :: rest => based 2 (fun c => c == '0' || c == '1') rest
  | _ => none

def readFraction? (input : List Char) : Option (List Char × List Char) :=
  match input with
  | '.' :: rest => readDigits? Char.isDigit rest
  | _ => none

def readSign (input : List Char) : Bool × List Char :=
  match input with
  | '-' :: rest => (true, rest)
  | '+' :: rest => (false, rest)
  | _ => (false, input)

def readExponent? (input : List Char) : Option (Int × List Char) :=
  match input with
  | mark :: rest =>
    if mark = 'e' ∨ mark = 'E' then
      let (negative, rest) := readSign rest
      (readDigits? Char.isDigit rest).map fun (digits, rest) =>
        let power : Int := digitsValue 10 digits
        (if negative then -power else power, rest)
    else none
  | [] => none

/-- The digits of the whole part of a decimal: a single zero, or no zero in front. -/
def readWhole? (input : List Char) : Option (List Char × List Char) :=
  match input with
  | '0' :: rest => some (['0'], rest)
  | _ => readDigits? Char.isDigit input

/-- A decimal: whole if it has neither a fraction nor an exponent. -/
def readDecimal? (input : List Char) : Option (Except Error (Data × List Char)) :=
  let (negative, input) := readSign input
  (readWhole? input).map fun (whole, rest) =>
    let fraction := readFraction? rest
    let rest := (fraction.map (·.2)).getD rest
    let exponent := readExponent? rest
    let rest := (exponent.map (·.2)).getD rest
    if fraction.isNone && exponent.isNone then
      let value : Int := digitsValue 10 whole
      if Data.maxTextDigits < whole.length then .error .oversized
      else .ok (.int (if negative then -value else value), rest)
    else
      let places := (fraction.map (·.1)).getD []
      let power := (exponent.map (·.1)).getD 0 - places.length
      .ok (.float (.ofDecimal negative (digitsValue 10 (whole ++ places)) power), rest)

def notANumber : Binary64 := ⟨0x7ff8000000000000⟩

def positiveInfinity : Binary64 := ⟨0x7ff0000000000000⟩

def negativeInfinity : Binary64 := ⟨0xfff0000000000000⟩

def readSpecial? (input : List Char) : Option (Data × List Char) :=
  let (negative, rest) := readSign input
  match rest with
  | 'i' :: 'n' :: 'f' :: rest =>
    some (.float (if negative then negativeInfinity else positiveInfinity), rest)
  | 'n' :: 'a' :: 'n' :: rest => some (.float notANumber, rest)
  | _ => none

def readNumber? (input : List Char) : Option (Except Error (Data × List Char)) :=
  match readBased? input with
  | some found => some (.ok found)
  | none => (readDecimal? input).or ((readSpecial? input).map .ok)

end BoolQuery.Toml
