import BoolQuery.Text.Blank
import BoolQuery.Text.Digit

/-! Whole numbers written in decimal.

A numeral is an optional sign and a row of digits of any script, with single underscores allowed
between two digits. Spaces may surround it, except for the information separators of ASCII. It
has at most 4300 digits, leading zeros included.
-/

set_option autoImplicit false

namespace BoolQuery.Numeral

/-- A longer row of digits is refused. -/
def maxDigits : Nat := 4300

def isPadding (c : Char) : Bool := Text.isSpace c && !('\x1c' ≤ c && c ≤ '\x1f')

/-- The digits after a digit, each with or without an underscore before it. -/
def readMoreDigits : List Char → Option (List Nat)
  | [] => some []
  | '_' :: c :: rest => do
    let digit ← Text.digitValue? c
    let others ← readMoreDigits rest
    return digit :: others
  | c :: rest => do
    let digit ← Text.digitValue? c
    let others ← readMoreDigits rest
    return digit :: others

def readDigits : List Char → Option (List Nat)
  | [] => none
  | c :: rest => do
    let digit ← Text.digitValue? c
    let others ← readMoreDigits rest
    return digit :: others

def value (digits : List Nat) : Nat := digits.foldl (fun total digit => total * 10 + digit) 0

def readNatural (text : List Char) : Option Nat := do
  let digits ← readDigits text
  if digits.length ≤ maxDigits then some (value digits) else none

def readSigned (text : List Char) : Option Int :=
  match text with
  | '+' :: digits => (readNatural digits).map Int.ofNat
  | '-' :: digits => (readNatural digits).map fun number => -(number : Int)
  | digits => (readNatural digits).map Int.ofNat

def read (text : List Char) : Option Int := readSigned (Text.trimWhile isPadding text)

end BoolQuery.Numeral
