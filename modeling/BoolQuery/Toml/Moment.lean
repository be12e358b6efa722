import BoolQuery.Toml.Number

/-! Dates and times of TOML.

A moment is a date, a time or both, the latter with an optional offset from universal time. Only
its text is kept.
-/

set_option autoImplicit false

namespace BoolQuery.Toml

def readFixed? (width : Nat) (input : List Char) : Option (Nat × List Char) :=
  let digits := input.take width
  if digits.length = width && digits.all Char.isDigit then
    some (digitsValue 10 digits, input.drop width)
  else none

def expect? (wanted : Char) (input : List Char) : Option (List Char) :=
  match input with
  | c :: rest => if c = wanted then some rest else none
  | [] => none

def isLeapYear (year : Nat) : Bool := year % 4 == 0 && (year % 100 != 0 || year % 400 == 0)

def daysInMonth (year month : Nat) : Nat :=
  if month = 2 then (if isLeapYear year then 29 else 28)
  else if month = 4 ∨ month = 6 ∨ month = 9 ∨ month = 11 then 30
  else 31

/-- A date, and whether the calendar has it. -/
def readDate? (input : List Char) : Option (Bool × List Char) := do
  let (year, rest) ← readFixed? 4 input
  let (month, rest) ← readFixed? 2 (← expect? '-' rest)
  let (day, rest) ← readFixed? 2 (← expect? '-' rest)
  if 1 ≤ month ∧ month ≤ 12 ∧ 1 ≤ day ∧ day ≤ 31 then
    some (1 ≤ year && day ≤ daysInMonth year month, rest)
  else none

def readMinute? (input : List Char) : Option (List Char) := do
  let (hour, rest) ← readFixed? 2 input
  let (minute, rest) ← readFixed? 2 (← expect? ':' rest)
  if hour < 24 ∧ minute < 60 then some rest else none

def skipFraction (input : List Char) : List Char :=
  match input with
  | '.' :: c :: rest => if c.isDigit then rest.dropWhile Char.isDigit else input
  | _ => input

def readTime? (input : List Char) : Option (List Char) := do
  let rest ← readMinute? input
  let (second, rest) ← readFixed? 2 (← expect? ':' rest)
  if second < 60 then some (skipFraction rest) else none

def skipOffset (input : List Char) : List Char :=
  match input with
  | c :: rest =>
    if c = 'Z' ∨ c = 'z' then rest
    else if c = '+' ∨ c = '-' then (readMinute? rest).getD input
    else input
  | [] => []

def skipTimeOfDate (input : List Char) : List Char :=
  match input with
  | c :: rest =>
    if c = 'T' ∨ c = 't' ∨ c = ' ' then ((readTime? rest).map skipOffset).getD input else input
  | [] => []

def readMoment? (input : List Char) : Option (Except Error (Data × List Char)) :=
  let found (rest : List Char) : Data × List Char :=
    (.text (String.ofList (input.take (input.length - rest.length))), rest)
  match readDate? input with
  | some (true, rest) => some (.ok (found (skipTimeOfDate rest)))
  | some (false, _) => some (.error .malformed)
  | none => (readTime? input).map fun rest => .ok (found rest)

end BoolQuery.Toml
