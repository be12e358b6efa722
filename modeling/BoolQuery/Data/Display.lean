import BoolQuery.Data.Basic
import BoolQuery.Text.Quoted

/-! The display form of a value, as it stands in messages and text logs: quoted texts, brackets
and braces, and capitalised words for the constants. -/

set_option autoImplicit false

namespace BoolQuery.Data

/-- An integer is written in text only if it has at most this many digits. -/
def maxTextDigits : Nat := 4300

def textBound : Nat := Nat.pow 10 maxTextDigits

def isShortInt (value : Int) : Bool := value.natAbs < textBound

mutual

def hasText : Data → Bool
  | .int value => isShortInt value
  | .list items => allHaveText items
  | .object members => allMembersHaveText members
  | _ => true

def allHaveText : List Data → Bool
  | [] => true
  | item :: rest => hasText item && allHaveText rest

def allMembersHaveText : List (String × Data) → Bool
  | [] => true
  | (_, value) :: rest => hasText value && allMembersHaveText rest

end

/-- What keeps a value from being displayed. -/
inductive TextFault where
  -- An integer has too many digits.
  | oversized
  | tooDeep
  deriving DecidableEq, Repr

mutual

/-- The first fault that displaying a value meets, if only so many steps can be taken down to
items and members. -/
def textFault? (steps : Nat) : Data → Option TextFault
  | .int value => if isShortInt value then none else some .oversized
  | .list items => itemsFault? steps items
  | .object members => membersFault? steps members
  | _ => none

def itemsFault? (steps : Nat) : List Data → Option TextFault
  | [] => none
  | item :: rest =>
    if steps = 0 then some .tooDeep
    else (textFault? (steps - 1) item).or (itemsFault? steps rest)

def membersFault? (steps : Nat) : List (String × Data) → Option TextFault
  | [] => none
  | (_, value) :: rest =>
    if steps = 0 then some .tooDeep
    else (textFault? (steps - 1) value).or (membersFault? steps rest)

end

mutual

def display : Data → List Char
  | .null => "None".toList
  | .bool true => "True".toList
  | .bool false => "False".toList
  | .int value => (toString value).toList
  | .float value => value.render "inf" "nan"
  | .text value => Text.quoteChars value.toList
  | .list [] => ['[', ']']
  | .list (item :: rest) => '[' :: display item ++ displayItems rest
  | .object [] => ['\x7b', '\x7d']
  | .object ((name, value) :: rest) =>
    '\x7b' :: Text.quoteChars name.toList ++ [':', ' '] ++ display value ++ displayMembers rest

/-- The items after the first one, and the closing bracket. -/
def displayItems : List Data → List Char
  | [] => [']']
  | item :: rest => [',', ' '] ++ display item ++ displayItems rest

/-- The members after the first one, and the closing brace. -/
def displayMembers : List (String × Data) → List Char
  | [] => ['\x7d']
  | (name, value) :: rest =>
    [',', ' '] ++ Text.quoteChars name.toList ++ [':', ' '] ++ display value ++
      displayMembers rest

end

/-- The plain form: a text stands for itself, other values are displayed. -/
def plain : Data → List Char
  | .text value => value.toList
  | value => value.display

end BoolQuery.Data
