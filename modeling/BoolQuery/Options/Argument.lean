import BoolQuery.Options.Form
import BoolQuery.Text.Digit

/-! Kinds of arguments.

Before a command line is carried out every argument is told apart: an option, the two dashes
after which no option comes, or a plain argument. A long option may be shortened to any beginning
that no other option shares.
-/

set_option autoImplicit false

namespace BoolQuery.Options

/-- An option as it was written: its full name, and a value that is part of the same argument. -/
structure Found (σ : Type) where
  spec : Spec σ
  name : String
  value : Option String

inductive Kind (σ : Type) where
  | plain
  | dashes
  | option (found : Found σ)
  | unknownOption

def splitValue? (text : String) : Option (String × String) :=
  match text.toList.dropWhile (· != '=') with
  | [] => none
  | _ :: value => some (String.ofList (text.toList.takeWhile (· != '=')), String.ofList value)

/-- A minus sign and a decimal number, which may have a fraction; a line feed may end it. -/
def isNegativeNumber (text : String) : Bool :=
  match text.toList with
  | '-' :: number =>
    let number := if number.getLast? = some '\n' then number.dropLast else number
    let fraction := number.dropWhile Text.isDigit
    match fraction with
    | [] => !number.isEmpty
    | '.' :: digits => !digits.isEmpty && digits.all Text.isDigit
    | _ => false
  | _ => false

/-- The options that a shortened argument may stand for. After a single dash only the first
letter names an option, and the others are its value. -/
def Form.candidates {σ : Type} (form : Form σ) (argument : String) : List (Found σ) :=
  if argument.toList.take 2 = ['-', '-'] then
    let (beginning, value) := match splitValue? argument with
      | some (beginning, value) => (beginning, some value)
      | none => (argument, none)
    (form.named.filter fun entry => beginning.toList.isPrefixOf entry.1.toList).map fun entry =>
      ⟨entry.2, entry.1, value⟩
  else
    form.named.filterMap fun entry =>
      if entry.1.toList = argument.toList.take 2 then
        some ⟨entry.2, entry.1, some (String.ofList (argument.toList.drop 2))⟩
      else if argument.toList.isPrefixOf entry.1.toList then some ⟨entry.2, entry.1, none⟩
      else none

/-- An argument whose option, as written before any equals sign, has exactly this name. -/
def Form.exact? {σ : Type} (form : Form σ) (argument : String) : Option (Found σ) :=
  match form.named.lookup argument with
  | some spec => some ⟨spec, argument, none⟩
  | none => do
    let (name, value) ← splitValue? argument
    let spec ← form.named.lookup name
    some ⟨spec, name, some value⟩

def Form.kindOf {σ : Type} (form : Form σ) (argument : String) : Except Stop (Kind σ) :=
  -- A lone dash names no option.
  if argument = "--" then .ok .dashes
  else if argument.toList.head? ≠ some '-' ∨ argument = "-" then .ok .plain
  else match form.exact? argument with
    | some found => .ok (.option found)
    | none =>
      match form.candidates argument with
      | [found] => .ok (.option found)
      | [] =>
        if isNegativeNumber argument || argument.toList.contains ' ' then .ok .plain
        else .ok .unknownOption
      | several =>
        .error (form.misuse ("ambiguous option: " ++ argument ++ " could match " ++
          ", ".intercalate (several.map Found.name)))

/-- The arguments with their kinds; whatever follows two dashes is plain. -/
def Form.classify {σ : Type} (form : Form σ) :
    List String → Except Stop (List (String × Kind σ))
  | [] => .ok []
  | argument :: rest => do
    match ← form.kindOf argument with
    | .dashes => return (argument, .dashes) :: rest.map (·, .plain)
    | kind => return (argument, kind) :: (← form.classify rest)

end BoolQuery.Options
