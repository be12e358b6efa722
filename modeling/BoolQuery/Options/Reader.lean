import BoolQuery.Options.Argument
import BoolQuery.Text.Quoted

/-! Reading command lines.

Arguments are carried out from left to right. Plain arguments go into the place that the command
has for them; what finds no place, and options that the form does not know, are left over.
-/

set_option autoImplicit false

namespace BoolQuery.Options

inductive Place (σ : Type) where
  | none
  -- At most one argument.
  | one (set : String → σ → σ)
  -- An argument and everything after it, some of which may be left over.
  | rest (take : String → List String → σ → Except Stop (σ × List String))

/-- The place of plain arguments while a line is read. Two dashes right after an argument are
dropped along with it. -/
inductive Slot (σ : Type) where
  | free (place : Place σ)
  | closing
  | closed

/-- The choices made so far, and what is left over, first by this form and then by the command
that took the rest of the line. -/
structure Reading (σ : Type) where
  choices : σ
  slot : Slot σ
  leftOver : List String := []
  leftByRest : List String := []

def Reading.leave {σ : Type} (reading : Reading σ) (argument : String) : Reading σ :=
  { reading with slot := .closed, leftOver := reading.leftOver ++ [argument] }

/-- The options without a value that one argument spells out: letters after a single dash are
options of their own. -/
def Form.switches {σ : Type} (form : Form σ) : Nat → Found σ → Except Stop (List (Spec σ))
  | 0, _ => .ok []
  | fuel + 1, found =>
    match found.value with
    | none => .ok [found.spec]
    | some value =>
      let ignored := form.argumentMisuse found.spec.title
        ("ignored explicit argument " ++ Text.quoted value)
      match found.name.toList.drop 1, value.toList with
      | '-' :: _, _ => .error ignored
      | _, [] => .error ignored
      | _, letter :: others =>
        let name := String.ofList ['-', letter]
        match form.named.lookup name with
        | none => .error ignored
        | some spec => do
          let value := if others.isEmpty then none else some (String.ofList others)
          return found.spec :: (← form.switches fuel ⟨spec, name, value⟩)

def Form.flip {σ : Type} (form : Form σ) (choices : σ) (spec : Spec σ) : Except Stop σ :=
  match spec.action with
  | .help => .error (.help form.helpText)
  | .switch set => .ok (set choices)
  | .value _ => .error (form.argumentMisuse spec.title "expected one argument")

/-- A value that is part of the same argument as its option. Two dashes are dropped here as they
are between arguments, so that no value is left. -/
def joinedValue? (value : String) : Option String := if value = "--" then none else some value

def Form.assign {σ : Type} (form : Form σ) (spec : Spec σ)
    (set : Option String → σ → Except String σ) (value : Option String) (choices : σ) :
    Except Stop σ :=
  match set value choices with
  | .ok choices => .ok choices
  | .error message => .error (form.argumentMisuse spec.title message)

def Form.carryOut {σ : Type} (form : Form σ) :
    Reading σ → List (String × Kind σ) → Except Stop (Reading σ)
  | reading, [] => .ok reading
  | reading, (argument, .unknownOption) :: rest =>
    let slot := match reading.slot with
      | .closing => .closed
      | slot => slot
    form.carryOut { reading with slot, leftOver := reading.leftOver ++ [argument] } rest
  | reading, (_, .option found) :: rest => do
    let slot := match reading.slot with
      | .closing => .closed
      | slot => slot
    match found.spec.action, found.value with
    | .value set, some value =>
      let choices ← form.assign found.spec set (joinedValue? value) reading.choices
      form.carryOut { reading with choices, slot } rest
    | .value set, none =>
      match rest with
      | (value, .plain) :: rest =>
        let choices ← form.assign found.spec set (some value) reading.choices
        form.carryOut { reading with choices, slot } rest
      | _ => throw (form.argumentMisuse found.spec.title "expected one argument")
    | _, _ =>
      let specs ← form.switches (((found.value.getD "").length) + 1) found
      let choices ← specs.foldlM form.flip reading.choices
      form.carryOut { reading with choices, slot } rest
  | reading, (argument, .dashes) :: rest =>
    match reading.slot with
    -- The argument that follows takes the place; the dashes go along with it.
    | .free (.one _) => form.carryOut reading rest
    | .free (.rest take) =>
      if rest.isEmpty then form.carryOut (reading.leave argument) rest
      else do
        let (choices, left) ← take argument (rest.map (·.1)) reading.choices
        return { reading with choices, slot := .closed, leftByRest := left }
    | .closing => form.carryOut { reading with slot := .closed } rest
    | _ => form.carryOut (reading.leave argument) rest
  | reading, (argument, .plain) :: rest =>
    match reading.slot with
    | .free (.one set) =>
      form.carryOut { reading with choices := set argument reading.choices, slot := .closing } rest
    | .free (.rest take) => do
      let (choices, left) ← take argument (rest.map (·.1)) reading.choices
      return { reading with choices, slot := .closed, leftByRest := left }
    | _ => form.carryOut (reading.leave argument) rest

/-- The choices of a command line, and what is left over of it. -/
def Form.readSome {σ : Type} (form : Form σ) (place : Place σ) (choices : σ)
    (arguments : List String) : Except Stop (σ × List String) := do
  let kinds ← form.classify arguments
  let reading ← form.carryOut { choices, slot := .free place } kinds
  return (reading.choices, reading.leftOver ++ reading.leftByRest)

/-- The choices of a command line, of which nothing may be left over. -/
def Form.read {σ : Type} (form : Form σ) (place : Place σ) (choices : σ)
    (arguments : List String) : Except Stop σ := do
  let (choices, left) ← form.readSome place choices arguments
  if left.isEmpty then return choices
  else throw (form.misuse ("unrecognized arguments: " ++ " ".intercalate left))

end BoolQuery.Options
