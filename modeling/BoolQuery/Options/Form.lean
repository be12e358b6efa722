/-! Forms of command lines.

A form says which options a command takes and what each of them does to the choices made so far.
Its help text begins with the usage, which ends at the first blank line.
-/

set_option autoImplicit false

namespace BoolQuery.Options

inductive Given (α : Type) where
  | missing
  -- The option is there, but its value was dropped.
  | bare
  | value (value : α)
  deriving DecidableEq, Repr

def Given.value? {α : Type} : Given α → Option α
  | .value given => some given
  | _ => none

def Given.ofOption {α : Type} : Option α → Given α
  | some given => .value given
  | none => .bare

/-- What an option does. One that takes a value may refuse it with a message; it is also told when
its value was dropped. -/
inductive Action (σ : Type) where
  | help
  | switch (set : σ → σ)
  | value (set : Option String → σ → Except String σ)

structure Spec (σ : Type) where
  names : List String
  action : Action σ

def Spec.title {σ : Type} (spec : Spec σ) : String := "/".intercalate spec.names

def helpSpec (σ : Type) : Spec σ := ⟨["-h", "--help"], .help⟩

structure Form (σ : Type) where
  program : String
  helpText : String
  specs : List (Spec σ)

inductive Stop where
  | help (text : String)
  | misuse (usage program message : String)
  deriving DecidableEq, Repr

def usageOf (helpText : String) : String :=
  String.ofList (beforeBlankLine helpText.toList)
where
  beforeBlankLine : List Char → List Char
    | [] => []
    | '\n' :: '\n' :: _ => ['\n']
    | c :: rest => c :: beforeBlankLine rest

def Form.misuse {σ : Type} (form : Form σ) (message : String) : Stop :=
  .misuse (usageOf form.helpText) form.program message

def Form.argumentMisuse {σ : Type} (form : Form σ) (title message : String) : Stop :=
  form.misuse ("argument " ++ title ++ ": " ++ message)

/-- All option names with their options, in the order of definition. -/
def Form.named {σ : Type} (form : Form σ) : List (String × Spec σ) :=
  form.specs.flatMap fun spec => spec.names.map (·, spec)

end BoolQuery.Options
