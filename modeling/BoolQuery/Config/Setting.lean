import BoolQuery.Config.Nested
import BoolQuery.Data.Display
import BoolQuery.Number.Numeral

/-! Settings.

There are two settings, each a natural number. A setting is named by a path in nested data and
by an environment variable. Values that no setting can have are collected, so that one error
tells of them all.
-/

set_option autoImplicit false

namespace BoolQuery.Config

inductive Setting where
  | outputIndent
  | maxQueryLength
  deriving DecidableEq, Repr

def Setting.all : List Setting := [.outputIndent, .maxQueryLength]

def Setting.path : Setting → String × String
  | .outputIndent => ("output", "indent")
  | .maxQueryLength => ("limits", "max_query_length")

def Setting.variableName : Setting → String
  | .outputIndent => "QUERY_COMPILER_OUTPUT_INDENT"
  | .maxQueryLength => "QUERY_COMPILER_MAX_QUERY_LENGTH"

def Setting.ofVariable? (name : String) : Option Setting :=
  Setting.all.find? fun setting => setting.variableName == name

/-- A query length limit of zero stands for no limit. -/
def unlimited : Nat := 0

def Setting.default : Setting → Nat
  | .outputIndent => 2
  | .maxQueryLength => unlimited

structure Settings where
  indent : Nat
  maxQueryLength : Nat
  deriving DecidableEq, Repr

def admits (limit : Int) (length : Nat) : Bool := limit == unlimited || (length : Int) ≤ limit

/-- The natural number that a value stands for: an integer, or a text with a numeral in it. -/
def natural? : Data → Option Nat
  | .int value => if Data.isShortInt value then value.toNat? else none
  | .text text => (Numeral.read (Text.trim text.toList)).bind Int.toNat?
  | _ => none

/-- A missing value, or a text of nothing but spaces, leaves the default. -/
def isBlank : Data → Bool
  | .null => true
  | .text text => (Text.trim text.toList).isEmpty
  | _ => false

inductive Fault where
  -- These settings have a value that is no natural number.
  | invalid (settings : List Setting)
  -- A value cannot be written as text.
  | textless (fault : Data.TextFault)
  deriving DecidableEq, Repr

inductive Verdict where
  | unset
  | value (number : Nat)
  | invalid
  | textless (fault : Data.TextFault)
  deriving DecidableEq, Repr

def Verdict.fault? : Verdict → Option Data.TextFault
  | .textless fault => some fault
  | _ => none

/-- Values nested deeper than this cannot be written as text. -/
def deepestText : Nat := 987

def judge (value : Data) : Verdict :=
  if isBlank value then .unset
  else match value.textFault? deepestText with
    | some fault => .textless fault
    | none => match natural? value with
      | some number => .value number
      | none => .invalid

def Setting.raw (setting : Setting) (data : Members) : Data :=
  ((child data setting.path.1).lookup setting.path.2).getD .null

def Setting.verdict (setting : Setting) (data : Members) : Verdict := judge (setting.raw data)

def Setting.value (setting : Setting) (data : Members) : Nat :=
  match setting.verdict data with
  | .value number => number
  | _ => setting.default

/-- The settings whose values are wrong. -/
def Setting.refused (data : Members) : List Setting :=
  Setting.all.filter fun setting => setting.verdict data == .invalid

def Settings.ofData (data : Members) : Except Fault Settings :=
  -- A value without text cannot even be judged, so it comes before those that are wrong.
  match Setting.all.findSome? fun setting => (setting.verdict data).fault? with
  | some fault => .error (.textless fault)
  | none =>
    if !(Setting.refused data).isEmpty then .error (.invalid (Setting.refused data))
    else .ok ⟨Setting.outputIndent.value data, Setting.maxQueryLength.value data⟩

def invalidMessage (settings : List Setting) : String :=
  let sorted := [Setting.maxQueryLength, .outputIndent].filter settings.contains
  "Invalid values for " ++ ", ".intercalate (sorted.map Setting.variableName) ++
    " (expected a non-negative integer)"

/-- Only the known fields of known tables; a table without any is left out. -/
def knownFields (data : Members) : Members :=
  Setting.all.filterMap fun setting =>
    ((child data setting.path.1).lookup setting.path.2).map fun value =>
      (setting.path.1, .object [(setting.path.2, value)])

/-- The nested form of bindings of variables; those of no setting are left out. -/
def ofBindings (bindings : Members) : Members :=
  bindings.foldl (fun nested entry => match Setting.ofVariable? entry.1 with
    | some setting => assign nested [setting.path.1, setting.path.2] entry.2
    | none => nested) []

end BoolQuery.Config
