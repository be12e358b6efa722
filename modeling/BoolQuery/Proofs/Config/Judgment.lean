import BoolQuery.Config.Setting
import BoolQuery.Proofs.Config.Sources
import BoolQuery.Proofs.Data.Depth

/-! What becomes of the value that is held for a setting.

A value is refused, or the setting takes a number from it: `Setting.Takes`. Settings are made of
data exactly if no value is refused, as long as all values can be written as text.
-/

set_option autoImplicit false

namespace BoolQuery.Config

def Settings.get (settings : Settings) : Setting → Nat
  | .outputIndent => settings.indent
  | .maxQueryLength => settings.maxQueryLength

/-- There is a value, it is not blank, and it stands for no natural number. -/
def Refused (held : Option Data) : Prop :=
  ∃ value, held = some value ∧ isBlank value = false ∧ natural? value = none

/-- The number that a setting takes from what is held for it. -/
inductive Setting.Takes (setting : Setting) : Option Data → Nat → Prop where
  | absent : Takes setting none setting.default
  | blank {value : Data} : isBlank value = true → Takes setting (some value) setting.default
  | parsed {value : Data} {number : Nat} : isBlank value = false →
      natural? value = some number → Takes setting (some value) number

/-- An object is refused, whatever it holds. -/
theorem refused_object (members : Members) : Refused (some (.object members)) :=
  ⟨.object members, rfl, rfl, rfl⟩

/-! ## One value -/

theorem textFault?_of_isBlank {value : Data} (blank : isBlank value = true) (steps : Nat) :
    value.textFault? steps = none := by
  cases value with
  | null | text => simp only [Data.textFault?]
  | bool | int | float | list | object => cases blank

theorem judge_fault? (value : Data) : (judge value).fault? = value.textFault? deepestText := by
  unfold judge
  by_cases blank : isBlank value = true
  · rw [if_pos blank, textFault?_of_isBlank blank]
    rfl
  · rw [if_neg blank]
    cases value.textFault? deepestText with
    | some fault => rfl
    | none => cases natural? value <;> rfl

/-- The verdict on a value that can be written as text. -/
theorem judge_eq {value : Data} (writable : value.textFault? deepestText = none) :
    judge value = if isBlank value then .unset
      else match natural? value with
        | some number => .value number
        | none => .invalid := by
  cases blank : isBlank value <;> cases parsed : natural? value <;>
    simp [judge, blank, parsed, writable]

/-! ## The settings of data -/

section

variable {data : Members}

theorem Setting.verdict_eq_invalid_iff {setting : Setting}
    (writable : (setting.raw data).textFault? deepestText = none) :
    setting.verdict data = .invalid ↔ Refused (setting.entry data) := by
  rw [verdict, judge_eq writable, raw_eq]
  cases setting.entry data with
  | none => simp [Refused, isBlank]
  | some value =>
    cases blank : isBlank value <;> cases parsed : natural? value <;>
      simp [Refused, blank, parsed]

theorem Setting.takes_value {setting : Setting}
    (writable : (setting.raw data).textFault? deepestText = none)
    (accepted : ¬ Refused (setting.entry data)) :
    setting.Takes (setting.entry data) (setting.value data) := by
  rw [value, verdict, judge_eq writable, raw_eq]
  cases held : setting.entry data with
  | none => exact .absent
  | some value =>
    rw [Option.getD_some]
    cases blank : isBlank value with
    | true => exact .blank blank
    | false =>
      cases parsed : natural? value with
      | some number => exact .parsed blank parsed
      | none => exact absurd ⟨value, held, blank, parsed⟩ accepted

theorem Setting.mem_refused {setting : Setting} :
    setting ∈ refused data ↔ setting.verdict data = .invalid := by
  cases setting <;> simp [refused, all]

theorem Settings.ofData_eq (writable : ∀ setting : Setting,
    (setting.raw data).textFault? deepestText = none) :
    Settings.ofData data =
      if (Setting.refused data).isEmpty then
        .ok ⟨Setting.outputIndent.value data, Setting.maxQueryLength.value data⟩
      else .error (.invalid (Setting.refused data)) := by
  have judged : Setting.all.findSome? (fun setting => (setting.verdict data).fault?) = none :=
    List.findSome?_eq_none_iff.mpr fun setting _ => (judge_fault? _).trans (writable setting)
  rw [ofData, judged]
  cases (Setting.refused data).isEmpty <;> rfl

/-- A value without text stops everything. -/
theorem Settings.ofData_textless {setting : Setting}
    (textless : (setting.raw data).textFault? deepestText ≠ none) :
    ∃ (other : Setting) (fault : Data.TextFault),
      (other.raw data).textFault? deepestText = some fault ∧
        Settings.ofData data = .error (.textless fault) := by
  cases judged : Setting.all.findSome? (fun setting => (setting.verdict data).fault?) with
  | none =>
    have clear := List.findSome?_eq_none_iff.mp judged setting (by cases setting <;> decide)
    exact absurd ((judge_fault? _).symm.trans clear) textless
  | some fault =>
    obtain ⟨other, -, found⟩ := List.exists_of_findSome?_eq_some judged
    refine ⟨other, fault, (judge_fault? _).symm.trans found, ?_⟩
    rw [ofData, judged]

end

/-! ## The message -/

theorem mem_sorted (settings : List Setting) (name : String) :
    name ∈ ([Setting.maxQueryLength, .outputIndent].filter settings.contains).map
        Setting.variableName ↔
      ∃ setting ∈ settings, setting.variableName = name := by
  rw [List.mem_map]
  refine exists_congr fun setting => and_congr_left fun _ => ?_
  rw [List.mem_filter, List.contains_iff_mem]
  exact and_iff_right (by cases setting <;> decide)

/-- The message names the variables of the settings, each once, in order. -/
theorem invalidMessage_names (settings : List Setting) :
    ∃ names : List String,
      invalidMessage settings = "Invalid values for " ++ ", ".intercalate names ++
        " (expected a non-negative integer)" ∧
      names.Pairwise (· < ·) ∧
      ∀ name, name ∈ names ↔ ∃ setting ∈ settings, setting.variableName = name := by
  refine ⟨_, rfl, ?_, mem_sorted settings⟩
  have ordered : ([Setting.maxQueryLength, .outputIndent].map Setting.variableName).Pairwise
      (· < ·) := by decide
  exact ordered.sublist (List.filter_sublist.map _)

end BoolQuery.Config
