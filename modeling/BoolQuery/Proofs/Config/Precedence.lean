import BoolQuery.Proofs.Config.Judgment
import BoolQuery.Proofs.Data.Writable
import Mathlib.Control.Monad.Basic

/-! Which source a setting is read from.

A variable wins over the table, and the table over the environment file: `Setting.given`. What the
merged sources hold for a setting is what is given for it, or both are objects, which are refused
alike. So loading follows what is given for each setting, unless values are nested too deep:
`load_follows_given`.
-/

set_option autoImplicit false

namespace BoolQuery.Config

open Data (allMembersHaveText Writable)
open Files (Path View)

/-- Null counts as absent. -/
def present : Option Data → Option Data
  | some .null => none
  | held => held

/-- What is given for a setting: by its variable, else by the table, else by the environment
file. Nothing else in the sources counts. -/
def Setting.given (setting : Setting) (envFile : Environment) (table bindings : Members) :
    Option Data :=
  (present (bindings.lookup setting.variableName)).or
    ((present (setting.entry table)).or
      ((envFile.lookup setting.variableName).map Data.text))

/-! ## Merged values and given values -/

/-- Equal, or both objects. -/
def Alike (held given : Option Data) : Prop :=
  held = given ∨ ∃ inner inner', held = some (.object inner) ∧ given = some (.object inner')

section

variable {held given : Option Data}

theorem Alike.refused_iff (alike : Alike held given) : Refused held ↔ Refused given := by
  obtain rfl | ⟨inner, inner', rfl, rfl⟩ := alike
  · exact Iff.rfl
  · exact iff_of_true (refused_object inner) (refused_object inner')

theorem Alike.takes (alike : Alike held given) {setting : Setting} {number : Nat}
    (takes : setting.Takes held number) : setting.Takes given number := by
  obtain rfl | ⟨inner, inner', rfl, rfl⟩ := alike
  · exact takes
  · cases takes with
    | blank blank => cases blank
    | parsed _ parsed => cases parsed

theorem Alike.overlay (alike : Alike held given) (later : Option Data) :
    Alike (overlay held later) ((present later).or given) := by
  cases later with
  | none => exact alike
  | some value =>
    cases value with
    | null => exact alike
    | object inner => exact .inr ⟨_, inner, rfl, rfl⟩
    | bool | int | float | text | list => exact .inl rfl

end

section

variable (envFile : Environment) (table bindings : Members)

theorem Setting.alike_given (setting : Setting) (distinct : Distinct envFile.toMembers)
    (distinct' : Distinct bindings) :
    Alike (setting.entry (mergeSources envFile.toMembers table bindings))
      (setting.given envFile table bindings) := by
  rw [setting.entry_mergeSources table distinct distinct', Environment.lookup_toMembers]
  have base (text : Option String) :
      overlay none (text.map Data.text) = text.map Data.text := by
    cases text <;> rfl
  rw [base]
  exact (Alike.overlay (Alike.overlay (.inl rfl) _) _)

/-- Sources that are not nested too deep to be merged, and whose values for the settings can be
written as text. -/
structure Manageable : Prop where
  tableNesting : nestingMembers (knownFields table) ≤ deepest
  bindingsNesting : nestingMembers (ofBindings bindings) ≤ deepest
  short : ∀ setting : Setting,
    (setting.raw (mergeSources envFile.toMembers table bindings)).hasText = true
  shallow : ∀ setting : Setting,
    (setting.raw (mergeSources envFile.toMembers table bindings)).depth ≤ deepestText

theorem Manageable.textFault? {envFile : Environment} {table bindings : Members}
    (manageable : Manageable envFile table bindings) (setting : Setting) :
    (setting.raw (mergeSources envFile.toMembers table bindings)).textFault? deepestText = none :=
  Data.textFault?_eq_none_iff.mpr ⟨manageable.short setting, manageable.shallow setting⟩

theorem settingsOfSources_eq (manageable : Manageable envFile table bindings) {merged : Members}
    (sources : mergeSources envFile.toMembers table bindings = merged) :
    settingsOfSources envFile.toMembers table bindings =
      if (Setting.refused merged).isEmpty then
        .ok ⟨Setting.outputIndent.value merged, Setting.maxQueryLength.value merged⟩
      else .error (.problem (.invalid (Setting.refused merged))) := by
  have flat := Nat.not_lt.mpr
    (Nat.max_le.mpr ⟨manageable.tableNesting, manageable.bindingsNesting⟩)
  have writable := manageable.textFault?
  rw [sources] at writable
  rw [settingsOfSources, if_neg flat, sources, Settings.ofData_eq writable]
  cases (Setting.refused merged).isEmpty <;> rfl

/-! ## Sources that cannot be managed -/

theorem writable_bind {steps : Nat} {nested : Members}
    (writable : Writable (steps + 2) (.object nested)) {entry : String × Data}
    (bound : Writable steps entry.2) : Writable (steps + 2) (.object (bind nested entry)) := by
  unfold bind
  split
  next setting _ => exact writable.put _ ((writable.child _).put _ bound)
  next => exact writable

/-- Values are bound two levels down. -/
theorem writable_ofBindings {steps : Nat} {bindings : Members}
    (each : ∀ entry ∈ bindings, Writable steps entry.2) :
    Writable (steps + 2) (.object (ofBindings bindings)) := by
  rw [ofBindings_eq]
  exact List.foldlRecOn (motive := fun nested => Writable (steps + 2) (.object nested))
    bindings bind (Data.writable_nil _) fun nested writable entry member =>
      writable_bind writable (each entry member)

theorem writable_toMembers (envFile : Environment) (steps : Nat) :
    ∀ entry ∈ envFile.toMembers, Writable steps entry.2 := by
  intro entry member
  obtain ⟨binding, -, rfl⟩ := List.mem_map.mp member
  exact Data.writable_text steps binding.2

theorem Setting.writable_entry (setting : Setting) {steps : Nat} {data : Members}
    (writable : Writable (steps + 2) (.object data)) {value : Data}
    (held : setting.entry data = some value) : Writable steps value :=
  (writable.child _).lookup held

theorem writable_knownFields {steps : Nat} {table : Members}
    (writable : Writable (steps + 2) (.object table)) :
    Writable (steps + 2) (.object (knownFields table)) := by
  refine Data.writable_object_iff.mpr fun entry member => ?_
  obtain ⟨setting, -, known⟩ := List.mem_filterMap.mp member
  obtain ⟨value, held, rfl⟩ := Option.map_eq_some_iff.mp known
  exact (Data.writable_nil _).put _ (setting.writable_entry writable held)

/-- Merging does not make integers longer. -/
theorem Setting.hasText_raw_mergeSources (setting : Setting) {table bindings : Members}
    (short : allMembersHaveText table = true) (short' : allMembersHaveText bindings = true) :
    (setting.raw (mergeSources envFile.toMembers table bindings)).hasText = true := by
  obtain ⟨steps, writable, bound⟩ : ∃ steps, Writable (steps + 2) (.object table) ∧
      ∀ entry ∈ bindings, Writable steps entry.2 := by
    have writable := Data.writable_of_allMembersHaveText short
    have bound := Data.writable_of_allMembersHaveText short'
    refine ⟨max (Data.depthOfMembers table) (Data.depthOfMembers bindings), ?_, ?_⟩
    · exact writable.mono (by omega)
    · exact Data.writable_object_iff.mp (bound.mono (by omega))
  have merged : Writable (steps + 2) (.object (mergeSources envFile.toMembers table bindings)) :=
    (((Data.writable_nil _).merge (writable_ofBindings (writable_toMembers envFile steps))).merge
      (writable_knownFields writable)).merge (writable_ofBindings bound)
  rw [raw_eq]
  cases held : setting.entry (mergeSources envFile.toMembers table bindings) with
  | none => exact (Data.writable_null 0).short
  | some value => exact (setting.writable_entry merged held).short

/-- Depth is what stops the merging, unless an integer that is given is too long. -/
theorem settingsOfSources_of_not_manageable
    (unmanageable : ¬ Manageable envFile table bindings) :
    settingsOfSources envFile.toMembers table bindings = .error (.breakdown .tooDeep) ∨
      settingsOfSources envFile.toMembers table bindings = .error (.breakdown .oversized) ∧
        ¬ (allMembersHaveText table = true ∧ allMembersHaveText bindings = true) := by
  rw [settingsOfSources]
  split
  next => exact .inl rfl
  next flat =>
    have ⟨flatTable, flatBindings⟩ := Nat.max_le.mp (Nat.not_lt.mp flat)
    have ⟨setting, textless⟩ : ∃ setting : Setting, (setting.raw (mergeSources
        envFile.toMembers table bindings)).textFault? deepestText ≠ none := by
      refine Classical.byContradiction fun writable => unmanageable ?_
      have writable := fun setting => Data.textFault?_eq_none_iff.mp
        (Classical.byContradiction fun textless => writable ⟨setting, textless⟩)
      exact ⟨flatTable, flatBindings, fun setting => (writable setting).1,
        fun setting => (writable setting).2⟩
    obtain ⟨other, fault, textless, stopped⟩ := Settings.ofData_textless textless
    rw [stopped]
    cases fault with
    | tooDeep => exact .inl rfl
    | oversized =>
      refine .inr ⟨rfl, fun ⟨short, short'⟩ => ?_⟩
      have short := other.hasText_raw_mergeSources envFile short short'
      rw [Data.textFault?_eq short] at textless
      split at textless <;> cases textless

end

/-! ## Loading -/

/-- Settings follow what is given for them: they are loaded unless something is refused, each one
takes what is given for it, and a refusal names the variables of all that are refused. -/
structure Follows (given : Setting → Option Data) (outcome : Except LoadError Settings) :
    Prop where
  loaded_iff : (∃ settings, outcome = .ok settings) ↔ ∀ setting, ¬ Refused (given setting)
  takes : ∀ settings, outcome = .ok settings →
    ∀ setting : Setting, setting.Takes (given setting) (settings.get setting)
  refusal : ∀ setting, Refused (given setting) → ∃ problem names,
    outcome = .error (.problem problem) ∧
    problem.message = "Invalid values for " ++ ", ".intercalate names ++
      " (expected a non-negative integer)" ∧
    names.Pairwise (· < ·) ∧
    ∀ name, name ∈ names ↔
      ∃ other : Setting, Refused (given other) ∧ other.variableName = name

theorem distinct_loadEnvFile {view : View} {path : Path} {envFile : Environment}
    (read : loadEnvFile view path = .ok envFile) : Distinct envFile.toMembers := by
  rw [loadEnvFile] at read
  cases found : Source.envFile.read view path with
  | error error =>
    rw [found] at read
    cases read
  | ok text? =>
    rw [found] at read
    cases text? with
    | none =>
      cases read
      exact List.nodup_nil
    | some text =>
      cases read
      exact distinct_readEnvFile text

theorem load_eq {view : View} {environment : Environment} {choice : Choice}
    {envFile : Environment} {table : Members}
    (read : loadEnvFile view (Source.envFile.resolve choice.envFile environment) = .ok envFile)
    (decoded : loadTable view (Source.configFile.resolve choice.configFile environment) =
      .ok table) :
    load view environment choice = settingsOfSources envFile.toMembers table
      (choice.bindings.getD environment.toMembers) := by
  rw [load, read, decoded]
  rfl

theorem follows_settingsOfSources {envFile : Environment} {table bindings : Members}
    (distinct : Distinct envFile.toMembers) (distinct' : Distinct bindings)
    (manageable : Manageable envFile table bindings) :
    Follows (fun setting => setting.given envFile table bindings)
      (settingsOfSources envFile.toMembers table bindings) := by
  have alike (setting : Setting) :=
    setting.alike_given envFile table bindings distinct distinct'
  have writable := manageable.textFault?
  rw [settingsOfSources_eq envFile table bindings manageable rfl]
  -- Of the merged sources only what they hold for the settings matters from here on.
  generalize mergeSources envFile.toMembers table bindings = merged at alike writable ⊢
  have refused_iff (setting : Setting) : setting ∈ Setting.refused merged ↔
      Refused (setting.given envFile table bindings) := by
    rw [Setting.mem_refused, Setting.verdict_eq_invalid_iff (writable setting),
      (alike setting).refused_iff]
  by_cases accepted : (Setting.refused merged).isEmpty = true
  · rw [if_pos accepted]
    rw [List.isEmpty_iff] at accepted
    have clear (setting : Setting) : ¬ Refused (setting.given envFile table bindings) := by
      rw [← refused_iff, accepted]
      exact List.not_mem_nil
    refine ⟨iff_of_true ⟨_, rfl⟩ clear, ?_, fun setting refused => absurd refused (clear setting)⟩
    rintro settings ⟨⟩ setting
    have taken := (alike setting).takes
      (Setting.takes_value (writable setting) fun refused =>
        clear setting ((alike setting).refused_iff.mp refused))
    cases setting <;> exact taken
  · rw [if_neg accepted]
    rw [List.isEmpty_iff] at accepted
    obtain ⟨setting, member⟩ := List.exists_mem_of_ne_nil _ accepted
    refine ⟨iff_of_false nofun fun clear => clear setting ((refused_iff setting).mp member),
      nofun, fun _ _ => ?_⟩
    obtain ⟨names, message, ordered, named⟩ := invalidMessage_names (Setting.refused merged)
    refine ⟨_, names, rfl, message, ordered, fun name => ?_⟩
    rw [named]
    exact exists_congr fun other => and_congr_left fun _ => refused_iff other

/-- The settings follow what the sources give for them, if the sources can be managed. If not,
loading breaks down; where all integers are short, depth is the only reason. -/
theorem load_follows_given (view : View) (environment : Environment) (choice : Choice)
    {envFile : Environment} {table : Members}
    (read : loadEnvFile view (Source.envFile.resolve choice.envFile environment) = .ok envFile)
    (decoded : loadTable view (Source.configFile.resolve choice.configFile environment) =
      .ok table)
    (distinct : Distinct (choice.bindings.getD environment.toMembers)) :
    let bindings := choice.bindings.getD environment.toMembers
    (Manageable envFile table bindings →
      Follows (fun setting => setting.given envFile table bindings)
        (load view environment choice)) ∧
    (¬ Manageable envFile table bindings →
      load view environment choice = .error (.breakdown .tooDeep) ∨
        load view environment choice = .error (.breakdown .oversized) ∧
          ¬ (allMembersHaveText table = true ∧ allMembersHaveText bindings = true)) := by
  rw [load_eq read decoded]
  exact ⟨follows_settingsOfSources (distinct_loadEnvFile read) distinct,
    settingsOfSources_of_not_manageable _ _ _⟩

/-- A blank variable hides the environment file, which the table hides for the other setting. -/
theorem blank_variable_load_follows_given :
    let view : View := fun path =>
      if path = Path.ofText "env" then
        .ok (some "QUERY_COMPILER_OUTPUT_INDENT=7\nQUERY_COMPILER_MAX_QUERY_LENGTH=9\n")
      else .ok (some "[limits]\nmax_query_length = 5\n")
    let choice : Choice :=
      ⟨some "env", some "table", some [("QUERY_COMPILER_OUTPUT_INDENT", .text " ")]⟩
    let given (setting : Setting) : Option Data :=
      if setting = .outputIndent then some (.text " ") else some (.int 5)
    Follows given (load view [] choice) ∧ load view [] choice = .ok ⟨2, 5⟩ := by
  intro view choice given
  have read : loadEnvFile view (Source.envFile.resolve choice.envFile []) =
      .ok [("QUERY_COMPILER_OUTPUT_INDENT", "7"), ("QUERY_COMPILER_MAX_QUERY_LENGTH", "9")] := by
    decide +kernel
  have decoded : loadTable view (Source.configFile.resolve choice.configFile []) =
      .ok [("limits", .object [("max_query_length", .int 5)])] := by
    decide +kernel
  have settled := load_follows_given view [] choice read decoded (List.pairwise_singleton _ _)
  have follows := settled.1
    ⟨by decide, by decide, fun setting => by cases setting <;> decide +kernel,
      fun setting => by cases setting <;> decide⟩
  have same : given = fun setting => setting.given
      [("QUERY_COMPILER_OUTPUT_INDENT", "7"), ("QUERY_COMPILER_MAX_QUERY_LENGTH", "9")]
      [("limits", .object [("max_query_length", .int 5)])]
      [("QUERY_COMPILER_OUTPUT_INDENT", .text " ")] := by
    funext setting
    cases setting <;> decide
  rw [same]
  exact ⟨follows, by decide +kernel⟩

end BoolQuery.Config
