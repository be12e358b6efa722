import BoolQuery.Proofs.Config.Precedence
import BoolQuery.Proofs.Toml.Moderation

/-! When loading breaks down.

Sources that hold text end in settings or in a problem, unless the configuration file holds a
number with too many digits or values nested too deep: `load_of_digestible` and
`load_of_not_digestible`. Neither the environment file nor a variable stops the loading, whatever
its text, and a configuration file does not if its text is moderate: `digestible_of_moderate`.
-/

set_option autoImplicit false

namespace BoolQuery.Config

open Data (Writable)
open Files (Path View)

/-! ## Bindings to texts -/

/-- Bindings of variables to texts. -/
def Texts (bindings : Members) : Prop := ∀ entry ∈ bindings, ∃ text, entry.2 = .text text

theorem texts_toMembers (environment : Environment) : Texts environment.toMembers := by
  intro entry member
  obtain ⟨binding, -, rfl⟩ := List.mem_map.mp member
  exact ⟨binding.2, rfl⟩

theorem Texts.lookup {bindings : Members} (texts : Texts bindings) {name : String} {value : Data}
    (found : bindings.lookup name = some value) : ∃ text, value = .text text := by
  obtain ⟨before, after, rfl, -⟩ := List.lookup_eq_some_iff.mp found
  exact texts (name, value) (by simp)

theorem nestingMembers_le_of_writable {steps : Nat} {members : Members}
    (writable : Writable steps (.object members)) (shallow : steps < deepest) :
    nestingMembers members ≤ deepest := by
  have depth := writable.shallow
  rw [Data.depth] at depth
  exact Nat.le_trans (Data.nestingMembers_le_depth members) (Nat.lt_of_le_of_lt depth shallow)

theorem Texts.nestingMembers_le {bindings : Members} (texts : Texts bindings) :
    nestingMembers (ofBindings bindings) ≤ deepest := by
  have bound : Writable 2 (.object (ofBindings bindings)) := by
    refine writable_ofBindings fun entry member => ?_
    obtain ⟨text, same⟩ := texts entry member
    rw [same]
    exact Data.writable_text 0 text
  exact nestingMembers_le_of_writable bound (by decide)

/-! ## What a table must not hold -/

/-- A table that can be taken in: its known fields are not nested too deep, and its value for a
setting can be written as text, unless a variable hides it. -/
structure Fits (table bindings : Members) : Prop where
  nesting : nestingMembers (knownFields table) ≤ deepest
  writable : ∀ setting : Setting, bindings.lookup setting.variableName = none →
    ∀ value, overlay none (setting.entry table) = some value → Writable deepestText value

theorem fits_nil (bindings : Members) : Fits [] bindings where
  nesting := by decide
  writable := by
    intro setting _ value held
    cases setting <;> cases held

section

variable {envFile : Environment} (table : Members) {bindings : Members}
  (distinct : Distinct envFile.toMembers) (distinct' : Distinct bindings)

include distinct distinct'

theorem Setting.raw_mergeSources_of_bound (setting : Setting) {text : String}
    (bound : bindings.lookup setting.variableName = some (.text text)) :
    setting.raw (mergeSources envFile.toMembers table bindings) = .text text := by
  rw [raw_eq, setting.entry_mergeSources table distinct distinct', bound]
  rfl

/-- Without a variable the table counts, and without a value in it the environment file. -/
theorem Setting.raw_mergeSources_of_unbound (setting : Setting)
    (unbound : bindings.lookup setting.variableName = none) :
    setting.raw (mergeSources envFile.toMembers table bindings) =
      ((overlay none (setting.entry table)).or
        ((envFile.lookup setting.variableName).map Data.text)).getD .null := by
  rw [raw_eq, setting.entry_mergeSources table distinct distinct', unbound,
    Environment.lookup_toMembers]
  cases envFile.lookup setting.variableName with
  | none =>
    cases setting.entry table with
    | none => rfl
    | some value => cases value <;> rfl
  | some text =>
    cases setting.entry table with
    | none => rfl
    | some value => cases value <;> rfl

/-- Of the values that are merged only those of the table can be without text. -/
theorem manageable_iff (texts : Texts bindings) :
    Manageable envFile table bindings ↔ Fits table bindings := by
  constructor
  · intro manageable
    refine ⟨manageable.tableNesting, fun setting unbound value held => ?_⟩
    have raw := setting.raw_mergeSources_of_unbound table distinct distinct' unbound
    rw [held, Option.some_or, Option.getD_some] at raw
    rw [← raw]
    exact ⟨manageable.short setting, manageable.shallow setting⟩
  · intro fits
    have writable (setting : Setting) : Writable deepestText
        (setting.raw (mergeSources envFile.toMembers table bindings)) := by
      cases bound : bindings.lookup setting.variableName with
      | some value =>
        obtain ⟨text, rfl⟩ := texts.lookup bound
        rw [setting.raw_mergeSources_of_bound table distinct distinct' bound]
        exact Data.writable_text _ text
      | none =>
        rw [setting.raw_mergeSources_of_unbound table distinct distinct' bound]
        cases held : overlay none (setting.entry table) with
        | some value => exact fits.writable setting bound value held
        | none =>
          cases envFile.lookup setting.variableName with
          | none => exact Data.writable_null _
          | some text => exact Data.writable_text _ text
    exact ⟨fits.nesting, texts.nestingMembers_le, fun setting => (writable setting).short,
      fun setting => (writable setting).shallow⟩

end

/-! ## Loading -/

/-- A file that is missing, cannot be read, or holds text. -/
def Legible (view : View) (path : Path) : Prop :=
  view path ≠ .ok none ∧ view path ≠ .error .broken

/-- What a document that cannot be read does to the loading. -/
def stop (path : Path) : Toml.Error → LoadError
  | .malformed => .problem (.malformed path)
  | .oversized => .breakdown .oversized
  | .tooDeep => .breakdown .tooDeep

theorem loadTable_of_text {view : View} {path : Path} {text : String}
    (found : view path = .ok (some text)) {result : Except Toml.Error Members}
    (decoded : Toml.read text = result) : loadTable view path = result.mapError (stop path) := by
  have read : Source.configFile.read view path = .ok (some text) := by rw [Source.read, found]
  rw [loadTable, read]
  simp only [Bind.bind, Except.bind, decoded]
  cases result with
  | ok table => rfl
  | error cause => cases cause <;> rfl

section

variable {view : View} {path : Path} (legible : Legible view path)

include legible

theorem Legible.read (source : Source) :
    (∃ text?, source.read view path = .ok text?) ∨
      ∃ problem, source.read view path = .error (.problem problem) := by
  obtain ⟨well, sound⟩ := legible
  unfold Source.read
  split
  next => exact .inl ⟨_, rfl⟩
  next found => exact absurd found well
  next => exact .inl ⟨_, rfl⟩
  next found => exact absurd found sound
  next => exact .inr ⟨_, rfl⟩

theorem Legible.loadEnvFile :
    (∃ envFile, loadEnvFile view path = .ok envFile) ∨
      ∃ problem, loadEnvFile view path = .error (.problem problem) := by
  rw [Config.loadEnvFile]
  obtain ⟨text?, found⟩ | ⟨problem, found⟩ := legible.read .envFile
  · rw [found]
    exact .inl ⟨_, rfl⟩
  · rw [found]
    exact .inr ⟨problem, rfl⟩

/-- A table is loaded, or a problem is told of, unless the document is too much to be read. -/
theorem Legible.loadTable :
    loadTable view path = .ok [] ∨
    (∃ problem, loadTable view path = .error (.problem problem)) ∨
    ∃ text, view path = .ok (some text) ∧
      ((∃ table, Toml.read text = .ok table ∧ loadTable view path = .ok table) ∨
        Toml.read text = .error .oversized ∨ Toml.read text = .error .tooDeep) := by
  obtain ⟨well, sound⟩ := legible
  cases found : view path with
  | ok text? =>
    cases text? with
    | none => exact absurd found well
    | some text =>
      have decoded {result : Except Toml.Error Members} (parsed : Toml.read text = result) :=
        loadTable_of_text found parsed
      cases parsed : Toml.read text with
      | ok table => exact .inr (.inr ⟨text, rfl, .inl ⟨table, parsed, decoded parsed⟩⟩)
      | error cause =>
        cases cause with
        | malformed => exact .inr (.inl ⟨_, decoded parsed⟩)
        | oversized => exact .inr (.inr ⟨text, rfl, .inr (.inl parsed)⟩)
        | tooDeep => exact .inr (.inr ⟨text, rfl, .inr (.inr parsed)⟩)
  | error obstacle =>
    unfold Config.loadTable Source.read
    rw [found]
    cases obstacle with
    | missing => exact .inl rfl
    | broken => exact absurd found sound
    | _ => exact .inr (.inl ⟨_, rfl⟩)

end

/-- Sources that can be taken in: if the configuration file holds text, its numbers are not too
long and its values not nested too deep. What else it holds does not matter. -/
def Digestible (view : View) (environment : Environment) (choice : Choice) : Prop :=
  ∀ envFile, loadEnvFile view (Source.envFile.resolve choice.envFile environment) = .ok envFile →
    ∀ text, view (Source.configFile.resolve choice.configFile environment) = .ok (some text) →
      Toml.read text ≠ .error .oversized ∧ Toml.read text ≠ .error .tooDeep ∧
      ∀ table, Toml.read text = .ok table →
        Fits table (choice.bindings.getD environment.toMembers)

theorem writable_overlay {steps : Nat} {entry : Option Data}
    (writable : ∀ value ∈ entry, Writable steps value) :
    ∀ value ∈ overlay none entry, Writable steps value := by
  cases entry with
  | none => exact nofun
  | some value =>
    have inner := writable value rfl
    cases value with
    | null => exact nofun
    | object members =>
      rintro _ ⟨⟩
      exact (Data.writable_nil steps).merge inner
    | bool | int | float | text | list => exact writable

theorem fits_of_writable {steps : Nat} {table : Members}
    (writable : Writable (steps + 2) (.object table)) (shallow : steps + 2 < deepest)
    (bindings : Members) : Fits table bindings where
  nesting := nestingMembers_le_of_writable (writable_knownFields writable) shallow
  writable := by
    intro setting _ value held
    have entry (value : Data) (held : setting.entry table = some value) : Writable steps value :=
      setting.writable_entry writable held
    have below : steps ≤ deepestText := Nat.le_trans (Nat.le_of_lt (Nat.lt_of_le_of_lt
      (Nat.le_add_right steps 2) shallow)) (by decide)
    exact (writable_overlay entry value held).mono below

/-- What a moderate text holds can be taken in. -/
theorem digestible_of_moderate {view : View} {environment : Environment} {choice : Choice}
    (moderate : ∀ text,
      view (Source.configFile.resolve choice.configFile environment) = .ok (some text) →
      Toml.Moderate text.toList) : Digestible view environment choice := by
  intro envFile _ text found
  have manages := Toml.read_manages (moderate text found)
  cases decoded : Toml.read text with
  | ok table =>
    rw [decoded] at manages
    refine ⟨nofun, nofun, ?_⟩
    rintro _ ⟨⟩
    exact fits_of_writable manages (by decide) _
  | error cause =>
    rw [decoded] at manages
    cases manages
    exact ⟨nofun, nofun, nofun⟩

section

variable {view : View} {environment : Environment} {choice : Choice} {error : LoadError}

theorem load_of_loadEnvFile_error
    (failed : loadEnvFile view (Source.envFile.resolve choice.envFile environment) =
      .error error) : load view environment choice = .error error := by
  rw [load, failed]
  rfl

theorem load_of_loadTable_error {envFile : Environment}
    (read : loadEnvFile view (Source.envFile.resolve choice.envFile environment) = .ok envFile)
    (failed : loadTable view (Source.configFile.resolve choice.configFile environment) =
      .error error) : load view environment choice = .error error := by
  rw [load, read, failed]
  rfl

end

section

variable {view : View} {environment : Environment} {choice : Choice}
  (distinct : Distinct (choice.bindings.getD environment.toMembers))
  (texts : Texts (choice.bindings.getD environment.toMembers))

include distinct texts

theorem load_of_digestible
    (env : Legible view (Source.envFile.resolve choice.envFile environment))
    (config : Legible view (Source.configFile.resolve choice.configFile environment))
    (digestible : Digestible view environment choice) :
    (∃ settings, load view environment choice = .ok settings) ∨
      ∃ problem, load view environment choice = .error (.problem problem) := by
  obtain ⟨envFile, read⟩ | ⟨problem, failed⟩ := env.loadEnvFile
  · have settled {table : Members}
        (fits : Fits table (choice.bindings.getD environment.toMembers))
        (decoded : loadTable view (Source.configFile.resolve choice.configFile environment) =
          .ok table) :
        (∃ settings, load view environment choice = .ok settings) ∨
          ∃ problem, load view environment choice = .error (.problem problem) := by
      have manageable := (manageable_iff _ (distinct_loadEnvFile read) distinct texts).mpr fits
      rw [load_eq read decoded, settingsOfSources_eq envFile _ _ manageable rfl]
      split
      next => exact .inl ⟨_, rfl⟩
      next => exact .inr ⟨_, rfl⟩
    obtain decoded | ⟨problem, failed⟩ | ⟨text, found, parsed⟩ := config.loadTable
    · exact settled (fits_nil _) decoded
    · exact .inr ⟨problem, load_of_loadTable_error read failed⟩
    · obtain ⟨short, shallow, fits⟩ := digestible envFile read text found
      obtain ⟨table, parsed, decoded⟩ | parsed | parsed := parsed
      · exact settled (fits table parsed) decoded
      · exact absurd parsed short
      · exact absurd parsed shallow
  · exact .inr ⟨problem, load_of_loadEnvFile_error failed⟩

theorem load_of_not_digestible (indigestible : ¬ Digestible view environment choice) :
    load view environment choice = .error (.breakdown .oversized) ∨
      load view environment choice = .error (.breakdown .tooDeep) := by
  refine Classical.byContradiction fun told => indigestible ?_
  intro envFile read text found
  have decoded {result : Except Toml.Error Members} (parsed : Toml.read text = result) :=
    loadTable_of_text found parsed
  refine ⟨fun parsed => ?_, fun parsed => ?_, fun table parsed => ?_⟩
  · exact told (.inl (load_of_loadTable_error read (decoded parsed)))
  · exact told (.inr (load_of_loadTable_error read (decoded parsed)))
  · refine (manageable_iff _ (distinct_loadEnvFile read) distinct texts).mp ?_
    refine Classical.byContradiction fun unmanageable => told ?_
    rw [load_eq read (decoded parsed)]
    obtain deep | ⟨long, -⟩ := settingsOfSources_of_not_manageable envFile _ _ unmanageable
    · exact .inr deep
    · exact .inl long

end

end BoolQuery.Config
