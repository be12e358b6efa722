import BoolQuery.Proofs.Config.Breakdowns
import BoolQuery.Proofs.Config.EnvRows
import BoolQuery.Proofs.Toml.Written
import Mathlib.Data.List.Nodup

/-! Sources that carry the settings.

A number can be given by a variable, by a row of the environment file, or by the configuration file
as an integer or a text. If one source gives both numbers and the others say nothing of them, then
these are the settings: `load_carried`.
-/

set_option autoImplicit false

namespace BoolQuery.Config

open Data (Writable)
open Files (Path View)
open Text (Quoting Trimmed Unbroken isSpace)
open Toml (Bare Part numberData)

/-! ## Numbers as values -/

section

variable (quoting : Quoting) {number : Nat}

theorem isBlank_numberData (number : Nat) : isBlank (numberData quoting number) = false := by
  have digits := Numeral.trimmed_toDigits number
  unfold numberData
  split
  · rfl
  · rw [isBlank, toList_toString_nat, Text.trim, Text.trimWhile_eq_self digits]
    exact List.isEmpty_eq_false_iff.mpr Nat.toDigits_ne_nil

theorem isShortInt_natCast (small : number < Data.textBound) :
    Data.isShortInt number = true := by
  rw [Data.isShortInt, Int.natAbs_natCast]
  exact decide_eq_true small

theorem natural?_numberData (small : number < Data.textBound) :
    natural? (numberData quoting number) = some number := by
  have digits := Numeral.trimmed_toDigits number
  unfold numberData
  split
  · simp only [natural?, isShortInt_natCast small, if_true]
    rfl
  · -- A numeral may be as long as the text of an integer.
    have few : (Nat.toDigits 10 number).length ≤ Numeral.maxDigits :=
      Data.length_toDigits_le_iff.mpr small
    rw [natural?, toList_toString_nat, Text.trim, Text.trimWhile_eq_self digits,
      Numeral.read_toDigits few]
    rfl

theorem writable_numberData (small : number < Data.textBound) (steps : Nat) :
    Writable steps (numberData quoting number) := by
  unfold numberData
  split
  · exact Data.writable_int steps (isShortInt_natCast small)
  · exact Data.writable_text steps _

theorem present_numberData (number : Nat) :
    present (some (numberData quoting number)) = some (numberData quoting number) := by
  unfold numberData
  split <;> rfl

theorem overlay_numberData (number : Nat) :
    overlay none (some (numberData quoting number)) = some (numberData quoting number) := by
  unfold numberData
  split <;> rfl

end

/-! ## What is given -/

/-- A table whose values for settings are numbers, if it has any. -/
def Numeric (table : Members) : Prop :=
  ∀ (setting : Setting) (value : Data), setting.entry table = some value →
    ∃ quoting number, number < Data.textBound ∧ value = numberData quoting number

theorem numeric_of_empty {table : Members}
    (empty : ∀ setting : Setting, setting.entry table = none) : Numeric table := by
  intro setting value held
  rw [empty] at held
  cases held

theorem Numeric.fits {table : Members} (numeric : Numeric table) (bindings : Members) :
    Fits table bindings where
  nesting := by
    have known : Writable 2 (.object (knownFields table)) := by
      refine Data.writable_object_iff.mpr fun entry member => ?_
      obtain ⟨setting, -, same⟩ := List.mem_filterMap.mp member
      obtain ⟨value, held, rfl⟩ := Option.map_eq_some_iff.mp same
      obtain ⟨quoting, number, small, rfl⟩ := numeric setting value held
      exact (Data.writable_nil 1).put _ (writable_numberData quoting small 0)
    exact nestingMembers_le_of_writable known (by decide)
  writable := by
    intro setting _ value held
    cases entry : setting.entry table with
    | none =>
      rw [entry] at held
      cases held
    | some number =>
      obtain ⟨quoting, number, small, rfl⟩ := numeric setting _ entry
      rw [entry, overlay_numberData] at held
      cases held
      exact writable_numberData quoting small _

theorem Setting.Takes.eq_of_natural? {setting : Setting} {value : Data} {number parsed : Nat}
    (takes : setting.Takes (some value) number) (full : isBlank value = false)
    (reads : natural? value = some parsed) : number = parsed := by
  generalize held : some value = given at takes
  cases takes with
  | absent => cases held
  | blank blank =>
    cases held
    exact Bool.noConfusion (blank.symm.trans full)
  | parsed _ other =>
    cases held
    exact Option.some.inj (other.symm.trans reads)

theorem Settings.ext_get {settings others : Settings}
    (same : ∀ setting, settings.get setting = others.get setting) : settings = others := by
  obtain ⟨indent, length⟩ := settings
  obtain ⟨indent', length'⟩ := others
  cases (same .outputIndent : indent = indent')
  cases (same .maxQueryLength : length = length')
  rfl

/-- Settings with few enough digits to be read. -/
def Settings.Small (settings : Settings) : Prop :=
  ∀ setting, settings.get setting < Data.textBound

section

variable {settings : Settings} (small : settings.Small) {view : View} {environment : Environment}
  {choice : Choice}

include small

/-- What is given for both settings is loaded. -/
theorem load_of_given {envFile mapping : Environment} {table : Members}
    (read : loadEnvFile view (Source.envFile.resolve choice.envFile environment) = .ok envFile)
    (decoded : loadTable view (Source.configFile.resolve choice.configFile environment) =
      .ok table)
    (bound : choice.bindings.getD environment.toMembers = mapping.toMembers)
    (distinct : Distinct mapping.toMembers) (numeric : Numeric table)
    (given : ∀ setting : Setting, ∃ quoting, setting.given envFile table mapping.toMembers =
      some (numberData quoting (settings.get setting))) :
    load view environment choice = .ok settings := by
  have distinct' := distinct_loadEnvFile read
  have manageable := (manageable_iff table distinct' distinct (texts_toMembers mapping)).mpr
    (numeric.fits mapping.toMembers)
  have follows := follows_settingsOfSources distinct' distinct manageable
  have accepted : ∀ setting : Setting,
      ¬ Refused (setting.given envFile table mapping.toMembers) := by
    rintro setting ⟨value, held, -, unread⟩
    obtain ⟨quoting, known⟩ := given setting
    cases known.symm.trans held
    rw [natural?_numberData quoting (small setting)] at unread
    cases unread
  obtain ⟨loaded, outcome⟩ := follows.loaded_iff.mpr accepted
  have same : loaded = settings := by
    refine Settings.ext_get fun setting => ?_
    have takes := follows.takes loaded outcome setting
    obtain ⟨quoting, known⟩ := given setting
    rw [known] at takes
    exact takes.eq_of_natural? (isBlank_numberData quoting _)
      (natural?_numberData quoting (small setting))
  rw [load_eq read decoded, bound, outcome, same]

end

/-! ## Written settings -/

/-- How a file that gives both settings is written: in which order, which numbers stand between
quotes, and how many line ends come last. -/
structure Writing where
  order : List Setting
  complete : order.Perm Setting.all
  quoting : Setting → Quoting
  ends : Nat

namespace Setting

/-- The row of an environment file that gives a setting its number. -/
def row (setting : Setting) (exported : Bool) (quoting : Quoting) (number : Nat) : List Char :=
  exportPart exported ++
    (setting.variableName.toList ++ '=' :: quoting.enclose (Nat.toDigits 10 number))

/-- The table of a configuration file that holds the number of a setting. -/
def part (setting : Setting) (quoting : Quoting) (number : Nat) : Part :=
  ⟨setting.path.1, setting.path.2, quoting, number⟩

theorem bindable (setting : Setting) : Bindable setting.variableName.toList where
  filled := by cases setting <;> decide
  undivided c inside := by
    have all : setting.variableName.toList.all (· != '=') := by cases setting <;> decide
    simpa using List.all_eq_true.mp all c inside
  trimmed := by
    constructor <;> cases setting <;> rintro _ ⟨⟩ <;> rfl
  uncommented := by cases setting <;> rintro _ ⟨⟩ <;> decide
  unexported := by cases setting <;> decide
  different := by cases setting <;> decide

theorem bare_path (setting : Setting) :
    Bare setting.path.1.toList ∧ Bare setting.path.2.toList := by
  have bare {name : List Char} (nonempty : name ≠ []) (all : name.all Toml.isBareKeyChar) :
      Bare name := ⟨nonempty, List.all_eq_true.mp all⟩
  cases setting <;> exact ⟨bare (by decide) (by decide), bare (by decide) (by decide)⟩

theorem sound_part (setting : Setting) (quoting : Quoting) {number : Nat}
    (small : number < Data.textBound) : (setting.part quoting number).Sound :=
  ⟨setting.bare_path.1, setting.bare_path.2, small⟩

theorem readBinding?_row (setting : Setting) (exported : Bool) (quoting : Quoting)
    (number : Nat) :
    readBinding? (setting.row exported quoting number) =
      some (setting.variableName, toString number) := by
  have nothing : ∀ c ∈ ([] : List Char), isSpace c = true := by simp
  have digit : ∀ c ∈ (Nat.toDigits 10 number).head?, ¬ IsQuote c := by
    rintro c here (rfl | rfl)
    · cases isDigit_of_mem (List.mem_of_mem_head? here)
    · cases isDigit_of_mem (List.mem_of_mem_head? here)
  have filled : quoting.enclose (Nat.toDigits 10 number) ≠ [] := by
    simp [Quoting.enclose]
  have read := setting.bindable.readBinding? exported nothing nothing nothing nothing filled
    (trimmed_enclose fun _ => Numeral.trimmed_toDigits number)
  rw [List.nil_append, List.nil_append, List.nil_append, List.append_nil,
    unquote_enclose fun _ => digit, String.ofList_toList, ← toList_toString_nat,
    String.ofList_toList, toList_toString_nat] at read
  exact read

theorem unbroken_row (setting : Setting) (exported : Bool) (quoting : Quoting) (number : Nat) :
    Unbroken (setting.row exported quoting number) := by
  have word : Unbroken (exportPart exported) := by
    cases exported <;> exact Text.unbroken_of_all (by decide)
  have name : Unbroken setting.variableName.toList := by
    cases setting <;> exact Text.unbroken_of_all (by decide)
  have mark : Unbroken quoting.mark := by
    cases quoting <;> exact Text.unbroken_of_all (by decide)
  have digits : Unbroken (Nat.toDigits 10 number) := fun c inside =>
    of_isDigit (motive := fun c => Text.isLineEnd c = false) (by decide) (isDigit_of_mem inside)
  have divides : Text.isLineEnd '=' = false := rfl
  unfold Unbroken at *
  simp only [row, Quoting.enclose, List.forall_mem_append, List.forall_mem_cons]
  exact ⟨word, name, divides, mark, digits, mark⟩

theorem variableName_inj {setting other : Setting}
    (same : setting.variableName = other.variableName) : setting = other :=
  Option.some.inj ((ofVariable?_eq_some.mpr same).symm.trans (ofVariable?_eq_some.mpr rfl))

theorem lookup_map_variableName (value : Setting → String) {settings : List Setting}
    {setting : Setting} (member : setting ∈ settings) :
    (settings.map fun other => (other.variableName, value other)).lookup setting.variableName =
      some (value setting) := by
  induction settings with
  | nil => cases member
  | cons other settings ih =>
    rw [List.map_cons, List.lookup_cons]
    by_cases same : setting = other
    · rw [same, beq_self_eq_true]
    · have differs : (setting.variableName == other.variableName) = false := by
        simpa using fun equal => same (variableName_inj equal)
      rw [differs]
      exact ih ((List.mem_cons.mp member).resolve_left same)

end Setting

namespace Writing

variable (writing : Writing) (settings : Settings)

def rows (exported : Setting → Bool) : List (List Char) :=
  writing.order.map fun setting =>
    setting.row (exported setting) (writing.quoting setting) (settings.get setting)

/-- The environment file, in which some names stand behind the word export. -/
def envText (exported : Setting → Bool) : String :=
  String.ofList (['\n'].intercalate (writing.rows settings exported ++
    List.replicate writing.ends []))

def parts : List Part :=
  writing.order.map fun setting =>
    setting.part (writing.quoting setting) (settings.get setting)

/-- The configuration file. -/
def tableText : String :=
  String.ofList (['\n'].intercalate ((writing.parts settings).flatMap Part.rows ++
    List.replicate writing.ends []))

theorem mem_order (setting : Setting) : setting ∈ writing.order :=
  writing.complete.mem_iff.mpr (by cases setting <;> decide)

theorem nodup_order : writing.order.Nodup := writing.complete.nodup_iff.mpr (by decide)

theorem nodup_parts : ((writing.parts settings).map Part.name).Nodup := by
  rw [parts, List.map_map]
  refine List.Nodup.map (fun setting other same => ?_) writing.nodup_order
  exact Classical.byContradiction fun differs => Setting.section_ne differs same

variable {settings}

theorem sound_parts (small : settings.Small) : ∀ part ∈ writing.parts settings, part.Sound := by
  intro part member
  obtain ⟨setting, -, rfl⟩ := List.mem_map.mp member
  exact setting.sound_part _ (small setting)

theorem read_tableText (small : settings.Small) :
    ∃ table, Toml.read (writing.tableText settings) = .ok table ∧ ∀ setting : Setting,
      setting.entry table = some (numberData (writing.quoting setting) (settings.get setting)) := by
  obtain ⟨table, decoded, held⟩ := Toml.read_parts (writing.nodup_parts settings)
    (writing.sound_parts small) writing.ends
  refine ⟨table, decoded, fun setting => ?_⟩
  have found : table.lookup setting.path.1 = some (.object [(setting.path.2,
      numberData (writing.quoting setting) (settings.get setting))]) :=
    held _ (List.mem_map_of_mem (writing.mem_order setting))
  simp only [Setting.entry, find?, child, found, Option.bind_some, Data.members?,
    Option.getD_some, List.lookup_cons, beq_self_eq_true]

variable (settings)

theorem filterMap_rows (exported : Setting → Bool) :
    (writing.rows settings exported ++ List.replicate writing.ends []).filterMap readBinding? =
      writing.order.map fun setting =>
        (setting.variableName, toString (settings.get setting)) := by
  have blank : (List.replicate writing.ends []).filterMap readBinding? = [] := by
    refine List.filterMap_eq_nil_iff.mpr fun row member => ?_
    rw [List.eq_of_mem_replicate member]
    rfl
  have each : (readBinding? ∘ fun setting : Setting =>
      setting.row (exported setting) (writing.quoting setting) (settings.get setting)) =
      some ∘ fun setting => (setting.variableName, toString (settings.get setting)) :=
    funext fun setting => setting.readBinding?_row _ _ _
  rw [List.filterMap_append, blank, List.append_nil, rows, List.filterMap_map, each,
    List.filterMap_eq_map]

theorem lookup_envText (exported : Setting → Bool) (setting : Setting) :
    (readEnvFile (writing.envText settings exported)).lookup setting.variableName =
      some (toString (settings.get setting)) := by
  have member := writing.mem_order setting
  rw [envText, lookup_readEnvFile, filterMap_rows, ← List.map_reverse]
  · exact Setting.lookup_map_variableName (fun setting => toString (settings.get setting))
      (List.mem_reverse.mpr member)
  · exact List.append_ne_nil_of_left_ne_nil
      (List.ne_nil_of_mem (List.mem_map_of_mem member)) _
  · intro row member
    obtain written | blank := List.mem_append.mp member
    · obtain ⟨setting, -, rfl⟩ := List.mem_map.mp written
      exact setting.unbroken_row _ _ _
    · rw [List.eq_of_mem_replicate blank]
      exact List.forall_mem_nil _

end Writing

/-! ## Carriers -/

/-- The environment file at a path, if there is one, gives no setting a value. -/
def SilentEnvFile (view : View) (path : Path) : Prop :=
  ∃ envFile, loadEnvFile view path = .ok envFile ∧
    ∀ setting : Setting, envFile.lookup setting.variableName = none

/-- The configuration file at a path, if there is one, holds no value of a setting. -/
def SilentTable (view : View) (path : Path) : Prop :=
  ∃ table, loadTable view path = .ok table ∧ ∀ setting : Setting, setting.entry table = none

/-- Variables, each with one value, of which none belongs to a setting. -/
def SilentVariables (bindings : Members) : Prop :=
  ∃ mapping : Environment, bindings = mapping.toMembers ∧ Distinct mapping.toMembers ∧
    ∀ setting : Setting, mapping.lookup setting.variableName = none

theorem silentEnvFile_of_missing {view : View} {path : Path}
    (missing : view path = .error .missing) : SilentEnvFile view path := by
  refine ⟨[], ?_, fun _ => rfl⟩
  rw [loadEnvFile, Source.read, missing]
  rfl

theorem silentTable_of_missing {view : View} {path : Path}
    (missing : view path = .error .missing) : SilentTable view path := by
  refine ⟨[], ?_, fun setting => by cases setting <;> rfl⟩
  rw [loadTable, Source.read, missing]
  rfl

/-- One source gives both settings their numbers, and the others say nothing of them. -/
inductive Carries (settings : Settings) (view : View) (environment : Environment)
    (choice : Choice) : Prop where
  | bindings {mapping : Environment} :
      choice.bindings.getD environment.toMembers = mapping.toMembers →
      Distinct mapping.toMembers →
      (∀ setting : Setting,
        mapping.lookup setting.variableName = some (toString (settings.get setting))) →
      SilentEnvFile view (Source.envFile.resolve choice.envFile environment) →
      SilentTable view (Source.configFile.resolve choice.configFile environment) →
      Carries settings view environment choice
  | envFile (writing : Writing) (exported : Setting → Bool) :
      view (Source.envFile.resolve choice.envFile environment) =
        .ok (some (writing.envText settings exported)) →
      SilentTable view (Source.configFile.resolve choice.configFile environment) →
      SilentVariables (choice.bindings.getD environment.toMembers) →
      Carries settings view environment choice
  | configFile (writing : Writing) :
      view (Source.configFile.resolve choice.configFile environment) =
        .ok (some (writing.tableText settings)) →
      SilentEnvFile view (Source.envFile.resolve choice.envFile environment) →
      SilentVariables (choice.bindings.getD environment.toMembers) →
      Carries settings view environment choice
  -- The configuration file may be written in any other way that is decoded to the numbers.
  | table {text : String} {table : Members} :
      view (Source.configFile.resolve choice.configFile environment) = .ok (some text) →
      Toml.read text = .ok table →
      (∀ setting : Setting, ∃ quoting,
        setting.entry table = some (numberData quoting (settings.get setting))) →
      SilentEnvFile view (Source.envFile.resolve choice.envFile environment) →
      SilentVariables (choice.bindings.getD environment.toMembers) →
      Carries settings view environment choice

section

variable {settings : Settings} (small : settings.Small) {view : View} {environment : Environment}
  {choice : Choice}

include small

theorem load_of_bindings {mapping : Environment}
    (bound : choice.bindings.getD environment.toMembers = mapping.toMembers)
    (distinct : Distinct mapping.toMembers)
    (numbers : ∀ setting : Setting,
      mapping.lookup setting.variableName = some (toString (settings.get setting)))
    (silent : SilentEnvFile view (Source.envFile.resolve choice.envFile environment))
    (silent' : SilentTable view (Source.configFile.resolve choice.configFile environment)) :
    load view environment choice = .ok settings := by
  obtain ⟨envFile, read, -⟩ := silent
  obtain ⟨table, decoded, empty⟩ := silent'
  refine load_of_given small read decoded bound distinct (numeric_of_empty empty)
    fun setting => ⟨.double, ?_⟩
  rw [Setting.given, Environment.lookup_toMembers, numbers]
  rfl

theorem load_of_envFile (writing : Writing) (exported : Setting → Bool)
    (found : view (Source.envFile.resolve choice.envFile environment) =
      .ok (some (writing.envText settings exported)))
    (silent : SilentTable view (Source.configFile.resolve choice.configFile environment))
    (silent' : SilentVariables (choice.bindings.getD environment.toMembers)) :
    load view environment choice = .ok settings := by
  obtain ⟨table, decoded, empty⟩ := silent
  obtain ⟨mapping, bound, distinct, unbound⟩ := silent'
  have read : loadEnvFile view (Source.envFile.resolve choice.envFile environment) =
      .ok (readEnvFile (writing.envText settings exported)) := by
    rw [loadEnvFile, Source.read, found]
    rfl
  refine load_of_given small read decoded bound distinct (numeric_of_empty empty)
    fun setting => ⟨.double, ?_⟩
  rw [Setting.given, Environment.lookup_toMembers, unbound, empty, writing.lookup_envText]
  rfl

theorem load_of_table {text : String} {table : Members}
    (found : view (Source.configFile.resolve choice.configFile environment) = .ok (some text))
    (decoded : Toml.read text = .ok table)
    (numbers : ∀ setting : Setting, ∃ quoting,
      setting.entry table = some (numberData quoting (settings.get setting)))
    (silent : SilentEnvFile view (Source.envFile.resolve choice.envFile environment))
    (silent' : SilentVariables (choice.bindings.getD environment.toMembers)) :
    load view environment choice = .ok settings := by
  obtain ⟨envFile, read, -⟩ := silent
  obtain ⟨mapping, bound, distinct, unbound⟩ := silent'
  have numeric : Numeric table := by
    intro setting value held
    obtain ⟨quoting, known⟩ := numbers setting
    exact ⟨quoting, _, small setting, Option.some.inj (held.symm.trans known)⟩
  refine load_of_given small read (loadTable_of_text found decoded) bound distinct numeric
    fun setting => ?_
  obtain ⟨quoting, known⟩ := numbers setting
  refine ⟨quoting, ?_⟩
  rw [Setting.given, Environment.lookup_toMembers, unbound, known, present_numberData]
  rfl

/-- It does not matter which source carries the settings. -/
theorem load_carried (carried : Carries settings view environment choice) :
    load view environment choice = .ok settings := by
  cases carried with
  | bindings bound distinct numbers silent silent' =>
    exact load_of_bindings small bound distinct numbers silent silent'
  | envFile writing exported found silent silent' =>
    exact load_of_envFile small writing exported found silent silent'
  | configFile writing found silent silent' =>
    obtain ⟨table, decoded, held⟩ := writing.read_tableText small
    exact load_of_table small found decoded (fun setting => ⟨_, held setting⟩) silent silent'
  | table found decoded numbers silent silent' =>
    exact load_of_table small found decoded numbers silent silent'

end

end BoolQuery.Config
