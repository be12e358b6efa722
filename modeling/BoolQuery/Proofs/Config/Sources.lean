import BoolQuery.Config.Loading
import BoolQuery.Proofs.Config.Merging

/-! What the sources hold for a setting.

Bindings of variables and known fields of tables are both objects of objects, in which a setting
has one place. So the merged sources hold at this place what the three sources hold there, laid
over each other: `entry_mergeSources`.
-/

set_option autoImplicit false

namespace BoolQuery.Config

/-! ## Distinct names -/

theorem Distinct.put {members : Members} (distinct : Distinct members) (name : String)
    (value : Data) : Distinct (members.put name value) := by
  rw [Distinct, Members.map_fst_put]
  split
  next => exact distinct
  next fresh =>
    exact List.nodup_append.mpr ⟨distinct, List.pairwise_singleton _ name, fun first member last same =>
      fun equal => fresh (List.mem_singleton.mp same ▸ equal ▸ member)⟩

theorem Environment.toMembers_put (environment : Environment) (name value : String) :
    (environment.put name value).toMembers = environment.toMembers.put name (.text value) := by
  induction environment with
  | nil => rfl
  | cons binding environment ih =>
    obtain ⟨other, old⟩ := binding
    simp only [Environment.put, Environment.toMembers, List.map_cons, Members.put] at ih ⊢
    split
    · rfl
    · rw [List.map_cons, ih]

theorem Environment.lookup_toMembers (environment : Environment) (name : String) :
    environment.toMembers.lookup name = (environment.lookup name).map Data.text := by
  induction environment with
  | nil => rfl
  | cons binding environment ih =>
    obtain ⟨other, value⟩ := binding
    rw [toMembers, List.map_cons, List.lookup_cons, List.lookup_cons]
    by_cases same : (name == other) = true
    · rw [same]
      rfl
    · rw [Bool.not_eq_true] at same
      rw [same]
      exact ih

theorem distinct_readEnvFile (text : String) : Distinct (readEnvFile text).toMembers := by
  rw [readEnvFile]
  -- A name that is there already keeps its place.
  have step (environment : Environment) (distinct : Distinct environment.toMembers)
      (binding : String × String) :
      Distinct (environment.put binding.1 binding.2).toMembers := by
    rw [Environment.toMembers_put]
    exact distinct.put _ _
  exact List.foldlRecOn (motive := fun environment : Environment => Distinct environment.toMembers)
    _ _ List.nodup_nil fun environment distinct binding _ => step environment distinct binding

/-! ## The place of a setting -/

/-- What nested data hold for a setting. -/
def Setting.entry (setting : Setting) (data : Members) : Option Data :=
  find? data [setting.path.1, setting.path.2]

theorem Setting.raw_eq (setting : Setting) (data : Members) :
    setting.raw data = (setting.entry data).getD .null := rfl

theorem Setting.ofVariable?_eq_some {name : String} {setting : Setting} :
    Setting.ofVariable? name = some setting ↔ setting.variableName = name := by
  constructor
  · intro found
    simpa using List.find?_some found
  · rintro rfl
    cases setting <;> rfl

theorem Setting.section_ne {setting other : Setting} (differs : setting ≠ other) :
    setting.path.1 ≠ other.path.1 := by
  cases setting <;> cases other <;> first | exact absurd rfl differs | decide

/-- Data in which a setting has been given a value. -/
def Setting.assign (setting : Setting) (data : Members) (value : Data) : Members :=
  Config.assign data [setting.path.1, setting.path.2] value

theorem Setting.entry_assign_same (setting : Setting) (data : Members) (value : Data) :
    setting.entry (setting.assign data value) = some value := by
  simp only [entry, assign, find?, Config.assign, child_put_same, Members.lookup_put_same]

theorem Setting.entry_assign_other {setting other : Setting} (data : Members) (value : Data)
    (differs : setting ≠ other) :
    setting.entry (other.assign data value) = setting.entry data := by
  simp only [entry, assign, find?, Config.assign, child_put_other _ _ (section_ne differs)]

theorem Layered.put {data : Members} (layered : Layered data) (name : String) {inner : Members}
    (distinct : Distinct inner) : Layered (data.put name (.object inner)) where
  distinct := layered.distinct.put name _
  objects := by
    intro other value found
    by_cases same : other = name
    · rw [same, Members.lookup_put_same] at found
      cases found
      exact ⟨inner, rfl, distinct⟩
    · rw [Members.lookup_put_other _ _ same] at found
      exact layered.objects other value found

theorem Layered.assign {data : Members} (layered : Layered data) (setting : Setting)
    (value : Data) : Layered (setting.assign data value) :=
  layered.put _ ((layered.distinct_child _).put _ value)

/-! ## Bindings of variables -/

/-- The data after one more binding. -/
def bind (nested : Members) (entry : String × Data) : Members :=
  match Setting.ofVariable? entry.1 with
  | some setting => setting.assign nested entry.2
  | none => nested

theorem ofBindings_eq (bindings : Members) : ofBindings bindings = bindings.foldl bind [] := rfl

theorem Layered.bind {nested : Members} (layered : Layered nested) (entry : String × Data) :
    Layered (bind nested entry) := by
  unfold Config.bind
  split
  · exact layered.assign _ _
  · exact layered

theorem layered_ofBindings (bindings : Members) : Layered (ofBindings bindings) := by
  rw [ofBindings_eq]
  exact List.foldlRecOn bindings bind .nil fun nested layered entry _ => layered.bind entry

theorem Setting.entry_bind_same (setting : Setting) (nested : Members) (value : Data) :
    setting.entry (bind nested (setting.variableName, value)) = some value := by
  rw [bind, ofVariable?_eq_some.mpr rfl]
  exact setting.entry_assign_same nested value

theorem Setting.entry_bind_other {setting : Setting} {name : String} (nested : Members)
    (value : Data) (differs : setting.variableName ≠ name) :
    setting.entry (bind nested (name, value)) = setting.entry nested := by
  rw [bind]
  split
  next other found =>
    refine setting.entry_assign_other nested value ?_
    rintro rfl
    exact differs (ofVariable?_eq_some.mp found)
  next => rfl

theorem Setting.entry_foldl_bind (setting : Setting) {bindings : Members}
    (distinct : Distinct bindings) (nested : Members) :
    setting.entry (bindings.foldl bind nested) =
      (bindings.lookup setting.variableName).or (setting.entry nested) := by
  induction bindings generalizing nested with
  | nil => rfl
  | cons entry bindings ih =>
    obtain ⟨name, value⟩ := entry
    obtain ⟨fresh, distinct⟩ := List.nodup_cons.mp distinct
    rw [List.foldl_cons, ih distinct]
    by_cases same : setting.variableName = name
    · -- The variable is not bound again.
      subst same
      rw [lookup_eq_none.mpr fresh, entry_bind_same, List.lookup_cons, beq_self_eq_true]
      rfl
    · have skip : (setting.variableName == name) = false := by simpa using same
      rw [entry_bind_other _ _ same, List.lookup_cons, skip]

theorem Setting.entry_ofBindings (setting : Setting) {bindings : Members}
    (distinct : Distinct bindings) :
    setting.entry (ofBindings bindings) = bindings.lookup setting.variableName := by
  rw [ofBindings_eq, setting.entry_foldl_bind distinct]
  cases setting <;> exact Option.or_none

/-! ## Known fields of tables -/

/-- The part of data that a setting knows. -/
def Setting.known (data : Members) (setting : Setting) : Option (String × Data) :=
  (setting.entry data).map fun value => (setting.path.1, .object [(setting.path.2, value)])

theorem knownFields_eq (data : Members) :
    knownFields data = Setting.all.filterMap (Setting.known data) := rfl

theorem Setting.entry_cons_same (setting : Setting) (data : Members) (value : Data) :
    setting.entry ((setting.path.1, .object [(setting.path.2, value)]) :: data) = some value := by
  simp only [entry, find?, child, List.lookup_cons, beq_self_eq_true, Option.bind_some,
    Data.members?, Option.getD_some]

theorem Setting.entry_cons_other {setting other : Setting} (data : Members) (value : Data)
    (differs : setting ≠ other) :
    setting.entry ((other.path.1, value) :: data) = setting.entry data := by
  have elsewhere : (setting.path.1 == other.path.1) = false := by simpa using section_ne differs
  simp only [entry, find?, child, List.lookup_cons, elsewhere]

theorem Setting.mem_names_filterMap_known {data : Members} {settings : List Setting}
    {setting : Setting}
    (named : setting.path.1 ∈ (settings.filterMap (known data)).map Prod.fst) :
    setting ∈ settings := by
  obtain ⟨entry, kept, same⟩ := List.mem_map.mp named
  obtain ⟨other, member, held⟩ := List.mem_filterMap.mp kept
  obtain ⟨value, -, rfl⟩ := Option.map_eq_some_iff.mp held
  by_cases equal : setting = other
  · exact equal ▸ member
  · exact absurd same.symm (section_ne equal)

theorem Setting.entry_eq_none {setting : Setting} {data : Members}
    (absent : setting.path.1 ∉ data.map Prod.fst) : setting.entry data = none := by
  simp only [entry, find?, child, lookup_eq_none.mpr absent, Option.bind_none, Option.getD_none,
    List.lookup_nil]

theorem Setting.entry_filterMap_known {setting : Setting} (data : Members)
    {settings : List Setting} (once : settings.Nodup) (member : setting ∈ settings) :
    setting.entry (settings.filterMap (known data)) = setting.entry data := by
  induction settings with
  | nil => cases member
  | cons other settings ih =>
    obtain ⟨fresh, once⟩ := List.nodup_cons.mp once
    rw [List.filterMap_cons]
    by_cases same : setting = other
    · subst same
      cases held : setting.entry data with
      | none =>
        simp only [known, held, Option.map_none]
        exact entry_eq_none fun named => fresh (mem_names_filterMap_known named)
      | some value =>
        simp only [known, held, Option.map_some]
        exact setting.entry_cons_same _ value
    · have member : setting ∈ settings := (List.mem_cons.mp member).resolve_left same
      rw [← ih once member]
      cases held : other.entry data with
      | none => simp only [known, held, Option.map_none]
      | some value =>
        simp only [known, held, Option.map_some]
        exact entry_cons_other _ _ same

theorem Setting.entry_knownFields (setting : Setting) (table : Members) :
    setting.entry (knownFields table) = setting.entry table := by
  rw [knownFields_eq]
  exact entry_filterMap_known table (by decide) (by cases setting <;> decide)

theorem Layered.cons {data : Members} (layered : Layered data) {name : String}
    (fresh : name ∉ data.map Prod.fst) {inner : Members} (distinct : Distinct inner) :
    Layered ((name, .object inner) :: data) where
  distinct := List.nodup_cons.mpr ⟨fresh, layered.distinct⟩
  objects := by
    intro other value found
    rw [List.lookup_cons] at found
    split at found
    · cases found
      exact ⟨inner, rfl, distinct⟩
    · exact layered.objects other value found

theorem layered_filterMap_known (data : Members) {settings : List Setting}
    (once : settings.Nodup) : Layered (settings.filterMap (Setting.known data)) := by
  induction settings with
  | nil => exact .nil
  | cons setting settings ih =>
    obtain ⟨fresh, once⟩ := List.nodup_cons.mp once
    rw [List.filterMap_cons]
    cases held : setting.entry data with
    | none =>
      simp only [Setting.known, held, Option.map_none]
      exact ih once
    | some value =>
      simp only [Setting.known, held, Option.map_some]
      exact (ih once).cons (fun named => fresh (Setting.mem_names_filterMap_known named))
        (List.pairwise_singleton _ _)

theorem layered_knownFields (table : Members) : Layered (knownFields table) := by
  rw [knownFields_eq]
  exact layered_filterMap_known table (by decide)

/-! ## All sources -/

theorem Setting.entry_mergeSources (setting : Setting) {envFile bindings : Members}
    (table : Members) (distinct : Distinct envFile) (distinct' : Distinct bindings) :
    setting.entry (mergeSources envFile table bindings) =
      overlay (overlay (overlay none (envFile.lookup setting.variableName)) (setting.entry table))
        (bindings.lookup setting.variableName) := by
  have place : ∀ target {data : Members}, Layered data → setting.entry (merge target data) =
      overlay (setting.entry target) (setting.entry data) :=
    fun target _ layered => find?_merge target layered _ _
  rw [mergeSources, place _ (layered_ofBindings bindings), place _ (layered_knownFields table),
    place _ (layered_ofBindings envFile), setting.entry_ofBindings distinct,
    setting.entry_ofBindings distinct', setting.entry_knownFields]
  cases setting <;> rfl

end BoolQuery.Config
