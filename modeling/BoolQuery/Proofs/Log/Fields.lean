import BoolQuery.Proofs.Data.Named
import BoolQuery.Proofs.Log.Objects

/-! What becomes of the fields of a record.

Of the names that logging takes and that have no underscore in front, one is hidden: the name of a
task. Every other field is among the pairs at the end of the first line of the text, and among the
members of the object. There a field can have the name of a member that tells of the record itself,
and stands in its place: `accepted_fields_shown`.
-/

set_option autoImplicit false

namespace BoolQuery.Log

/-! ## Names -/

/-- Fields that logging takes, none of them under a name with an underscore in front. -/
structure Fields.Accepted (fields : Fields) : Prop where
  once : (fields.map Prod.fst).Nodup
  unrefused : ∀ field ∈ fields, field.1 ∉ refusedNames
  bare : ∀ field ∈ fields, field.1.toList.head? ≠ some '_'

/-- The fields that have a place in a line. -/
def Fields.kept (fields : Fields) : Fields := fields.filter fun field => field.1 ≠ "taskName"

def Fields.toMembers (fields : Fields) : Members :=
  fields.map fun field => (field.1, field.2.toData)

theorem map_fst_toMembers (fields : Fields) :
    fields.toMembers.map Prod.fst = fields.map Prod.fst := by
  rw [Fields.toMembers, List.map_map]
  rfl

theorem Fields.Accepted.nodup_kept {fields : Fields} (accepted : fields.Accepted) :
    (fields.kept.map Prod.fst).Nodup :=
  accepted.once.sublist (List.filter_sublist.map Prod.fst)

theorem Fields.Accepted.message_not_mem {fields : Fields} (accepted : fields.Accepted) :
    "message" ∉ fields.kept.map Prod.fst := by
  intro named
  obtain ⟨field, member, same⟩ := List.mem_map.mp named
  apply accepted.unrefused field (List.mem_of_mem_filter member)
  rw [same]
  decide

theorem Fields.Accepted.isShown_eq {fields : Fields} (accepted : fields.Accepted)
    {field : String × Field} (member : field ∈ fields) :
    isShown field.1 = decide (field.1 ≠ "taskName") := by
  have unrefused := accepted.unrefused field member
  have bare := accepted.bare field member
  -- Every hidden name but this one is refused.
  simp [isShown, hiddenNames, unrefused, bare]

section

variable {entry : Entry} (accepted : entry.fields.Accepted)
include accepted

theorem shownFields_eq : entry.shownFields = entry.fields.kept := by
  apply List.filter_congr
  intro field member
  exact accepted.isShown_eq member

theorem isWritable_iff :
    entry.isWritable = true ↔ ∀ field ∈ entry.fields.kept, field.2.toData.hasText = true := by
  rw [Entry.isWritable, shownFields_eq accepted, List.all_eq_true]
  apply forall_congr'
  intro field
  cases field.2 with
  | data value => rfl
  | path text => simp [Field.toData, Data.hasText]

theorem isSome_render?_iff (layout : Layout) :
    (layout.render? entry).isSome = true ↔
      ∀ field ∈ entry.fields.kept, field.2.toData.hasText = true := by
  rw [← isWritable_iff accepted]
  cases writable : entry.isWritable with
  | false => simp [Layout.render?, writable]
  | true => cases layout <;> simp [Layout.render?, writable]

end

/-! ## Pairs of a text -/

def pairText (field : String × Field) : List Char := field.1.toList ++ '=' :: field.2.plain

/-- A bar and the pairs, with blanks between them. -/
def pairsText : Fields → List Char
  | [] => []
  | field :: fields =>
    " | ".toList ++ pairText field ++ fields.flatMap fun other => ' ' :: pairText other

theorem fieldPairs_cons (field : String × Field) (fields : Fields) :
    fieldPairs (field :: fields) =
      pairText field ++ fields.flatMap fun other => ' ' :: pairText other := by
  induction fields generalizing field with
  | nil => simp [fieldPairs, pairText]
  | cons other fields ih =>
    rw [List.flatMap_cons, List.cons_append, ← ih other]
    simp [fieldPairs, pairText]

/-- What the line of an entry is without its fields. -/
def Entry.bareText (entry : Entry) : List Char := Entry.toText { entry with fields := [] }

theorem toText_eq {entry : Entry} (accepted : entry.fields.Accepted) :
    entry.toText = entry.bareText.takeWhile (· != '\n') ++ pairsText entry.fields.kept ++
      entry.bareText.dropWhile (· != '\n') := by
  have bare : entry.bareText = appendLine (appendLine
      (" | ".intercalate [timeMark, entry.level, entry.logger, entry.message]).toList
        ((presentText entry.faultText).or (entry.fault.map Fault.describe)))
      (presentText entry.stack) := by
    rw [Entry.bareText, Entry.toText]
    simp [Entry.shownFields, fieldPairs]
  rw [Entry.toText, shownFields_eq accepted, ← bare]
  cases entry.fields.kept with
  | nil => simp [pairsText, fieldPairs]
  | cons field fields => simp [pairsText, fieldPairs_cons, pairText]

/-! ## Members of an object -/

/-- The members of an entry that has no fields. -/
def Entry.own (entry : Entry) : Members :=
  entry.parts ++ optionalMember "exception" (entry.fault.map Fault.describe) ++
    optionalMember "stack" (presentText entry.stack)

theorem sublist_names_own (entry : Entry) :
    (entry.own.map Prod.fst).Sublist
      ["timestamp", "level", "logger", "message", "exception", "stack"] := by
  rw [Entry.own]
  cases entry.fault.map Fault.describe with
  | none => cases presentText entry.stack <;> simp [Entry.parts, optionalMember]
  | some fault => cases presentText entry.stack <;> simp [Entry.parts, optionalMember]

theorem nodup_own (entry : Entry) : (entry.own.map Prod.fst).Nodup := by
  have listed : ["timestamp", "level", "logger", "message", "exception", "stack"].Nodup := by decide
  exact listed.sublist (sublist_names_own entry)

theorem exact_optionalMember (name : String) (text : Option String) :
    ∀ part ∈ optionalMember name text, Json.Exact part.2 := by
  cases text with
  | none => exact List.forall_mem_nil _
  | some text =>
    intro part member
    rw [List.mem_singleton.mp member]
    exact .text text

theorem exact_own (entry : Entry) : ∀ part ∈ entry.own, Json.Exact part.2 := by
  rw [Entry.own, List.forall_mem_append, List.forall_mem_append]
  exact ⟨⟨entry.exact_parts, exact_optionalMember _ _⟩, exact_optionalMember _ _⟩

theorem lookup_own {entry : Entry} {part : String × Data} (member : part ∈ entry.parts) :
    entry.own.lookup part.1 = some part.2 := by
  apply (lookup_eq_some_iff_mem (nodup_own entry)).mpr
  exact List.mem_append_left _ (List.mem_append_left _ member)

section

variable {entry : Entry} (accepted : entry.fields.Accepted)
include accepted

theorem members_eq : entry.members =
    entry.fields.kept.toMembers.foldl (fun all field => all.put field.1 field.2) entry.own := by
  rw [Entry.members, shownFields_eq accepted, Fields.toMembers, List.foldl_map]
  rfl

theorem nodup_toMembers : (entry.fields.kept.toMembers.map Prod.fst).Nodup := by
  rw [map_fst_toMembers]
  exact accepted.nodup_kept

theorem map_fst_members : entry.members.map Prod.fst = entry.own.map Prod.fst ++
    (entry.fields.kept.map Prod.fst).filter (· ∉ entry.own.map Prod.fst) := by
  rw [members_eq accepted, Members.map_fst_foldl_put _ (nodup_toMembers accepted),
    map_fst_toMembers]

theorem lookup_members (name : String) : entry.members.lookup name =
    (entry.fields.kept.toMembers.lookup name).or (entry.own.lookup name) := by
  rw [members_eq accepted, Members.lookup_foldl_put _ (nodup_toMembers accepted)]

theorem lookup_members_of_kept {field : String × Field} (member : field ∈ entry.fields.kept) :
    entry.members.lookup field.1 = some field.2.toData := by
  have held : (field.1, field.2.toData) ∈ entry.fields.kept.toMembers :=
    List.mem_map_of_mem (f := fun field : String × Field => (field.1, field.2.toData)) member
  rw [lookup_members accepted, (lookup_eq_some_iff_mem (nodup_toMembers accepted)).mpr held]
  rfl

theorem lookup_members_of_own {part : String × Data} (member : part ∈ entry.parts)
    (apart : part.1 ∉ entry.fields.kept.map Prod.fst) :
    entry.members.lookup part.1 = some part.2 := by
  rw [← map_fst_toMembers] at apart
  rw [lookup_members accepted, lookup_eq_none.mpr apart, lookup_own member]
  rfl

theorem exact_members (exact : ∀ field ∈ entry.fields.kept, Json.Exact field.2.toData) :
    Json.Exact (.object entry.members) := by
  have once : (entry.members.map Prod.fst).Nodup := by
    rw [members_eq accepted]
    exact Members.nodup_foldl_put (nodup_own entry) (nodup_toMembers accepted)
  apply Json.Exact.object once
  intro member inside
  have found := (lookup_eq_some_iff_mem once).mpr inside
  rw [lookup_members accepted, Option.or_eq_some_iff] at found
  cases found with
  | inl shown =>
    have held := (lookup_eq_some_iff_mem (nodup_toMembers accepted)).mp shown
    obtain ⟨field, kept, same⟩ := List.mem_map.mp held
    have value : field.2.toData = member.2 := congrArg Prod.snd same
    rw [← value]
    exact exact field kept
  | inr own => exact exact_own entry member ((lookup_eq_some_iff_mem (nodup_own entry)).mp own.2)

end

/-! ## Lines -/

theorem entry?_eq_some {record : Record} {entry : Entry} (told : record.entry? = some entry) :
    entry.level = levelName record.level ∧ entry.logger = record.loggerName ∧
      entry.fields = record.fields := by
  rw [Record.entry?] at told
  split at told
  next => cases told
  next =>
    obtain rfl := Option.some.inj told
    exact ⟨rfl, rfl, rfl⟩

theorem toList_of_render?_text {entry : Entry} {line : String}
    (rendered : Layout.text.render? entry = some line) : line.toList = entry.toText := by
  cases writable : entry.isWritable with
  | false => simp [Layout.render?, writable] at rendered
  | true =>
    simp only [Layout.render?, writable, if_true, Option.some.injEq] at rendered
    rw [← rendered, String.toList_ofList]

theorem eq_write_of_render?_json {entry : Entry} {line : String}
    (rendered : Layout.json.render? entry = some line) :
    line = Json.write .line (.object entry.members) := by
  cases writable : entry.isWritable with
  | false => simp [Layout.render?, writable] at rendered
  | true =>
    simp only [Layout.render?, writable, if_true, Option.some.injEq] at rendered
    exact rendered.symm

end BoolQuery.Log
