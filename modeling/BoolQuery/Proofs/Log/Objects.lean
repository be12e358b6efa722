import BoolQuery.Proofs.Data.Writable
import BoolQuery.Proofs.Json.Characters
import BoolQuery.Proofs.Log.Routing
import BoolQuery.Proofs.Number.Decimal

/-! Records as objects on lines of their own.

What the JSON layout makes of a record is one line of visible characters, and reading it gives the
record's own parts and then its fields, each with its value: `render?_json_extra`. Only a field that
hides the message takes the line away, in either layout: `json_line_decodes`.
-/

set_option autoImplicit false

namespace BoolQuery.Log

/-! ## Fields -/

/-- What a field can hold and give back: constants, texts, integers that are not too long, and lists
and objects of these. -/
inductive Tellable : Data → Prop where
  | null : Tellable .null
  | bool (value : Bool) : Tellable (.bool value)
  | int {value : Int} : (Nat.toDigits 10 value.natAbs).length ≤ Data.maxTextDigits →
      Tellable (.int value)
  | text (value : String) : Tellable (.text value)
  | list {items : List Data} : (∀ item ∈ items, Tellable item) → Tellable (.list items)
  | object {members : Members} : (members.map Prod.fst).Nodup →
      (∀ entry ∈ members, Tellable entry.2) → Tellable (.object members)

theorem Tellable.exact {value : Data} (tellable : Tellable value) : Json.Exact value := by
  induction tellable with
  | null => exact .null
  | bool value => exact .bool value
  | int => exact .int _
  | text value => exact .text value
  | list _ ih => exact .list ih
  | object once _ ih => exact .object once ih

theorem Tellable.hasText {value : Data} (tellable : Tellable value) : value.hasText = true := by
  induction tellable with
  | null | bool | text => simp only [Data.hasText]
  | int short => rwa [Data.hasText, Data.isShortInt_iff]
  | list _ ih => rwa [Data.hasText, Data.allHaveText_iff]
  | object _ _ ih => rwa [Data.hasText, Data.allMembersHaveText_iff]

/-- Fields that are shown behind the parts of a record, under names that no part has. -/
structure Extra (fields : Members) : Prop where
  once : (fields.map Prod.fst).Nodup
  shown : ∀ name ∈ fields.map Prod.fst, name ∉ hiddenNames ∧ name.toList.head? ≠ some '_'
  apart : ∀ name ∈ fields.map Prod.fst, name ∉ ["timestamp", "level", "logger"]
  tellable : ∀ field ∈ fields, Tellable field.2

def Fields.ofMembers (members : Members) : Fields :=
  members.map fun (name, value) => (name, .data value)

theorem forall_mem_ofMembers {members : Members} {holds : String × Field → Prop} :
    (∀ field ∈ Fields.ofMembers members, holds field) ↔
      ∀ entry ∈ members, holds (entry.1, .data entry.2) :=
  List.forall_mem_map

theorem hideMessage_ofMembers {fields : Members} :
    (Fields.ofMembers fields).hideMessage = true ↔ messageTeller ∈ fields.map Prod.fst := by
  simp [Fields.hideMessage, Fields.ofMembers, List.any_eq_true]

/-- Members under fresh names are put behind those that are there. -/
theorem foldl_put_fresh {own fields : Members} (once : ((own ++ fields).map Prod.fst).Nodup) :
    fields.foldl (fun members field => members.put field.1 field.2) own = own ++ fields := by
  induction fields generalizing own with
  | nil => rw [List.foldl_nil, List.append_nil]
  | cons field fields ih =>
    have others := @ih (own ++ [field]) (by simpa using once)
    rw [List.foldl_cons, Json.put_fresh (Json.fresh_of_nodup once), others, List.append_assoc,
      List.singleton_append]

/-! ## Entries -/

/-- What every line says of its record, in front of the fields. -/
def Entry.parts (entry : Entry) : Members :=
  [("timestamp", .text timeMark), ("level", .text entry.level), ("logger", .text entry.logger),
   ("message", .text entry.message)]

theorem Entry.exact_parts (entry : Entry) : ∀ part ∈ entry.parts, Json.Exact part.2 := by
  simp only [Entry.parts, List.forall_mem_cons]
  exact ⟨.text _, .text _, .text _, .text _, List.forall_mem_nil _⟩

section

variable {entry : Entry} {fields : Members}

theorem Extra.shownFields (extra : Extra fields) (given : entry.fields = .ofMembers fields) :
    entry.shownFields = .ofMembers fields := by
  rw [Entry.shownFields, given, List.filter_eq_self, forall_mem_ofMembers]
  intro field member
  obtain ⟨unhidden, front⟩ := extra.shown field.1 (List.mem_map_of_mem member)
  simp [isShown, unhidden, front]

theorem Extra.isWritable (extra : Extra fields) (given : entry.fields = .ofMembers fields) :
    entry.isWritable = true := by
  rw [Entry.isWritable, extra.shownFields given, List.all_eq_true, forall_mem_ofMembers]
  exact fun field member => (extra.tellable field member).hasText

/-- The name of the message is reserved, and the others are kept apart. -/
theorem Extra.nodup_parts_append (extra : Extra fields) :
    ((entry.parts ++ fields).map Prod.fst).Nodup := by
  rw [List.map_append, List.nodup_append]
  refine ⟨by simp [Entry.parts], extra.once, ?_⟩
  rintro part own name named rfl
  have apart := extra.apart part named
  have unhidden := (extra.shown part named).1
  have message : "message" ∈ hiddenNames := by decide
  simp only [Entry.parts, List.map_cons, List.map_nil, List.mem_cons, List.not_mem_nil, or_false,
    not_or] at own apart
  obtain ⟨first, second, third⟩ := apart
  obtain rfl := ((own.resolve_left first).resolve_left second).resolve_left third
  exact unhidden message

theorem Extra.members (extra : Extra fields) (given : entry.fields = .ofMembers fields)
    (faultless : entry.fault = none) (stackless : entry.stack = none) :
    entry.members = entry.parts ++ fields := by
  rw [Entry.members, extra.shownFields given, Fields.ofMembers, List.foldl_map, faultless,
    stackless]
  exact foldl_put_fresh extra.nodup_parts_append

theorem Extra.exact (extra : Extra fields) : Json.Exact (.object (entry.parts ++ fields)) := by
  refine .object extra.nodup_parts_append ?_
  rw [List.forall_mem_append]
  exact ⟨entry.exact_parts, fun field member => (extra.tellable field member).exact⟩

theorem render?_json_extra (extra : Extra fields) (given : entry.fields = .ofMembers fields)
    (faultless : entry.fault = none) (stackless : entry.stack = none) :
    ∃ line, Layout.json.render? entry = some line ∧ (∀ c ∈ line.toList, Json.Visible c) ∧
      Json.read line = some (.object (entry.parts ++ fields)) := by
  have exact : Json.Exact (.object (entry.parts ++ fields)) := extra.exact
  refine ⟨Json.write .line (.object (entry.parts ++ fields)), ?_, ?_, Json.read_write exact .line⟩
  · rw [Layout.render?, if_pos (extra.isWritable given),
      extra.members given faultless stackless]
  · intro c member
    rw [Json.write, String.toList_ofList] at member
    -- The single line has no breaks of its own.
    obtain visible | ⟨-, block⟩ := Json.fits_writeAt .line 0 _ exact c member
    · exact visible
    · exact absurd rfl block

end

/-! ## Records -/

theorem Extra.clear {record : Record} {fields : Members} (extra : Extra fields)
    (given : record.fields = .ofMembers fields) : record.Clear := by
  rw [Record.Clear, given, forall_mem_ofMembers]
  intro field member refused
  -- Every refused name is hidden.
  exact (extra.shown field.1 (List.mem_map_of_mem member)).1 (List.mem_append_left _ refused)

end BoolQuery.Log
