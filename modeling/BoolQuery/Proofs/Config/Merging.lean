import BoolQuery.Config.Nested
import BoolQuery.Proofs.Data.Named
import BoolQuery.Proofs.Data.Writable

/-! Merging, one name at a time.

Merging an object into another one settles each name on its own: `lookup_merge`. In objects that
hold nothing but objects, whose names are distinct, this goes on one level down: `find?_merge`.
Merging makes integers no longer and values no deeper: `Writable.merge`.
-/

set_option autoImplicit false

namespace BoolQuery.Config

/-- A name appears once. -/
def Distinct (members : Members) : Prop := (members.map Prod.fst).Nodup

instance (members : Members) : Decidable (Distinct members) :=
  inferInstanceAs (Decidable (members.map Prod.fst).Nodup)

theorem child_put_same (members : Members) (name : String) (inner : Members) :
    child (members.put name (.object inner)) name = inner := by
  rw [child, Members.lookup_put_same]
  rfl

theorem child_put_other (members : Members) {name other : String} (value : Data)
    (differs : other ≠ name) : child (members.put name value) other = child members other := by
  rw [child, Members.lookup_put_other members value differs, child]

/-- What stands at a name after a value has been merged into what stood there. -/
def overlay (old : Option Data) : Option Data → Option Data
  | none | some .null => old
  | some (.object inner) => some (.object (merge ((old.bind Data.members?).getD []) inner))
  | some value => some value

/-- A leaf is a value that is neither an object nor null. -/
def IsLeaf : Data → Prop
  | .null | .object _ => False
  | .bool _ | .int _ | .float _ | .text _ | .list _ => True

theorem overlay_leaf (old : Option Data) {value : Data} (leaf : IsLeaf value) :
    overlay old (some value) = some value := by
  cases value with
  | null | object => exact leaf.elim
  | bool | int | float | text | list => rfl

theorem lookup_mergeValue_same (target : Members) (name : String) (value : Data) :
    (mergeValue target name value).lookup name = overlay (target.lookup name) (some value) := by
  cases value with
  | null => simp only [mergeValue, overlay]
  | object inner =>
    simp only [mergeValue, overlay, Members.lookup_put_same]
    rfl
  | bool | int | float | text | list => simp only [mergeValue, overlay, Members.lookup_put_same]

theorem lookup_mergeValue_other (target : Members) {name other : String} (value : Data)
    (differs : other ≠ name) :
    (mergeValue target name value).lookup other = target.lookup other := by
  cases value with
  | null => simp only [mergeValue]
  | bool | int | float | text | list | object =>
    simp only [mergeValue, Members.lookup_put_other _ _ differs]

/-- Each name is settled on its own. -/
theorem lookup_merge (target : Members) {data : Members} (distinct : Distinct data)
    (name : String) :
    (merge target data).lookup name = overlay (target.lookup name) (data.lookup name) := by
  induction data generalizing target with
  | nil => simp only [merge, List.lookup_nil, overlay]
  | cons entry data ih =>
    obtain ⟨first, value⟩ := entry
    obtain ⟨fresh, distinct⟩ := List.nodup_cons.mp distinct
    rw [merge, ih _ distinct]
    by_cases same : name = first
    · -- The name does not come again, so the rest leaves alone what was merged.
      subst same
      rw [lookup_eq_none.mpr fresh, lookup_mergeValue_same, List.lookup_cons, beq_self_eq_true]
      rfl
    · have skip : (name == first) = false := by simpa using same
      rw [lookup_mergeValue_other _ _ same, List.lookup_cons, skip]

/-- Where no leaf comes in, what stands within a name is merged on its own. -/
theorem child_merge_of_no_leaf (target : Members) {data : Members} (distinct : Distinct data)
    {name : String} (clear : ∀ value, data.lookup name = some value → ¬ IsLeaf value) :
    child (merge target data) name = merge (child target name) (child data name) := by
  unfold child
  rw [lookup_merge target distinct]
  cases found : data.lookup name with
  | none => simp only [overlay, Option.bind_none, Option.getD_none, merge]
  | some value =>
    cases value with
    | null => simp only [overlay, Option.bind_some, Data.members?, Option.getD_none, merge]
    | object inner => rfl
    | bool | int | float | text | list => exact absurd trivial (clear _ found)

/-! ## Objects of objects -/

/-- Every member is an object, and names are distinct on both levels. -/
structure Layered (data : Members) : Prop where
  distinct : Distinct data
  objects : ∀ name, ∀ value ∈ data.lookup name, ∃ inner, value = .object inner ∧ Distinct inner

theorem Layered.nil : Layered [] := ⟨List.nodup_nil, by simp⟩

theorem Layered.distinct_child {data : Members} (layered : Layered data) (name : String) :
    Distinct (child data name) := by
  unfold child
  cases found : data.lookup name with
  | none => exact List.nodup_nil
  | some value =>
    obtain ⟨inner, rfl, distinct⟩ := layered.objects name value found
    exact distinct

theorem child_merge (target : Members) {data : Members} (layered : Layered data)
    (name : String) :
    child (merge target data) name = merge (child target name) (child data name) := by
  apply child_merge_of_no_leaf target layered.distinct
  intro value found leaf
  obtain ⟨inner, rfl, -⟩ := layered.objects name value found
  exact leaf

theorem find?_merge (target : Members) {data : Members} (layered : Layered data)
    (first second : String) :
    find? (merge target data) [first, second] =
      overlay (find? target [first, second]) (find? data [first, second]) := by
  have settled := lookup_merge (child target first) (layered.distinct_child first) second
  rwa [← child_merge target layered] at settled

end BoolQuery.Config

namespace BoolQuery.Data

/-! ## Texts and depth of merged values -/

open Config (child merge mergeValue nesting nestingMembers)

theorem Writable.child {steps : Nat} {members : Members}
    (writable : Writable (steps + 1) (.object members)) (name : String) :
    Writable steps (.object (child members name)) := by
  unfold Config.child
  cases found : members.lookup name with
  | none => exact writable_nil steps
  | some value =>
    cases value with
    | object inner => exact writable.lookup found
    | null | bool | int | float | text | list => exact writable_nil steps

mutual

theorem Writable.merge {steps : Nat} {target data : Members}
    (writable : Writable steps (.object target)) (writable' : Writable steps (.object data)) :
    Writable steps (.object (merge target data)) := by
  cases data with
  | nil => simpa only [Config.merge] using writable
  | cons entry data =>
    obtain ⟨below, rfl⟩ := writable'.exists_steps
    obtain ⟨inner, rest⟩ := List.forall_mem_cons.mp (writable_object_iff.mp writable')
    rw [Config.merge]
    exact (writable.mergeValue entry.1 inner).merge (writable_object_iff.mpr rest)

theorem Writable.mergeValue {steps : Nat} {target : Members}
    (writable : Writable (steps + 1) (.object target)) (name : String) {value : Data}
    (inner : Writable steps value) :
    Writable (steps + 1) (.object (mergeValue target name value)) := by
  cases value with
  | null => simpa only [Config.mergeValue] using writable
  | object members =>
    rw [Config.mergeValue]
    exact writable.put name ((writable.child name).merge inner)
  | bool | int | float | text | list =>
    simpa only [Config.mergeValue] using writable.put name inner

end

mutual

theorem nesting_le_depth (value : Data) : nesting value ≤ value.depth + 1 := by
  cases value with
  | object members =>
    rw [nesting, depth]
    exact nestingMembers_le_depth members
  | null | bool | int | float | text | list => simp only [nesting, Nat.zero_le]

theorem nestingMembers_le_depth (members : Members) :
    nestingMembers members ≤ depthOfMembers members + 1 := by
  cases members with
  | nil => simp only [nestingMembers, depthOfMembers, Nat.le_refl]
  | cons entry members =>
    obtain ⟨name, value⟩ := entry
    have first := nesting_le_depth value
    have others := nestingMembers_le_depth members
    rw [nestingMembers, depthOfMembers]
    omega

end

end BoolQuery.Data
