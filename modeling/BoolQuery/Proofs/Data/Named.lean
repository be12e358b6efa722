import BoolQuery.Data.Basic
import Mathlib.Data.List.Nodup

/-! Members under names that each stand once.

Members are known by their names: `lookup_eq_some_iff_mem`. Putting one member after another onto
those that are there gives each name its last value and leaves the names in the order in which they
first stood: `lookup_foldl_put` and `map_fst_foldl_put`.
-/

set_option autoImplicit false

namespace BoolQuery

theorem lookup_eq_some_iff_mem {α : Type} {entries : List (String × α)}
    (once : (entries.map Prod.fst).Nodup) {name : String} {value : α} :
    entries.lookup name = some value ↔ (name, value) ∈ entries := by
  induction entries with
  | nil => simp
  | cons entry entries ih =>
    obtain ⟨first, other⟩ := entry
    obtain ⟨fresh, once⟩ := List.nodup_cons.mp once
    by_cases same : name = first
    · subst same
      have absent : (name, value) ∉ entries := by
        intro member
        exact fresh (List.mem_map.mpr ⟨(name, value), member, rfl⟩)
      simp [absent, eq_comm]
    · have skip : (name == first) = false := by simpa using same
      simp [List.lookup_cons, skip, same, ih once]

theorem lookup_eq_none {α : Type} {entries : List (String × α)} {name : String} :
    entries.lookup name = none ↔ name ∉ entries.map Prod.fst := by
  rw [List.lookup_eq_none_iff, List.mem_map, not_exists]
  apply forall_congr'
  intro entry
  rw [not_and, bne_iff_ne, ne_comm]

namespace Members

theorem put_eq_self {members : Members} {name : String} {value : Data}
    (found : members.lookup name = some value) : members.put name value = members := by
  induction members with
  | nil => cases found
  | cons entry members ih =>
    obtain ⟨first, old⟩ := entry
    by_cases same : first = name
    · subst same
      rw [List.lookup_cons_self, Option.some.injEq] at found
      rw [put, if_pos rfl, found]
    · have skip : (name == first) = false := by simpa using Ne.symm same
      rw [List.lookup_cons, skip] at found
      rw [put, if_neg same, ih found]

theorem put_put (members : Members) (name : String) (old value : Data) :
    (members.put name old).put name value = members.put name value := by
  induction members with
  | nil => simp [put]
  | cons entry members ih =>
    obtain ⟨first, other⟩ := entry
    by_cases same : first = name
    · simp [put, same]
    · simp [put, same, ih]

theorem map_fst_put (members : Members) (name : String) (value : Data) :
    (members.put name value).map Prod.fst =
      if name ∈ members.map Prod.fst then members.map Prod.fst
      else members.map Prod.fst ++ [name] := by
  induction members with
  | nil => rfl
  | cons entry members ih =>
    obtain ⟨first, old⟩ := entry
    rw [put]
    by_cases same : first = name
    · simp [same]
    · rw [if_neg same, List.map_cons, ih, List.map_cons]
      by_cases known : name ∈ members.map Prod.fst
      · rw [if_pos known, if_pos (List.mem_cons_of_mem first known)]
      · rw [if_neg known, if_neg (by simpa [Ne.symm same] using known), List.cons_append]

/-! ## One member after another -/

theorem lookup_foldl_put (own : Members) {members : Members}
    (once : (members.map Prod.fst).Nodup) (name : String) :
    (members.foldl (fun all entry => all.put entry.1 entry.2) own).lookup name =
      (members.lookup name).or (own.lookup name) := by
  induction members generalizing own with
  | nil => rfl
  | cons entry members ih =>
    obtain ⟨first, value⟩ := entry
    obtain ⟨fresh, once⟩ := List.nodup_cons.mp once
    rw [List.foldl_cons, ih _ once]
    by_cases same : name = first
    · -- The name does not come again.
      subst same
      rw [lookup_eq_none.mpr fresh, lookup_put_same, List.lookup_cons_self]
      rfl
    · have skip : (name == first) = false := by simpa using same
      rw [lookup_put_other _ _ same, List.lookup_cons, skip]

/-- New names come last, in the order of their members. -/
theorem map_fst_foldl_put (own : Members) {members : Members}
    (once : (members.map Prod.fst).Nodup) :
    (members.foldl (fun all entry => all.put entry.1 entry.2) own).map Prod.fst =
      own.map Prod.fst ++ (members.map Prod.fst).filter (· ∉ own.map Prod.fst) := by
  induction members generalizing own with
  | nil => simp
  | cons entry members ih =>
    obtain ⟨name, value⟩ := entry
    obtain ⟨fresh, once⟩ := List.nodup_cons.mp once
    rw [List.foldl_cons, ih _ once, map_fst_put, List.map_cons]
    by_cases known : name ∈ own.map Prod.fst
    · rw [if_pos known, List.filter_cons_of_neg (by simpa using known)]
    · have others : (members.map Prod.fst).filter (· ∉ own.map Prod.fst ++ [name]) =
          (members.map Prod.fst).filter (· ∉ own.map Prod.fst) := by
        apply List.filter_congr
        intro other member
        have differs : other ≠ name := fun same => fresh (same ▸ member)
        simp [differs]
      rw [if_neg known, others, List.filter_cons_of_pos (by simpa using known),
        List.append_assoc, List.singleton_append]

theorem nodup_foldl_put {own members : Members} (distinct : (own.map Prod.fst).Nodup)
    (once : (members.map Prod.fst).Nodup) :
    ((members.foldl (fun all entry => all.put entry.1 entry.2) own).map Prod.fst).Nodup := by
  rw [map_fst_foldl_put own once]
  apply distinct.append (once.filter _)
  intro name known other
  exact of_decide_eq_true (List.mem_filter.mp other).2 known

end Members

end BoolQuery
