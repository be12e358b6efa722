import BoolQuery.Proofs.Data.Depth

/-! Values that can be written as text within some steps down.

A list or an object can if what is in it can, one step less deep: `writable_list_iff` and
`writable_object_iff`.
-/

set_option autoImplicit false

namespace BoolQuery.Data

/-- The integers of a value are short, and it is at most so many steps deep. -/
structure Writable (steps : Nat) (value : Data) : Prop where
  short : value.hasText = true
  shallow : value.depth ≤ steps

theorem Writable.mono {few many : Nat} {value : Data} (writable : Writable few value)
    (below : few ≤ many) : Writable many value :=
  ⟨writable.short, Nat.le_trans writable.shallow below⟩

theorem writable_null (steps : Nat) : Writable steps .null :=
  ⟨by simp only [hasText], by simp only [depth, Nat.zero_le]⟩

theorem writable_bool (steps : Nat) (value : Bool) : Writable steps (.bool value) :=
  ⟨by simp only [hasText], by simp only [depth, Nat.zero_le]⟩

theorem writable_int (steps : Nat) {value : Int} (short : isShortInt value = true) :
    Writable steps (.int value) :=
  ⟨by simpa only [hasText] using short, by simp only [depth, Nat.zero_le]⟩

theorem writable_float (steps : Nat) (value : Binary64) : Writable steps (.float value) :=
  ⟨by simp only [hasText], by simp only [depth, Nat.zero_le]⟩

theorem writable_text (steps : Nat) (value : String) : Writable steps (.text value) :=
  ⟨by simp only [hasText], by simp only [depth, Nat.zero_le]⟩

theorem allHaveText_iff {items : List Data} :
    allHaveText items = true ↔ ∀ item ∈ items, item.hasText = true := by
  induction items with
  | nil => simp [allHaveText]
  | cons item items ih => rw [allHaveText, Bool.and_eq_true, ih, List.forall_mem_cons]

theorem allMembersHaveText_iff {members : Members} :
    allMembersHaveText members = true ↔ ∀ entry ∈ members, entry.2.hasText = true := by
  induction members with
  | nil => simp [allMembersHaveText]
  | cons entry members ih => rw [allMembersHaveText, Bool.and_eq_true, ih, List.forall_mem_cons]

theorem depthOfItems_le_iff {items : List Data} {steps : Nat} :
    depthOfItems items ≤ steps ↔ ∀ item ∈ items, item.depth < steps := by
  induction items with
  | nil => simp [depthOfItems]
  | cons item items ih =>
    rw [depthOfItems, Nat.max_le, ih, List.forall_mem_cons, Nat.add_one_le_iff]

theorem depthOfMembers_le_iff {members : Members} {steps : Nat} :
    depthOfMembers members ≤ steps ↔ ∀ entry ∈ members, entry.2.depth < steps := by
  induction members with
  | nil => simp [depthOfMembers]
  | cons entry members ih =>
    rw [depthOfMembers, Nat.max_le, ih, List.forall_mem_cons, Nat.add_one_le_iff]

theorem writable_list_iff {items : List Data} {steps : Nat} :
    Writable (steps + 1) (.list items) ↔ ∀ item ∈ items, Writable steps item := by
  constructor
  · rintro ⟨short, shallow⟩ item member
    rw [hasText, allHaveText_iff] at short
    rw [depth, depthOfItems_le_iff] at shallow
    exact ⟨short item member, Nat.le_of_lt_succ (shallow item member)⟩
  · intro each
    refine ⟨?_, ?_⟩
    · rw [hasText, allHaveText_iff]
      exact fun item member => (each item member).short
    · rw [depth, depthOfItems_le_iff]
      exact fun item member => Nat.lt_succ_of_le (each item member).shallow

theorem writable_object_iff {members : Members} {steps : Nat} :
    Writable (steps + 1) (.object members) ↔ ∀ entry ∈ members, Writable steps entry.2 := by
  constructor
  · rintro ⟨short, shallow⟩ entry member
    rw [hasText, allMembersHaveText_iff] at short
    rw [depth, depthOfMembers_le_iff] at shallow
    exact ⟨short entry member, Nat.le_of_lt_succ (shallow entry member)⟩
  · intro each
    refine ⟨?_, ?_⟩
    · rw [hasText, allMembersHaveText_iff]
      exact fun entry member => (each entry member).short
    · rw [depth, depthOfMembers_le_iff]
      exact fun entry member => Nat.lt_succ_of_le (each entry member).shallow

theorem writable_nil (steps : Nat) : Writable steps (.object []) :=
  ⟨by simp only [hasText, allMembersHaveText], by simp only [depth, depthOfMembers, Nat.zero_le]⟩

theorem writable_of_allMembersHaveText {members : Members}
    (short : allMembersHaveText members = true) :
    Writable (depthOfMembers members) (.object members) :=
  ⟨by rwa [hasText], Nat.le_of_eq (by rw [depth])⟩

theorem Writable.exists_steps {steps : Nat} {entry : String × Data} {members : Members}
    (writable : Writable steps (.object (entry :: members))) : ∃ below, steps = below + 1 := by
  have shallow := writable.shallow
  obtain ⟨name, value⟩ := entry
  rw [depth, depthOfMembers] at shallow
  exact Nat.exists_eq_add_one.mpr (by omega)

theorem Writable.lookup {steps : Nat} {members : Members}
    (writable : Writable (steps + 1) (.object members)) {name : String} {value : Data}
    (found : members.lookup name = some value) : Writable steps value := by
  obtain ⟨before, after, rfl, -⟩ := List.lookup_eq_some_iff.mp found
  exact writable_object_iff.mp writable (name, value) (by simp)

theorem Writable.put {steps : Nat} {members : Members}
    (writable : Writable (steps + 1) (.object members)) (name : String) {value : Data}
    (inner : Writable steps value) : Writable (steps + 1) (.object (members.put name value)) := by
  rw [writable_object_iff] at writable ⊢
  induction members with
  | nil => simpa [Members.put] using inner
  | cons entry members ih =>
    obtain ⟨first, old⟩ := entry
    rw [List.forall_mem_cons] at writable
    rw [Members.put]
    split
    · exact List.forall_mem_cons.mpr ⟨inner, writable.2⟩
    · exact List.forall_mem_cons.mpr ⟨writable.1, ih writable.2⟩

end BoolQuery.Data
