import BoolQuery.Data.Display

/-! The depth of a value, and what it has to do with its text.

A value can be displayed exactly if its integers are all short and it is not too deep:
`textFault?_eq_none_iff`. Where the integers are short, depth is the only fault: `textFault?_eq`.
-/

set_option autoImplicit false

namespace BoolQuery.Data

mutual

/-- How many steps lead down to the deepest item or member. -/
def depth : Data → Nat
  | .list items => depthOfItems items
  | .object members => depthOfMembers members
  | _ => 0

def depthOfItems : List Data → Nat
  | [] => 0
  | item :: rest => max (depth item + 1) (depthOfItems rest)

def depthOfMembers : List (String × Data) → Nat
  | [] => 0
  | (_, value) :: rest => max (depth value + 1) (depthOfMembers rest)

end

/-- One step down to a value, and then the others beside it. -/
theorem stepFault_eq {steps first others : Nat} :
    (if steps = 0 then some TextFault.tooDeep
      else (if first ≤ steps - 1 then none else some .tooDeep).or
        (if others ≤ steps then none else some .tooDeep)) =
      if max (first + 1) others ≤ steps then none else some .tooDeep := by
  by_cases stuck : steps = 0
  · rw [if_pos stuck, if_neg (by omega)]
  by_cases here : first ≤ steps - 1
  · rw [if_neg stuck, if_pos here, Option.none_or]
    by_cases rest : others ≤ steps
    · rw [if_pos rest, if_pos (by omega)]
    · rw [if_neg rest, if_neg (by omega)]
  · rw [if_neg stuck, if_neg here, Option.some_or, if_neg (by omega)]

mutual

theorem textFault?_eq {value : Data} (short : value.hasText = true) (steps : Nat) :
    value.textFault? steps = if value.depth ≤ steps then none else some .tooDeep := by
  cases value with
  | null | bool | float | text => simp [textFault?, depth]
  | int value =>
    rw [hasText] at short
    simp [textFault?, depth, short]
  | list items =>
    rw [hasText] at short
    rw [textFault?, depth, itemsFault?_eq short]
  | object members =>
    rw [hasText] at short
    rw [textFault?, depth, membersFault?_eq short]

theorem itemsFault?_eq {items : List Data} (short : allHaveText items = true) (steps : Nat) :
    itemsFault? steps items = if depthOfItems items ≤ steps then none else some .tooDeep := by
  cases items with
  | nil => simp [itemsFault?, depthOfItems]
  | cons item rest =>
    rw [allHaveText, Bool.and_eq_true] at short
    rw [itemsFault?, depthOfItems, textFault?_eq short.1, itemsFault?_eq short.2, stepFault_eq]

theorem membersFault?_eq {members : List (String × Data)}
    (short : allMembersHaveText members = true) (steps : Nat) :
    membersFault? steps members =
      if depthOfMembers members ≤ steps then none else some .tooDeep := by
  cases members with
  | nil => simp [membersFault?, depthOfMembers]
  | cons entry rest =>
    obtain ⟨name, value⟩ := entry
    rw [allMembersHaveText, Bool.and_eq_true] at short
    rw [membersFault?, depthOfMembers, textFault?_eq short.1, membersFault?_eq short.2,
      stepFault_eq]

end

mutual

theorem hasText_of_textFault? {value : Data} {steps : Nat}
    (writable : value.textFault? steps = none) : value.hasText = true := by
  cases value with
  | null | bool | float | text => simp only [hasText]
  | int value =>
    rw [textFault?] at writable
    simpa [hasText] using writable
  | list items =>
    rw [textFault?] at writable
    rw [hasText, allHaveText_of_itemsFault? writable]
  | object members =>
    rw [textFault?] at writable
    rw [hasText, allMembersHaveText_of_membersFault? writable]

theorem allHaveText_of_itemsFault? {items : List Data} {steps : Nat}
    (writable : itemsFault? steps items = none) : allHaveText items = true := by
  cases items with
  | nil => simp only [allHaveText]
  | cons item rest =>
    rw [itemsFault?] at writable
    split at writable
    · cases writable
    · rw [Option.or_eq_none_iff] at writable
      rw [allHaveText, hasText_of_textFault? writable.1, allHaveText_of_itemsFault? writable.2]
      rfl

theorem allMembersHaveText_of_membersFault? {members : List (String × Data)} {steps : Nat}
    (writable : membersFault? steps members = none) : allMembersHaveText members = true := by
  cases members with
  | nil => simp only [allMembersHaveText]
  | cons entry rest =>
    obtain ⟨name, value⟩ := entry
    rw [membersFault?] at writable
    split at writable
    · cases writable
    · rw [Option.or_eq_none_iff] at writable
      rw [allMembersHaveText, hasText_of_textFault? writable.1,
        allMembersHaveText_of_membersFault? writable.2]
      rfl

end

theorem textFault?_eq_none_iff {value : Data} {steps : Nat} :
    value.textFault? steps = none ↔ value.hasText = true ∧ value.depth ≤ steps := by
  constructor
  · intro writable
    have short := hasText_of_textFault? writable
    refine ⟨short, Decidable.byContradiction fun deep => ?_⟩
    rw [textFault?_eq short, if_neg deep] at writable
    cases writable
  · rintro ⟨short, shallow⟩
    rw [textFault?_eq short, if_pos shallow]

end BoolQuery.Data
