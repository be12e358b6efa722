import BoolQuery.Number.Binary64

/-! Values of data documents.

Settings, log fields and compiled documents are all values of one type. Members of an object
keep the order in which their names first appeared, and a name appears once.
-/

set_option autoImplicit false

namespace BoolQuery

inductive Data where
  | null
  | bool (value : Bool)
  | int (value : Int)
  | float (value : Binary64)
  | text (value : String)
  | list (items : List Data)
  | object (members : List (String × Data))
  deriving Inhabited, Repr

abbrev Members := List (String × Data)

/-- Give a name a value. A name that is present keeps its place, a new one comes last. -/
def Members.put (members : Members) (name : String) (value : Data) : Members :=
  match members with
  | [] => [(name, value)]
  | (other, old) :: rest =>
    if other = name then (name, value) :: rest else (other, old) :: Members.put rest name value

theorem Members.lookup_put_same (members : Members) (name : String) (value : Data) :
    (members.put name value).lookup name = some value := by
  induction members with
  | nil => simp [put]
  | cons head rest ih =>
    obtain ⟨other, old⟩ := head
    by_cases same : other = name
    · simp [put, same]
    · have differs : (name == other) = false := by simpa using fun h => same h.symm
      simp [put, same, List.lookup_cons, differs, ih]

theorem Members.lookup_put_other (members : Members) {name other : String} (value : Data)
    (differs : other ≠ name) : (members.put name value).lookup other = members.lookup other := by
  have skip : (other == name) = false := by simpa using differs
  induction members with
  | nil => simp [put, List.lookup_cons, skip]
  | cons head rest ih =>
    obtain ⟨first, old⟩ := head
    by_cases same : first = name
    · simp [put, same, List.lookup_cons, skip]
    · simp [put, same, List.lookup_cons, ih]

namespace Data

-- Values stand in lists within values, so that equality is decided by hand.
mutual

def same : Data → Data → Bool
  | .null, .null => true
  | .bool left, .bool right => left == right
  | .int left, .int right => left == right
  | .float left, .float right => left == right
  | .text left, .text right => left == right
  | .list left, .list right => sameItems left right
  | .object left, .object right => sameMembers left right
  | _, _ => false

def sameItems : List Data → List Data → Bool
  | [], [] => true
  | left :: lefts, right :: rights => same left right && sameItems lefts rights
  | _, _ => false

def sameMembers : List (String × Data) → List (String × Data) → Bool
  | [], [] => true
  | (first, left) :: lefts, (second, right) :: rights =>
    first == second && same left right && sameMembers lefts rights
  | _, _ => false

end

mutual

theorem same_iff (left right : Data) : same left right = true ↔ left = right := by
  cases left with
  | list left => cases right <;> simp [same, sameItems_iff left]
  | object left => cases right <;> simp [same, sameMembers_iff left]
  | null | bool | int | float | text => cases right <;> simp [same]

theorem sameItems_iff (left right : List Data) : sameItems left right = true ↔ left = right := by
  cases left with
  | nil => cases right <;> simp [sameItems]
  | cons item left => cases right <;> simp [sameItems, same_iff item, sameItems_iff left]

theorem sameMembers_iff (left right : List (String × Data)) :
    sameMembers left right = true ↔ left = right := by
  cases left with
  | nil => cases right <;> simp [sameMembers]
  | cons entry left =>
    obtain ⟨name, value⟩ := entry
    cases right <;>
      simp [sameMembers, Prod.ext_iff, same_iff value, sameMembers_iff left]

end

instance : DecidableEq Data := fun left right => decidable_of_iff _ (same_iff left right)

end Data

def Data.members? : Data → Option Members
  | .object members => some members
  | _ => none

end BoolQuery
