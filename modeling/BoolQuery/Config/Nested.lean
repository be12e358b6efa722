import BoolQuery.Data.Basic

/-! Nested objects: lookup and assignment along a path of names, and merging.

Merging lets the second object win leaf by leaf. A null wins over nothing, and an object replaces
a value that is none.
-/

set_option autoImplicit false

namespace BoolQuery.Config

def child (members : Members) (name : String) : Members :=
  ((members.lookup name).bind Data.members?).getD []

def find? (members : Members) : List String → Option Data
  | [] => none
  | [name] => members.lookup name
  | name :: rest => find? (child members name) rest

/-- Put a value at the end of a path. What stands in the way of the path becomes an object. -/
def assign (members : Members) (path : List String) (value : Data) : Members :=
  match path with
  | [] => members
  | [name] => members.put name value
  | name :: rest => members.put name (.object (assign (child members name) rest value))

mutual

def merge (target : Members) : List (String × Data) → Members
  | [] => target
  | (name, value) :: rest => merge (mergeValue target name value) rest

def mergeValue (target : Members) (name : String) : Data → Members
  | .object inner => target.put name (.object (merge (child target name) inner))
  | .null => target
  | value => target.put name value

end

mutual

def nesting : Data → Nat
  | .object members => nestingMembers members
  | _ => 0

/-- How deep objects are nested, the one with these members included. -/
def nestingMembers : List (String × Data) → Nat
  | [] => 1
  | (_, value) :: rest => max (nesting value + 1) (nestingMembers rest)

end

end BoolQuery.Config
