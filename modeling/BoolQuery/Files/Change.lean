import BoolQuery.Files.Store

/-! Changes to a store of files.

A change is refused where something stands in its way. Writing makes the directories above the
path that are missing, and these stay even if the writing itself is refused.
-/

set_option autoImplicit false

namespace BoolQuery.Files

def Store.makeDirectory (store : Store) (path : Path) : Except Obstacle Store := do
  let place ← store.locate path
  if (store.find? place).isSome then throw .occupied
  return store.put place .directory

def Store.writeFile (store : Store) (path : Path) (text : Option String) :
    Except Obstacle Store := do
  let place ← store.locate path
  if store.find? place = some .directory then throw .isDirectory
  return store.put place (.file text)

abbrev Changed := Store × Option Obstacle

/-- An obstacle to making a directory does not matter if it is there anyway. -/
def Store.tolerate (store : Store) (path : Path) (result : Except Obstacle Store) : Changed :=
  match result with
  | .ok made => (made, none)
  | .error obstacle => (store, if store.isDirectory path then none else some obstacle)

/-- See to it that a directory is there, and those above it. The parts of its path are given from
the last to the first. -/
def Store.ensure (store : Store) (root : String) : List String → Changed
  | [] => (store, none)
  | part :: above =>
    let path : Path := ⟨root, (part :: above).reverse⟩
    match store.makeDirectory path with
    | .error .missing =>
      match store.ensure root above with
      | (made, none) => made.tolerate path (made.makeDirectory path)
      | refused => refused
    | result => store.tolerate path result

def Store.ensurePath (store : Store) (path : Path) : Changed :=
  store.ensure path.root path.parts.reverse

def Store.write (store : Store) (path : Path) : Entry → Changed
  | .directory => store.ensurePath path
  | .file text =>
    match store.ensurePath path.parent with
    | (made, none) =>
      match made.writeFile path text with
      | .ok written => (written, none)
      | .error obstacle => (made, some obstacle)
    | refused => refused

/-- Remove a file. The path is taken as it is written, not in normal form: the empty one leads
nowhere, and only a directory may have a slash after its name. -/
def Store.remove (store : Store) (text : String) : Except Obstacle Store := do
  if text.isEmpty then throw .missing
  checkText text
  let parts := (Text.splitWhere (· == '/') text.toList).map String.ofList
  let place ← store.walk (Path.rootOf text.toList) (parts.filter (· != ""))
  match store.find? place with
  | none => throw .missing
  | some .directory => throw .isDirectory
  | some (.file _) =>
    if text.toList.getLast? = some '/' then throw .notDirectory
    return store.erase place

end BoolQuery.Files
