import BoolQuery.Files.Path

/-! A store of files.

The store holds what lies in the working directory. Of a file only its text matters; a file whose
bytes are not well formed has none. Nothing is known of other places, except that the directories
above the working directory and the root are directories.
-/

set_option autoImplicit false

namespace BoolQuery.Files

inductive Entry where
  | directory
  | file (text : Option String)
  deriving DecidableEq, Repr

/-- Where places are counted from: a directory so many levels above the working directory, or the
root. -/
inductive Base where
  | above (height : Nat)
  | root
  deriving DecidableEq, Repr

structure Place where
  base : Base
  names : List String
  deriving DecidableEq, Repr

def Place.down (place : Place) (name : String) : Place :=
  { place with names := place.names ++ [name] }

/-- The directory that a place lies in. Nothing lies above the root. -/
def Place.up (place : Place) : Place :=
  match place.names, place.base with
  | [], .above height => ⟨.above (height + 1), []⟩
  | [], .root => ⟨.root, []⟩
  | names, base => ⟨base, names.dropLast⟩

structure Store where
  entries : List (Place × Entry)

def Store.empty : Store := ⟨[]⟩

/-- The entry at a place; that which places are counted from is always there. -/
def Store.find? (store : Store) (place : Place) : Option Entry :=
  if place.names.isEmpty then some .directory else store.entries.lookup place

def Store.erase (store : Store) (place : Place) : Store :=
  ⟨store.entries.filter fun entry => entry.1 != place⟩

def Store.put (store : Store) (place : Place) (entry : Entry) : Store :=
  ⟨(place, entry) :: (store.erase place).entries⟩

/-! ## Paths -/

/-- A single name holds at most this many bytes. -/
def maxNameBytes : Nat := 255

/-- A path as a whole holds fewer bytes than this. -/
def maxPathBytes : Nat := 4096

def checkText (text : String) : Except Obstacle Unit :=
  if text.toList.contains '\x00' then .error .broken
  else if maxPathBytes ≤ text.utf8ByteSize then .error .nameTooLong
  else .ok ()

/-- Take one step from a directory: down by a name, up by two dots, nowhere by one. There need be
nothing at the place that a name leads to. -/
def Store.step (store : Store) (place : Place) (part : String) : Except Obstacle Place :=
  match store.find? place with
  | some .directory =>
    if part = "." then .ok place
    else if part = ".." then .ok place.up
    else if maxNameBytes < part.utf8ByteSize then .error .nameTooLong
    else .ok (place.down part)
  | some (.file _) => .error .notDirectory
  | none => .error .missing

def Store.walk (store : Store) (root : String) (parts : List String) : Except Obstacle Place :=
  parts.foldlM store.step ⟨if root.isEmpty then .above 0 else .root, []⟩

def Store.locate (store : Store) (path : Path) : Except Obstacle Place := do
  checkText path.text
  store.walk path.root path.parts

def Store.isDirectory (store : Store) (path : Path) : Bool :=
  match store.locate path with
  | .ok place => store.find? place == some .directory
  | .error _ => false

def Store.read (store : Store) : View := fun path => do
  match store.find? (← store.locate path) with
  | some (.file text) => .ok text
  | some .directory => .error .isDirectory
  | none => .error .missing

end BoolQuery.Files
