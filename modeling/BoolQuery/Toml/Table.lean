import BoolQuery.Data.Basic

/-! Tables that grow while a document is read.

A key names a value inside nested tables. A table may be opened only once by its header, and the
tables and arrays that are written inline are closed for good. The marks remember both.
-/

set_option autoImplicit false

namespace BoolQuery.Toml

abbrev Key := List String

/-- Whether a key passes through the last table of an array of tables on its way. -/
inductive Reach where
  | tables
  | tablesAndArrays
  deriving DecidableEq

/-- Change the table at a key, making the tables on the way that are missing. There is none to
change if something else stands in the way. -/
def change? (reach : Reach) (alter : Members → Option Members) :
    Key → Members → Option Members
  | [], table => alter table
  | name :: rest, table =>
    match table.lookup name with
    | none => (change? reach alter rest []).map fun inner => table.put name (.object inner)
    | some (.object inner) =>
      (change? reach alter rest inner).map fun inner => table.put name (.object inner)
    | some (.list items) =>
      match reach, items.getLast? with
      | .tablesAndArrays, some (.object inner) =>
        (change? reach alter rest inner).map fun inner =>
          table.put name (.list (items.dropLast ++ [.object inner]))
      | _, _ => none
    | some _ => none

def add? (name : String) (value : Data) (table : Members) : Option Members :=
  if (table.lookup name).isSome then none else some (table.put name value)

/-- Append an empty table to an array of tables, which is made if it is missing. -/
def append? (name : String) (table : Members) : Option Members :=
  match table.lookup name with
  | none => some (table.put name (.list [.object []]))
  | some (.list items) => some (table.put name (.list (items ++ [.object []])))
  | some _ => none

/-- Tables that a header has opened, tables that dotted keys have opened since the last header,
and values that are closed for good. -/
structure Marks where
  opened : List Key := []
  pending : List Key := []
  closed : List Key := []

def Marks.isOpened (marks : Marks) (key : Key) : Bool := marks.opened.contains key

/-- A key is closed if it leads to a closed value or through one. -/
def Marks.isClosed (marks : Marks) (key : Key) : Bool :=
  marks.closed.any fun closed => closed.isPrefixOf key

def Marks.open (marks : Marks) (key : Key) : Marks := { marks with opened := key :: marks.opened }

def Marks.openLater (marks : Marks) (key : Key) : Marks :=
  { marks with pending := key :: marks.pending }

def Marks.close (marks : Marks) (key : Key) : Marks := { marks with closed := key :: marks.closed }

/-- From the next header on, the pending tables count as opened. -/
def Marks.settle (marks : Marks) : Marks :=
  { marks with opened := marks.pending ++ marks.opened, pending := [] }

def Marks.forget (marks : Marks) (key : Key) : Marks :=
  { marks with
    opened := marks.opened.filter fun other => !key.isPrefixOf other
    closed := marks.closed.filter fun other => !key.isPrefixOf other }

end BoolQuery.Toml
