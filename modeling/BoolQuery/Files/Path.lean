import BoolQuery.Text.Lines
import BoolQuery.Text.Quoted

/-! Paths of files, and what reading one gives.

A path is kept in normal form: empty parts and single dots are dropped, double dots stay. Exactly
two slashes in front are kept, any other number of them counts as one.
-/

set_option autoImplicit false

namespace BoolQuery.Files

structure Path where
  root : String
  parts : List String
  deriving DecidableEq, Repr

def Path.rootOf (text : List Char) : String :=
  match (text.takeWhile (· == '/')).length with
  | 0 => ""
  | 2 => "//"
  | _ => "/"

def Path.ofText (text : String) : Path :=
  let parts := (Text.splitWhere (· == '/') text.toList).map String.ofList
  ⟨rootOf text.toList, parts.filter fun part => part != "" && part != "."⟩

/-- The text of a path; that of the empty one is a dot. -/
def Path.text (path : Path) : String :=
  if path.root.isEmpty && path.parts.isEmpty then "."
  else path.root ++ "/".intercalate path.parts

def Path.parent (path : Path) : Path := { path with parts := path.parts.dropLast }

inductive Obstacle where
  | missing
  | isDirectory
  | notDirectory
  | nameTooLong
  -- Something is there already.
  | occupied
  -- The path holds the character zero.
  | broken
  deriving DecidableEq, Repr

def Obstacle.message (obstacle : Obstacle) (path : Path) : String :=
  let cause := match obstacle with
    | .missing => "[Errno 2] No such file or directory"
    | .isDirectory => "[Errno 21] Is a directory"
    | .notDirectory => "[Errno 20] Not a directory"
    | .nameTooLong => "[Errno 36] File name too long"
    | .occupied => "[Errno 17] File exists"
    | .broken => "[Errno 22] Invalid argument"
  cause ++ ": " ++ Text.quoted path.text

/-- What reading each path gives: a text, or none where the bytes are not well formed. -/
abbrev View := Path → Except Obstacle (Option String)

end BoolQuery.Files
