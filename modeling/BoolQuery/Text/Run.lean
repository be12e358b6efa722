/-! Runs of characters.

A text of runs has a length that is known before the text is written out, however often a
character is repeated in it.
-/

set_option autoImplicit false

namespace BoolQuery.Text

/-- Characters as they stand, or one of them repeated. -/
inductive Run where
  | chars (text : List Char)
  | repeated (c : Char) (count : Nat)
  deriving DecidableEq, Repr

namespace Run

def length : Run → Nat
  | .chars text => text.length
  | .repeated _ count => count

def toList : Run → List Char
  | .chars text => text
  | .repeated c count => List.replicate count c

/-- The number of characters that only repeat one. -/
def filling : Run → Nat
  | .chars _ => 0
  | .repeated _ count => count

def map (convert : Char → Char) : Run → Run
  | .chars text => .chars (text.map convert)
  | .repeated c count => .repeated (convert c) count

theorem length_toList (run : Run) : run.toList.length = run.length := by
  cases run <;> simp [toList, length]

theorem toList_map (convert : Char → Char) (run : Run) :
    (run.map convert).toList = run.toList.map convert := by
  cases run <;> simp [toList, map]

end Run

def runsLength : List Run → Nat
  | [] => 0
  | run :: rest => run.length + runsLength rest

def runsFilling : List Run → Nat
  | [] => 0
  | run :: rest => run.filling + runsFilling rest

def writeRuns (runs : List Run) : List Char := runs.flatMap Run.toList

theorem length_writeRuns (runs : List Run) : (writeRuns runs).length = runsLength runs := by
  induction runs with
  | nil => rfl
  | cons run rest ih =>
    simp only [writeRuns, List.flatMap_cons, List.length_append, Run.length_toList] at ih ⊢
    rw [ih, runsLength]

end BoolQuery.Text
