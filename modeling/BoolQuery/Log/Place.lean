/-! Places for arguments in a message.

A place begins with a percent sign and ends with a letter that tells how the argument is shown.
Between them may stand a name in parentheses, flags, a width, and a precision after a point. Two
percent signs stand for one and are no place.
-/

set_option autoImplicit false

namespace BoolQuery.Log

inductive Key where
  | name (name : String)
  -- The parenthesis is never closed.
  | unclosed
  deriving DecidableEq, Repr

structure Flags where
  -- Filling comes after the text instead of before it.
  left : Bool := false
  -- Numbers that are not negative have a plus sign.
  plus : Bool := false
  -- Numbers that are not negative have a blank where the sign would be.
  blank : Bool := false
  -- Numbers are marked with their base, or keep a point that nothing follows.
  marked : Bool := false
  -- Numbers are filled with zeros after the sign.
  zero : Bool := false
  deriving DecidableEq, Repr

/-- A width or a precision: written in the place, or an argument of its own. -/
inductive Size where
  | written (size : Nat)
  | taken
  deriving DecidableEq, Repr

structure Place where
  key : Option Key := none
  flags : Flags := {}
  width : Option Size := none
  precision : Option Size := none
  -- Missing if the message ends before it.
  letter : Option Char := none
  deriving DecidableEq, Repr

/-- A message is a row of characters and places. -/
inductive Piece where
  | char (c : Char)
  | place (place : Place)
  deriving DecidableEq, Repr

/-- A name up to the parenthesis that closes it, at some depth of inner ones. -/
def readName : Nat → List Char → Option (List Char × List Char)
  | _, [] => none
  | 0, ')' :: rest => some ([], rest)
  | depth, c :: rest =>
    let inner := if c = '(' then depth + 1 else if c = ')' then depth - 1 else depth
    (readName inner rest).map fun found => (c :: found.1, found.2)

def isFlag (c : Char) : Bool := "-+ #0".toList.contains c

def Flags.ofChars (chars : List Char) : Flags :=
  ⟨chars.contains '-', chars.contains '+', chars.contains ' ', chars.contains '#',
    chars.contains '0'⟩

def isSizeDigit (c : Char) : Bool := '0' ≤ c && c ≤ '9'

def sizeOf (digits : List Char) : Nat :=
  digits.foldl (fun total c => total * 10 + (c.toNat - 48)) 0

def readSize : List Char → Option Size × List Char
  | '*' :: rest => (some .taken, rest)
  | text =>
    let digits := text.takeWhile isSizeDigit
    (if digits.isEmpty then none else some (.written (sizeOf digits)), text.dropWhile isSizeDigit)

/-- A precision after its point; a point alone is a precision of zero. -/
def readPrecision : List Char → Option Size × List Char
  | '.' :: rest => (some ((readSize rest).1.getD (.written 0)), (readSize rest).2)
  | text => (none, text)

/-- Drop a letter that once told the size of the argument in memory. -/
def dropLengthMark : List Char → List Char
  | [] => []
  | c :: rest => if c = 'h' ∨ c = 'l' ∨ c = 'L' then rest else c :: rest

def readShape (key : Option Key) (text : List Char) : Place × List Char :=
  let width := readSize (text.dropWhile isFlag)
  let precision := readPrecision width.2
  let ending := dropLengthMark precision.2
  ({ key
     flags := .ofChars (text.takeWhile isFlag)
     width := width.1
     precision := precision.1
     letter := ending.head? }, ending.drop 1)

def readPlace : List Char → Place × List Char
  | '(' :: rest =>
    match readName 0 rest with
    | none => ({ key := some .unclosed }, [])
    | some (name, rest) => readShape (some (.name (String.ofList name))) rest
  | text => readShape none text

theorem readName_rest_le {depth : Nat} {text : List Char} {found : List Char × List Char}
    (read : readName depth text = some found) : found.2.length ≤ text.length := by
  induction text generalizing depth found with
  | nil => simp [readName] at read
  | cons c rest ih =>
    unfold readName at read
    split at read
    · contradiction
    · next same =>
      simp only [List.cons.injEq] at same
      obtain rfl := Option.some.inj read
      simp [same.2]
    · next same =>
      simp only [List.cons.injEq] at same
      obtain ⟨inner, innerRead, rfl⟩ := Option.map_eq_some_iff.1 read
      obtain ⟨rfl, rfl⟩ := same
      have shorter := ih innerRead
      exact Nat.le_succ_of_le shorter

theorem readSize_rest_le (text : List Char) : (readSize text).2.length ≤ text.length := by
  unfold readSize
  split
  · simp
  · exact (List.dropWhile_sublist _).length_le

theorem readPrecision_rest_le (text : List Char) : (readPrecision text).2.length ≤ text.length := by
  unfold readPrecision
  split
  · exact Nat.le_succ_of_le (readSize_rest_le _)
  · simp

theorem length_dropLengthMark_le (text : List Char) :
    (dropLengthMark text).length ≤ text.length := by
  unfold dropLengthMark
  split
  · simp
  · split <;> simp

theorem readShape_rest_le (key : Option Key) (text : List Char) :
    (readShape key text).2.length ≤ text.length := by
  have flags := (List.dropWhile_sublist (l := text) isFlag).length_le
  have width := readSize_rest_le (text.dropWhile isFlag)
  have precision := readPrecision_rest_le (readSize (text.dropWhile isFlag)).2
  have mark := length_dropLengthMark_le (readPrecision (readSize (text.dropWhile isFlag)).2).2
  simp only [readShape, List.length_drop]
  omega

theorem readPlace_rest_le (text : List Char) : (readPlace text).2.length ≤ text.length := by
  unfold readPlace
  split
  · next rest =>
    split
    · simp
    · next found =>
      exact Nat.le_succ_of_le (Nat.le_trans (readShape_rest_le _ _) (readName_rest_le found))
  · exact readShape_rest_le _ _

def pieces : List Char → List Piece
  | [] => []
  | '%' :: '%' :: rest => .char '%' :: pieces rest
  | '%' :: rest => .place (readPlace rest).1 :: pieces (readPlace rest).2
  | c :: rest => .char c :: pieces rest
termination_by text => text.length
decreasing_by
  · simp only [List.length_cons]; omega
  · exact Nat.lt_succ_of_le (readPlace_rest_le rest)
  · simp

end BoolQuery.Log
