import BoolQuery.Data.Display
import BoolQuery.Log.Place
import BoolQuery.Log.Record
import BoolQuery.Number.Rounded
import BoolQuery.Text.Room

/-! Messages with places for arguments.

The arguments of a message are taken from left to right, or a place asks for one of them by its
name. Each must find a place that fits its kind, and each place an argument. The text is made of
runs of characters, so what is wrong with a later place is found before an earlier one is
written out.
-/

set_option autoImplicit false

namespace BoolQuery.Log

inductive Misfit where
  -- A field hides the message and its places.
  | hidden
  | tooFew
  | tooMany
  -- An argument is asked for by name, but none has a name.
  | noNames
  | unknownName (name : String)
  -- The kind of the argument is not one that the place shows.
  | wrongKind
  -- The message ends within a place.
  | unfinished
  | unknownLetter
  -- A number has too many digits.
  | tooLong
  -- A number is too large for what the place does with it.
  | outOfRange
  -- The text does not fit into memory.
  | noRoom
  deriving DecidableEq, Repr

inductive Arguments where
  | ordered (values : List Data)
  | named (members : Members)

/-- A single object gives its members as arguments, unless it has none. -/
def Arguments.ofList : List Data → Arguments
  | [.object (member :: others)] => .named (member :: others)
  | values => .ordered values

def Arguments.isEmpty : Arguments → Bool
  | .ordered values => values.isEmpty
  | .named members => members.isEmpty

def Arguments.members? : Arguments → Option Members
  | .ordered _ => none
  | .named members => some members

/-- What places without a name take from. -/
def Arguments.pending : Arguments → List Data
  | .ordered values => values
  | .named members => [.object members]

inductive Style where
  | plain
  | display
  -- The display form with all that is not ASCII escaped.
  | ascii
  | character
  | decimal
  | octal
  | hex (capital : Bool)
  | fixed (capital : Bool)
  | exponent (capital : Bool)
  | general (capital : Bool)
  deriving DecidableEq, Repr

def styles : List (Char × Style) :=
  [('s', .plain), ('r', .display), ('a', .ascii), ('c', .character), ('d', .decimal),
   ('i', .decimal), ('u', .decimal), ('o', .octal), ('x', .hex false), ('X', .hex true),
   ('f', .fixed false), ('F', .fixed true), ('e', .exponent false), ('E', .exponent true),
   ('g', .general false), ('G', .general true)]

/-! ## Numbers -/

/-- The integer that an argument is, a truth value included. -/
def integer? : Data → Option Int
  | .int value => some value
  | .bool value => some (if value then 1 else 0)
  | _ => none

def wholeNumber (argument : Data) : Except Misfit Int :=
  match argument with
  | .float value =>
    match value.truncate? with
    | some whole => .ok whole
    | none => .error (if value.isNaN then .tooLong else .outOfRange)
  | argument => (integer? argument).elim (.error .wrongKind) .ok

def realNumber (argument : Data) : Except Misfit Binary64 :=
  match argument, integer? argument with
  | .float value, _ => .ok value
  | _, some value =>
    let nearest := Binary64.ofDecimal (value < 0) value.natAbs 0
    if nearest.isInfinite then .error .outOfRange else .ok nearest
  | _, none => .error .wrongKind

/-- A character, given as a text of its own or by its code point. -/
def singleCharacter (argument : Data) : Except Misfit Char :=
  match argument with
  | .text text =>
    match text.toList with
    | [c] => .ok c
    | _ => .error .wrongKind
  | argument =>
    match integer? argument with
    | none => .error .wrongKind
    | some code =>
      if 0 ≤ code && code.toNat.isValidChar then .ok (Char.ofNat code.toNat)
      else .error .outOfRange

/-! ## Shown arguments -/

/-- An argument that is shown, before it is filled up to its width. A number has a front, its
sign and the mark of its base, which zeros come after. -/
structure Shown where
  isNumber : Bool := false
  front : List Char := []
  body : List Text.Run

def Flags.sign (flags : Flags) (isNegative : Bool) : List Char :=
  if isNegative then ['-'] else if flags.plus then ['+'] else if flags.blank then [' '] else []

def greatestPrecision : Nat := 0x7fffffff

/-- The most digits that an integer is filled up to: a sign and the mark of a base still fit. -/
def mostDigits : Nat := greatestPrecision - 3

def showInteger (flags : Flags) (mark : List Char) (digits : Nat → Except Misfit (List Char))
    (precision : Nat) (value : Int) : Except Misfit Shown := do
  if mostDigits < precision then throw .outOfRange
  let body ← digits value.natAbs
  return {
    isNumber := true
    front := flags.sign (value < 0) ++ if flags.marked then mark else []
    body := [.repeated '0' (precision - body.length), .chars body] }

/-- A number in one of the decimal forms. Those that are not finite have a name, and the one that
is no number has no sign of its own. -/
def showReal (flags : Flags) (capital : Bool) (form : Binary64 → List Text.Run)
    (value : Binary64) : Shown :=
  let body :=
    if value.isNaN then [.chars "nan".toList]
    else if value.isInfinite then [.chars "inf".toList]
    else form value
  { isNumber := true
    front := flags.sign (value.isNegative && !value.isNaN)
    body := if capital then body.map (Text.Run.map Char.toUpper) else body }

def showText (precision : Option Nat) (text : List Char) : Shown :=
  { body := match precision with
      | none => [.chars text]
      | some length => [.chars (text.take length)] }

/-- A decimal form has six places, or six digits, if no precision is given. -/
def defaultPrecision : Nat := 6

/-- The places of a form with an exponent. The digit before the point cannot be counted on top of
the greatest precision, and is left alone then. -/
def exponentPlaces (places : Nat) : Nat := if places = greatestPrecision then 0 else places

def decimalDigits (value : Nat) : Except Misfit (List Char) :=
  if Data.isShortInt value then .ok (Nat.toDigits 10 value) else .error .tooLong

def Style.show (style : Style) (flags : Flags) (precision : Option Nat) (argument : Data) :
    Except Misfit Shown :=
  let places := precision.getD defaultPrecision
  let text (form : List Char) : Except Misfit Shown :=
    if argument.hasText then .ok (showText precision form) else .error .tooLong
  match style with
  | .plain => text argument.plain
  | .display => text argument.display
  | .ascii => text (Text.escapeForeign argument.display)
  | .character => (singleCharacter argument).map fun c => { body := [.chars [c]] }
  | .decimal =>
    wholeNumber argument >>=
      showInteger { flags with marked := false } [] decimalDigits (precision.getD 0)
  | .octal => do
    let value ← (integer? argument).elim (.error .wrongKind) .ok
    showInteger flags ['0', 'o'] (fun value => .ok (Nat.toDigits 8 value)) (precision.getD 0) value
  | .hex capital => do
    let value ← (integer? argument).elim (.error .wrongKind) .ok
    let letters (digits : List Char) := if capital then digits.map Char.toUpper else digits
    showInteger flags (letters ['0', 'x']) (fun value => .ok (letters (Nat.toDigits 16 value)))
      (precision.getD 0) value
  | .fixed capital =>
    (realNumber argument).map (showReal flags capital (·.fixedForm places flags.marked))
  | .exponent capital =>
    (realNumber argument).map
      (showReal flags capital (·.exponentForm (exponentPlaces places) flags.marked))
  | .general capital =>
    (realNumber argument).map (showReal flags capital (·.generalForm places flags.marked))

/-- Fill up to a width. Zeros fill numbers only, and never on the right. -/
def Shown.fill (shown : Shown) (flags : Flags) (width : Nat) : List Text.Run :=
  let front := Text.Run.chars shown.front
  let filling (c : Char) := Text.Run.repeated c (width - Text.runsLength (front :: shown.body))
  if flags.left then front :: shown.body ++ [filling ' ']
  else if shown.isNumber && flags.zero then front :: filling '0' :: shown.body
  else filling ' ' :: front :: shown.body

/-! ## Filling places -/

def takeArgument : List Data → Except Misfit (Data × List Data)
  | [] => .error .tooFew
  | argument :: others => .ok (argument, others)

/-- A size, with an argument taken for it where the place says so; `least` and `greatest` bound
what can be given. -/
def takeSize (least greatest : Int) (size : Option Size) (pending : List Data) :
    Except Misfit (Option Int × List Data) :=
  match size with
  | none => .ok (none, pending)
  | some (.written size) => if greatest < size then .error .tooLong else .ok (some size, pending)
  | some .taken => do
    let (argument, pending) ← takeArgument pending
    match integer? argument with
    | none => throw .wrongKind
    | some size =>
      if size < least || greatest < size then throw .outOfRange else return (some size, pending)

def takeWidth : Option Size → List Data → Except Misfit (Option Int × List Data) :=
  takeSize Text.leastCount Text.greatestCount

def takePrecision : Option Size → List Data → Except Misfit (Option Int × List Data) :=
  takeSize (-0x80000000) greatestPrecision

/-- A name replaces what is pending by the argument of that name. -/
def select (members : Option Members) (key : Option Key) (pending : List Data) :
    Except Misfit (List Data) :=
  match key, members with
  | none, _ => .ok pending
  | some _, none => .error .noNames
  | some .unclosed, some _ => .error .unfinished
  | some (.name name), some members =>
    match members.lookup name with
    | none => .error (.unknownName name)
    | some argument => .ok [argument]

/-- The number of characters that a width stands for. The least width has no opposite, and stands
for none. -/
def widthLength (width : Int) : Nat := if width = Text.leastCount then 0 else width.natAbs

/-- A place wider than this is never written, whatever follows it. -/
def greatestWidth : Nat := 0x7fffffff

/-- Fill one place; what is left of the pending arguments is for the places that follow. -/
def Place.fill (place : Place) (members : Option Members) (pending : List Data) :
    Except Misfit (List Text.Run × List Data) := do
  let pending ← select members place.key pending
  let (width, pending) ← takeWidth place.width pending
  let (precision, pending) ← takePrecision place.precision pending
  let some letter := place.letter | throw .unfinished
  let (argument, pending) ← takeArgument pending
  let some style := styles.lookup letter | throw .unknownLetter
  let width := width.getD 0
  -- A negative width stands for filling on the right.
  let flags := { place.flags with left := place.flags.left || width < 0 }
  let shown ← style.show flags (precision.map Int.toNat) argument
  if greatestWidth < widthLength width then throw .noRoom
  return (shown.fill flags (widthLength width), pending)

/-- Fill the places from left to right. Arguments in order must all be used up; a place that asks
for a name must use what it asked for. -/
def fillPieces (members : Option Members) : List Piece → List Data → Except Misfit (List Text.Run)
  | [], pending => if members.isNone && !pending.isEmpty then .error .tooMany else .ok []
  | .char c :: rest, pending => (fillPieces members rest pending).map (.chars [c] :: ·)
  | .place place :: rest, pending => do
    let (text, pending) ← place.fill members pending
    if members.isSome && !pending.isEmpty then throw .tooMany
    return text ++ (← fillPieces members rest pending)

def writeFilled (runs : List Text.Run) : Except Misfit String :=
  if Text.room < Text.runsFilling runs then .error .noRoom
  else .ok (String.ofList (Text.writeRuns runs))

/-- The text of a message. Without arguments the message stands as it is. -/
def fillMessage (message : String) (arguments : Arguments) : Except Misfit String :=
  if arguments.isEmpty then .ok message
  else fillPieces arguments.members? (pieces message.toList) arguments.pending >>= writeFilled

def tellMessage (fields : Fields) (message : String) (arguments : Arguments) :
    Except Misfit String :=
  if fields.hideMessage then .error .hidden else fillMessage message arguments

end BoolQuery.Log
