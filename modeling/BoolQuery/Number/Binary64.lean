/-! Numbers of 64 bits with a binary exponent.

A number is kept as its bits. `ofDecimal` rounds a decimal to the nearest number, ties to the
even one; `shortest` gives the fewest decimal digits that round back to it. All arithmetic is
exact, on natural numbers.
-/

set_option autoImplicit false

namespace BoolQuery

structure Binary64 where
  bits : UInt64
  deriving DecidableEq, Repr, Inhabited

namespace Binary64

/-- The quotient rounded to the nearest natural number, a tie to the even one. -/
def roundQuotient (numerator denominator : Nat) : Nat :=
  let quotient := numerator / denominator
  let twice := 2 * (numerator % denominator)
  if twice < denominator then quotient
  else if denominator < twice then quotient + 1
  else quotient + quotient % 2

/-- Scale a quotient by a power of a base, on the side that keeps both parts whole. -/
def scale (base : Nat) (exponent : Int) (quotient : Nat × Nat) : Nat × Nat :=
  if 0 ≤ exponent then (quotient.1 * Nat.pow base exponent.toNat, quotient.2)
  else (quotient.1, quotient.2 * Nat.pow base (-exponent).toNat)

/-- The bits of infinity, and the least ones that are no finite number. -/
def infinityBits : Nat := 0x7ff0000000000000

/-- The bits of the number nearest to a positive quotient. The exponent is the largest one that
leaves 53 binary digits, but never below that of the least number; a carry out of the digits
moves into the exponent by itself. -/
def nearestBits (quotient : Nat × Nat) : Nat :=
  let guess : Int := (Nat.log2 quotient.1 : Int) - (Nat.log2 quotient.2 : Int)
  let whole := scale 2 (-guess) quotient
  -- The guess from the binary lengths is right or one too large.
  let magnitude := if whole.1 < whole.2 then guess - 1 else guess
  let exponent := max (magnitude - 52) (-1074)
  let digits := scale 2 (-exponent) quotient
  min infinityBits ((exponent + 1074).toNat * Nat.pow 2 52 + roundQuotient digits.1 digits.2)

/-- The number nearest to `mantissa` times ten to the `exponent`. Decimals far outside the range
are settled by their number of digits. -/
def ofDecimal (negative : Bool) (mantissa : Nat) (exponent : Int) : Binary64 :=
  let size : Int := (Nat.toDigits 10 mantissa).length + exponent
  let magnitude :=
    if mantissa = 0 || size < -330 then 0
    else if 310 < size then infinityBits
    else nearestBits (scale 10 exponent (mantissa, 1))
  ⟨UInt64.ofNat (if negative then magnitude + Nat.pow 2 63 else magnitude)⟩

def isNegative (number : Binary64) : Bool := Nat.pow 2 63 ≤ number.bits.toNat

def magnitude (number : Binary64) : Nat := number.bits.toNat % Nat.pow 2 63

def isInfinite (number : Binary64) : Bool := number.magnitude == infinityBits

def isNaN (number : Binary64) : Bool := infinityBits < number.magnitude

/-- The digits and the power of two that they are scaled by. -/
def parts (number : Binary64) : Nat × Int :=
  let field := number.magnitude / Nat.pow 2 52
  let fraction := number.magnitude % Nat.pow 2 52
  (if field = 0 then fraction else fraction + Nat.pow 2 52, (max field 1 : Nat) - 1075)

def truncate? (number : Binary64) : Option Int :=
  if infinityBits ≤ number.magnitude then none
  else
    let quotient := scale 2 number.parts.2 (number.parts.1, 1)
    let whole : Int := quotient.1 / quotient.2
    some (if number.isNegative then -whole else whole)

/-- Digits after a decimal point, and the power of ten that they are scaled by. -/
structure Decimal where
  digits : List Char
  point : Int

/-- The least power of ten, not below `power`, that is greater than the quotient. -/
def decimalPoint (quotient : Nat × Nat) : Nat → Int → Int
  | 0, power => power
  | fuel + 1, power =>
    let scaled := scale 10 (-power) quotient
    if scaled.1 < scaled.2 then power else decimalPoint quotient fuel (power + 1)

/-- The multiple of a power of ten that is nearest to the quotient among those that round to it,
an even one on a tie. `low` and `high` bound the numbers that round to it. -/
def onGrid? (quotient low high : Nat × Nat) (closed : Bool) (power : Int) : Option Nat :=
  let scaled := scale 10 (-power) quotient
  let below := scaled.1 / scaled.2
  let inside (multiple : Nat) : Bool :=
    let least := scale 10 (-power) low
    let greatest := scale 10 (-power) high
    if closed then least.1 ≤ multiple * least.2 && multiple * greatest.2 ≤ greatest.1
    else least.1 < multiple * least.2 && multiple * greatest.2 < greatest.1
  -- If any multiple lies in the interval, so does one of the two next to the quotient.
  match inside below, inside (below + 1) with
  | true, true => some (roundQuotient scaled.1 scaled.2)
  | true, false => some below
  | false, true => some (below + 1)
  | false, false => none

/-- Try one more digit until some decimal rounds to the number. -/
def shortestFrom (quotient low high : Nat × Nat) (closed : Bool) (point : Int) :
    Nat → Nat → Decimal
  | 0, _ => ⟨[], point⟩
  | fuel + 1, count =>
    match onGrid? quotient low high closed (point - count) with
    | some multiple =>
      let digits := Nat.toDigits 10 multiple
      ⟨(digits.reverse.dropWhile (· == '0')).reverse, point + digits.length - count⟩
    | none => shortestFrom quotient low high closed point fuel (count + 1)

/-- The fewest digits that round back to the magnitude of a finite number; zero has none. The
numbers that round to a power of two reach only half as far down. -/
def shortest (number : Binary64) : Decimal :=
  let (mantissa, exponent) := number.parts
  if mantissa = 0 then ⟨[], 0⟩
  else
    -- Quarters of the last place keep the bounds of the interval whole.
    let quarters (count : Nat) := scale 2 (exponent - 2) (count, 1)
    let low := quarters (4 * mantissa - if mantissa = Nat.pow 2 52 && -1074 < exponent then 1 else 2)
    let high := quarters (4 * mantissa + 2)
    let quotient := quarters (4 * mantissa)
    shortestFrom quotient low high (mantissa % 2 == 0) (decimalPoint quotient 700 (-330)) 17 1

/-- Ones from ten to the minus fourth up to below ten to the sixteenth are written without an
exponent, and always with a point; an exponent has a sign and at least two digits. -/
def Decimal.render (decimal : Decimal) : List Char :=
  let zeros (count : Int) := List.replicate count.toNat '0'
  let size : Int := decimal.digits.length
  if decimal.digits.isEmpty then ['0', '.', '0']
  else if -4 < decimal.point && decimal.point ≤ 16 then
    let front := if decimal.point ≤ 0 then ['0'] else
      decimal.digits.take decimal.point.toNat ++ zeros (decimal.point - size)
    let back := zeros (-decimal.point) ++ decimal.digits.drop decimal.point.toNat
    front ++ '.' :: (if back.isEmpty then ['0'] else back)
  else
    let exponent := decimal.point - 1
    let power := Nat.toDigits 10 exponent.natAbs
    let tail := decimal.digits.drop 1
    decimal.digits.take 1 ++ (if tail.isEmpty then [] else '.' :: tail) ++
      ['e', if exponent < 0 then '-' else '+'] ++ zeros (2 - power.length) ++ power

def render (infinity notANumber : String) (number : Binary64) : List Char :=
  if number.isNaN then notANumber.toList
  else
    (if number.isNegative then ['-'] else []) ++
      if number.isInfinite then infinity.toList else number.shortest.render

end BoolQuery.Binary64
