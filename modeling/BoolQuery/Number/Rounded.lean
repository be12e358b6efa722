import BoolQuery.Number.Binary64
import BoolQuery.Text.Run

/-! Decimal forms of a chosen precision.

A finite number is rounded to so many places after the point, or to so many digits in all, a tie
to the even digit. The forms here are of the magnitude; the sign is left to the caller. A point
that no digit follows is dropped unless it is asked for.
-/

set_option autoImplicit false

namespace BoolQuery.Binary64

def quotient (number : Binary64) : Nat × Nat := scale 2 number.parts.2 (number.parts.1, 1)

/-- The magnitude rounded to so many digits, at least one. Zero has that many as well. -/
def rounded (number : Binary64) (count : Nat) : Decimal :=
  if number.parts.1 = 0 then ⟨List.replicate count '0', 1⟩
  else
    let point := decimalPoint number.quotient 700 (-330)
    let scaled := scale 10 (count - point) number.quotient
    let digits := Nat.toDigits 10 (roundQuotient scaled.1 scaled.2)
    -- Rounding up to the next power of ten gives one digit too many, a zero.
    if digits.length ≤ count then ⟨digits, point⟩ else ⟨digits.dropLast, point + 1⟩

/-! ## Forms

No finite number has more than `allPlaces` places after the point, nor more than `allDigits` digits
from its first one that is not zero. What is asked for beyond them is zeros, which are never made
one by one.
-/

def allPlaces : Nat := 1074

def allDigits : Nat := 767

def joinPoint (pointed : Bool) (whole fraction : List Char) : List Char :=
  if fraction.isEmpty && !pointed then whole else whole ++ '.' :: fraction

/-- An exponent with its sign and at least two digits. -/
def exponentText (exponent : Int) : List Char :=
  let digits := Nat.toDigits 10 exponent.natAbs
  ['e', if exponent < 0 then '-' else '+'] ++ List.replicate (2 - digits.length) '0' ++ digits

def dropEndZeros (digits : List Char) : List Char :=
  (digits.reverse.dropWhile (· == '0')).reverse

/-- So many places after the point, without an exponent. -/
def fixedForm (number : Binary64) (places : Nat) (pointed : Bool) : List Text.Run :=
  let exact := min places allPlaces
  let scaled := scale 10 exact number.quotient
  let digits := Nat.toDigits 10 (roundQuotient scaled.1 scaled.2)
  let padded := List.replicate (exact + 1 - digits.length) '0' ++ digits
  let whole := padded.length - exact
  [.chars (joinPoint pointed (padded.take whole) (padded.drop whole)),
    .repeated '0' (places - exact)]

/-- One digit before the point, so many places after it, and an exponent. -/
def exponentForm (number : Binary64) (places : Nat) (pointed : Bool) : List Text.Run :=
  let exact := min (places + 1) allDigits
  let decimal := number.rounded exact
  [.chars (joinPoint pointed (decimal.digits.take 1) (decimal.digits.drop 1)),
    .repeated '0' (places + 1 - exact), .chars (exponentText (decimal.point - 1))]

/-- So many digits in all, with an exponent if the point would stand far from them. Zeros at the
end are dropped along with the point, or kept along with it. -/
def generalForm (number : Binary64) (precision : Nat) (pointed : Bool) : List Text.Run :=
  let count := max precision 1
  let exact := min count allDigits
  let decimal := number.rounded exact
  let kept (fraction : List Char) := if pointed then fraction else dropEndZeros fraction
  let zeros := Text.Run.repeated '0' (if pointed then count - exact else 0)
  if decimal.point ≤ -4 || (count : Int) < decimal.point then
    [.chars (joinPoint pointed (decimal.digits.take 1) (kept (decimal.digits.drop 1))), zeros,
      .chars (exponentText (decimal.point - 1))]
  else if decimal.point ≤ 0 then
    [.chars (joinPoint pointed ['0']
      (kept (List.replicate (-decimal.point).toNat '0' ++ decimal.digits))), zeros]
  else
    [.chars (joinPoint pointed (decimal.digits.take decimal.point.toNat)
      (kept (decimal.digits.drop decimal.point.toNat))), zeros]

end BoolQuery.Binary64
