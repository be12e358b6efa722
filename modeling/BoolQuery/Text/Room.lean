/-! Room for text.

The length of a text is kept in a signed number of 64 bits, and the memory for it is limited. A
row of equal characters may be asked for at any length, so it is checked before it is made.
-/

set_option autoImplicit false

namespace BoolQuery.Text

inductive Excess where
  -- The length is no number of 64 bits.
  | uncountable
  -- The memory does not hold the text.
  | noRoom
  deriving DecidableEq, Repr

def leastCount : Int := -0x8000000000000000

def greatestCount : Int := 0x7fffffffffffffff

def room : Nat := 0x1000000

/-- Whether a row of a length can be made. A negative length is that of the empty row. -/
def checkRow (length : Int) : Except Excess Unit :=
  if length < leastCount ∨ greatestCount < length then .error .uncountable
  else if room < length then .error .noRoom
  else .ok ()

theorem checkRow_eq_ok_iff (length : Int) :
    checkRow length = .ok () ↔ leastCount ≤ length ∧ length ≤ room := by
  have within : (room : Int) ≤ greatestCount := by decide
  by_cases far : length < leastCount ∨ greatestCount < length
  · simp only [checkRow, far, if_true, reduceCtorEq, false_iff]
    omega
  · by_cases long : room < length
    · simp only [checkRow, far, long, if_true, if_false, reduceCtorEq, false_iff]
      omega
    · simp only [checkRow, far, long, if_false, true_iff]
      omega

end BoolQuery.Text
