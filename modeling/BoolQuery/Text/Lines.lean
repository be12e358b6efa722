import BoolQuery.Text.Blank

/-! Lines of a text.

A file may end its lines with a line feed, a carriage return or the pair of both;
`normalizeEnds` leaves line feeds only. `lines` then splits at every line boundary of Unicode,
while `pieces` splits at line feeds alone and keeps the empty piece after a last one.
-/

set_option autoImplicit false

namespace BoolQuery.Text

/-- Write each carriage return, with the line feed that may follow it, as one line feed. -/
def normalizeEnds : List Char → List Char
  | [] => []
  | '\r' :: '\n' :: rest => '\n' :: normalizeEnds rest
  | c :: rest => (if c = '\r' then '\n' else c) :: normalizeEnds rest

theorem normalizeEnds_cons {c : Char} (plain : c ≠ '\r') (rest : List Char) :
    normalizeEnds (c :: rest) = c :: normalizeEnds rest := by
  rw [normalizeEnds, if_neg plain]
  rintro tail rfl
  exact absurd rfl plain

/-- A cut does not matter, unless it parts a carriage return from its line feed. -/
theorem normalizeEnds_append (front : List Char) {rest : List Char}
    (parted : ∀ c ∈ rest.head?, c ≠ '\n') :
    normalizeEnds (front ++ rest) = normalizeEnds front ++ normalizeEnds rest := by
  fun_induction normalizeEnds front with
  | case1 => rfl
  | case2 front ih => simpa [normalizeEnds] using ih
  | case3 c front apart ih =>
    rw [List.cons_append, normalizeEnds, ih]
    · rfl
    · rintro tail rfl whole
      cases front with
      | nil =>
        cases rest with
        | nil => cases whole
        | cons d rest =>
          cases whole
          exact parted '\n' rfl rfl
      | cons d front =>
        cases whole
        exact apart front rfl rfl

def isLineEnd (c : Char) : Bool :=
  c == '\n' || c == '\r' || c == '\x0b' || c == '\x0c' || ('\x1c' ≤ c && c ≤ '\x1e') ||
    c == '\u0085' || c == '\u2028' || c == '\u2029'

/-- Split before and after each character of a class; the class members are dropped. -/
def splitWhere (separates : Char → Bool) : List Char → List (List Char)
  | [] => [[]]
  | c :: rest =>
    if separates c then [] :: splitWhere separates rest
    else match splitWhere separates rest with
      | [] => [[c]]
      | piece :: others => (c :: piece) :: others

/-- The pieces between line feeds; a text always has at least one. -/
def pieces (text : List Char) : List (List Char) := splitWhere (· == '\n') text

/-- The lines of a text whose ends are normalized; what follows the last end is a line only if
it is not empty. -/
def lines (text : List Char) : List (List Char) :=
  let parts := splitWhere isLineEnd text
  if parts.getLast? = some [] then parts.dropLast else parts

end BoolQuery.Text
