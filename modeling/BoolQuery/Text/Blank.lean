/-! Blank space.

Two notions are kept apart. Words of a query are separated by the six blanks of ASCII, so a
no-break space is an ordinary character of a word. The text of a setting is trimmed of every
space of Unicode.
-/

set_option autoImplicit false

namespace BoolQuery.Text

/-- Blanks separate the words of a query. -/
def isBlank (c : Char) : Bool :=
  c == ' ' || c == '\t' || c == '\n' || c == '\r' || c == '\x0b' || c == '\x0c'

/-- Spaces of Unicode, together with the four information separators of ASCII. -/
def isSpace (c : Char) : Bool :=
  isBlank c || ('\x1c' ≤ c && c ≤ '\x1f') || c == '\u0085' || c == '\u00a0' || c == '\u1680' ||
    ('\u2000' ≤ c && c ≤ '\u200a') || c == '\u2028' || c == '\u2029' || c == '\u202f' ||
    c == '\u205f' || c == '\u3000'

theorem isSpace_of_isBlank {c : Char} (blank : isBlank c = true) : isSpace c = true := by
  simp [isSpace, blank]

def trimEndWhile (drop : Char → Bool) (text : List Char) : List Char :=
  (text.reverse.dropWhile drop).reverse

def trimWhile (drop : Char → Bool) (text : List Char) : List Char :=
  trimEndWhile drop (text.dropWhile drop)

def trim (text : List Char) : List Char := trimWhile isSpace text

end BoolQuery.Text
