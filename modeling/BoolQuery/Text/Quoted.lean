import BoolQuery.Text.Hex
import BoolQuery.Text.Printable

/-! Quoted text.

A text is quoted with single quotes, or with double quotes if it holds a single quote and no
double one. The quote in use and the backslash are escaped, so is every character that is not
printable; a quoted text therefore never spans two lines.
-/

set_option autoImplicit false

namespace BoolQuery.Text

def quoteFor (text : List Char) : Char :=
  if '\x27' ∈ text ∧ '"' ∉ text then '"' else '\x27'

/-- An escaped code point has two, four or eight digits, the fewest that hold it. -/
def escapeCode (code : Nat) : List Char :=
  if code < 0x100 then '\\' :: 'x' :: hexDigits 2 code
  else if code < 0x10000 then '\\' :: 'u' :: hexDigits 4 code
  else '\\' :: 'U' :: hexDigits 8 code

def quoteChar (quote c : Char) : List Char :=
  if c = quote ∨ c = '\\' then ['\\', c]
  else if c = '\n' then ['\\', 'n']
  else if c = '\r' then ['\\', 'r']
  else if c = '\t' then ['\\', 't']
  else if isPrintable c then [c]
  else escapeCode c.toNat

def quoteChars (text : List Char) : List Char :=
  let quote := quoteFor text
  quote :: text.flatMap (quoteChar quote) ++ [quote]

def escapeForeign (text : List Char) : List Char :=
  text.flatMap fun c => if c.toNat < 0x80 then [c] else escapeCode c.toNat

def quoted (text : String) : String := String.ofList (quoteChars text.toList)

end BoolQuery.Text
