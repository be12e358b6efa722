/-! Letter case, as far as names in ASCII are compared without it. -/

set_option autoImplicit false

namespace BoolQuery.Text

/-- The ASCII capital of a letter. Two letters outside ASCII have one as well: the dotless i and
the long s. Other characters stand for themselves. -/
def capital (c : Char) : Char :=
  if c = '\u0131' then 'I' else if c = '\u017f' then 'S' else c.toUpper

/-- A text in ASCII capitals, for comparison with names that hold no ligature. -/
def capitals (text : String) : String := String.ofList (text.toList.map capital)

def smallLetters (text : String) : String := String.ofList (text.toList.map Char.toLower)

end BoolQuery.Text
