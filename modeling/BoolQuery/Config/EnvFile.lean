import BoolQuery.Config.Environment
import BoolQuery.Text.Lines

/-! Environment files.

Each line gives a variable its value: a name, an equals sign and the value, with the word export
in front of the name or not. One pair of equal quotes around a value is dropped. Blank lines,
comments and lines without an equals sign say nothing; the last line of a name counts.
-/

set_option autoImplicit false

namespace BoolQuery.Config

def unquote (value : List Char) : List Char :=
  match value with
  | first :: rest =>
    if (first = '\x27' ∨ first = '"') ∧ rest.getLast? = some first then rest.dropLast else value
  | [] => []

/-- The word, with the space after it, that may stand in front of a name. -/
def exportWord : List Char := "export ".toList

def readBinding? (line : List Char) : Option (String × String) :=
  let line := Text.trim line
  if line.isEmpty || line.head? = some '#' then none
  else
    let line := if exportWord.isPrefixOf line then line.drop exportWord.length else line
    match line.dropWhile (· != '=') with
    | [] => none
    | _ :: value =>
      let name := Text.trim (line.takeWhile (· != '='))
      some (String.ofList name, String.ofList (unquote (Text.trim value)))

def readEnvFile (text : String) : Environment :=
  let lines := Text.lines (Text.normalizeEnds text.toList)
  (lines.filterMap readBinding?).foldl
    (fun environment binding => environment.put binding.1 binding.2) []

end BoolQuery.Config
