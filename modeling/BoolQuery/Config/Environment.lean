/-! The environment: values of variables by name. -/

set_option autoImplicit false

namespace BoolQuery.Config

/-- Values of variables by name. A name appears once. -/
abbrev Environment := List (String × String)

namespace Environment

/-- Give a variable a value; a variable that is present keeps its place. -/
def put (environment : Environment) (name value : String) : Environment :=
  match environment with
  | [] => [(name, value)]
  | (other, old) :: rest =>
    if other = name then (name, value) :: rest
    else (other, old) :: put rest name value

def erase (environment : Environment) (name : String) : Environment :=
  environment.filter fun binding => binding.1 != name

inductive Flaw where
  -- The name or the value holds the character zero.
  | broken
  -- The name holds an equals sign.
  | dividedName
  | emptyName
  deriving DecidableEq, Repr

/-- Give a variable a value, if the environment of a process can hold both. -/
def set (environment : Environment) (name value : String) : Except Flaw Environment :=
  if name.toList.contains '\x00' || value.toList.contains '\x00' then .error .broken
  else if name.toList.contains '=' then .error .dividedName
  else if name.isEmpty then .error .emptyName
  else .ok (environment.put name value)

end Environment

end BoolQuery.Config
