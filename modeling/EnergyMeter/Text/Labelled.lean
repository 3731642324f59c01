/-!
The text of a value that carries parts: a name followed by its labelled parts
in braces, or by its only part in parentheses.
-/

namespace EnergyMeter.Text

/-- A name and its labelled parts, in the given order. -/
def labelled (name : String) (parts : List (String × String)) : String :=
  name ++ " \x7b " ++ ", ".intercalate (parts.map fun part => part.1 ++ ": " ++ part.2) ++ " \x7d"

/-- A name and its only part. -/
def tagged (name part : String) : String :=
  name ++ "(" ++ part ++ ")"

/-- The part in double quotes. -/
def quoted (part : String) : String :=
  "\"" ++ part ++ "\""

/-- The words `true` and `false`. -/
def ofBool (value : Bool) : String :=
  if value then "true" else "false"

end EnergyMeter.Text
