import DotPath.Json.Quoted

/-!
# Composing containers

Arrays and objects put together from the texts of their parts.
-/

namespace DotPath.Json

/-- An array of values that are already written. -/
def composeArray (items : List Text) : Text :=
  '[' :: List.intercalate [','] items ++ [']']

/-- An object of members whose keys and values are already written. -/
def composeMembers (members : List (Text × Text)) : Text :=
  '\x7b' :: List.intercalate [','] (members.map fun (key, value) => key ++ ':' :: value) ++ ['\x7d']

/-- An object of values that are already written, under names that are quoted here. -/
def composeObject (members : List (Text × Text)) : Text :=
  composeMembers (members.map fun (name, value) => (Quoted.encode name, value))

end DotPath.Json
