/-!
# Kinds of JSON values

The kind of a value is read off its first character. Objects and arrays share one kind.
-/

namespace DotPath.Json

/-- What a JSON value is, in the order in which values of different kinds are sorted. -/
inductive Kind where
  | null
  | false
  | number
  | string
  | true
  /-- An object or an array. -/
  | container
  deriving DecidableEq, Repr

/-- Place of a kind in the order of kinds. -/
def Kind.rank : Kind → Nat
  | .null => 0
  | .false => 1
  | .number => 2
  | .string => 3
  | .true => 4
  | .container => 5

end DotPath.Json
