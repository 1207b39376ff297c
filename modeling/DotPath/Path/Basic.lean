import DotPath.Text.Basic

/-!
# Paths

A path is a list of segments, each of which narrows the current value or makes a new one from it.
Segments that look at several values carry a path of their own, which is followed from each of them.
-/

namespace DotPath

/-- How a query compares a field with an operand. -/
inductive Operator where
  | equal
  | notEqual
  | less
  | lessEqual
  | greater
  | greaterEqual
  /-- The field matches a glob pattern. -/
  | like
  /-- The field does not match a glob pattern. -/
  | unlike
  deriving DecidableEq, Repr

/-- Operands that ask for a property of the field instead of a value. -/
inductive Tilde where
  /-- The field counts as true. -/
  | true
  /-- The field is missing or does not count as true. -/
  | false
  /-- The field is missing or null. -/
  | null
  /-- The field exists. -/
  | any
  deriving DecidableEq, Repr

/-- What a query compares a field with. -/
inductive Operand where
  | text (t : Text)
  | number (x : Float)
  | bool (b : Bool)
  | null
  | tilde (t : Tilde)

mutual
/-- One step of a path. -/
inductive Segment where
  /-- The member with this name. -/
  | field (name : Text)
  /-- The element at this position. -/
  | index (n : Nat)
  /-- The first member whose name, or element whose text, matches a glob pattern. -/
  | wildcard (pattern : Text)
  /-- The number of elements or members. -/
  | length
  /-- The results of a path on every element. -/
  | collect (each : List Segment)
  /-- The first element that meets a condition, or the results of a path on all that do. -/
  | query (condition : Condition) (all : Bool) (each : List Segment)
  /-- A new array or object from the results of several paths, each with its key. -/
  | select (asArray : Bool) (entries : List (Text × List Segment))
  /-- A value given in the path itself. -/
  | literal (json : Text)
  /-- The result of a named transformer. `source` is the segment as it is written. -/
  | transform (name : Text) (argument : Option Text) (source : Text)
  /--
  The results of a path on every member below, at any depth, whose name matches a glob pattern.
  -/
  | descend (pattern : Text) (each : List Segment)
  /-- The results of a path on each of several values that follow one another. -/
  | lines (each : List Segment)

/-- What a query asks of an element. -/
inductive Condition where
  /-- The path leads to a value. -/
  | holds (field : List Segment)
  /-- The value that the path leads to compares as the operator says. -/
  | compare (field : List Segment) (operator : Operator) (operand : Operand)
  | both (left right : Condition)
  | either (left right : Condition)
end

/-- A compiled path. -/
abbrev Path := List Segment

end DotPath
