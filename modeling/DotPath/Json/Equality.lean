import DotPath.Json.Value
import DotPath.Number.Binary64

/-!
# Comparing decoded values

Two numbers are equal if their doubles are. Inside containers a whole number differs from a double,
and the order of members does not count.
-/

namespace DotPath.Json.Value

/-- The double nearest to an integer. -/
def floatOfInt (n : Int) : Float :=
  Binary64.ofDecimal (n < 0) n.natAbs 0

/-- A number as a double. -/
def float? : Value → Option Float
  | .integer n => some (floatOfInt n)
  | .float x => some x
  | _ => none

mutual
/-- Whether two values are the same, numbers being the same only if both are whole or neither is. -/
def same : Value → Value → Bool
  | .null, .null => true
  | .bool a, .bool b => a == b
  | .integer m, .integer n => m == n
  | .float x, .float y => Binary64.compare? x y == some .eq
  | .string s, .string t => s == t
  | .array a, .array b => sameItems a b
  | .object a, .object b => a.length == b.length && sameMembers a b
  | _, _ => false

/-- Whether two lists hold the same values in the same order. -/
def sameItems : List Value → List Value → Bool
  | [], [] => true
  | a :: s, b :: t => same a b && sameItems s t
  | _, _ => false

/-- Whether every member has one of the same name and value among others. -/
def sameMembers : List (Text × Value) → List (Text × Value) → Bool
  | [], _ => true
  | (name, a) :: rest, others =>
    (match others.lookup name with
      | some b => same a b
      | none => false) && sameMembers rest others
end

/-- Whether two values are equal, numbers being compared as doubles. -/
def looselyEqual (a b : Value) : Bool :=
  match a.float?, b.float? with
  | some x, some y => Binary64.compare? x y == some .eq
  | _, _ => same a b

/-- How two numbers or two strings compare. -/
def order? (a b : Value) : Option Ordering :=
  match a, b with
  | .string s, .string t => some (Text.order s t)
  | a, b => do Binary64.compare? (← a.float?) (← b.float?)

end DotPath.Json.Value
