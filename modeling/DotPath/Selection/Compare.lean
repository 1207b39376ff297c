import DotPath.Path.Basic
import DotPath.Selection.Convert
import DotPath.Text.Glob

/-!
# Comparing a selection with an operand

A comparison orders a value against an operand of its own kind; values of other kinds do not compare
at all, and only "not equal" holds of them. A missing value meets no comparison, except with an
operand that asks for a property.
-/

namespace DotPath

/-- Whether an operator accepts how two values compare; `none` if they do not. -/
def Operator.accepts (operator : Operator) (order : Option Ordering) : Bool :=
  match operator, order with
  | .notEqual, order => order != some .eq
  | .equal, order => order == some .eq
  | .less, order => order == some .lt
  | .lessEqual, order => order == some .lt || order == some .eq
  | .greater, order => order == some .gt
  | .greaterEqual, order => order == some .gt || order == some .eq
  | .like, _ | .unlike, _ => false

namespace Selection

/-- How a value compares with an operand of its own kind. -/
def order? (s : Selection) (operand : Operand) : Option Ordering :=
  match s.kind, operand with
  | .number, .number x => Binary64.compare? s.float x
  | .string, .text t => some (Text.order s.text t)
  | .true, .bool b => some (compare true.toNat b.toNat)
  | .false, .bool b => some (compare false.toNat b.toNat)
  | .null, .null => some .eq
  | _, _ => none

/-- Whether the value, as a text, matches a pattern given as operand. -/
def like (s : Selection) (operand : Operand) : Bool :=
  match operand with
  | .text pattern => Glob.isMatch pattern s.text
  | _ => false

/-- Whether a selection has a property. -/
def hasProperty (s : Selection) (tilde : Tilde) : Bool :=
  match tilde with
  | .true => s.isPresent && s.truthy
  | .false => !s.isPresent || !s.truthy
  | .null => !s.isPresent || s.kind == .null
  | .any => s.isPresent

/-- Whether a comparison holds of a selection. -/
def meets (s : Selection) (operator : Operator) (operand : Operand) : Bool :=
  match operand with
  | .tilde t =>
    match operator with
    | .equal | .like => s.hasProperty t
    | .notEqual | .unlike => !s.hasProperty t
    | _ => false
  | _ =>
    s.isPresent &&
      match operator with
      | .like => s.like operand
      | .unlike => !s.like operand
      | _ => operator.accepts (s.order? operand)

end Selection

end DotPath
