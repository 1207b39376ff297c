import DotPath.Json.Equality
import DotPath.Number.Notation
import DotPath.Selection.Convert
import DotPath.Transformer.Argument
import DotPath.Transformer.Basic

/-!
# Transformers of arrays

Filtering, taking out, counting, and sums of numbers.
-/

namespace DotPath

/-! ## Numbers of a list of selections -/

namespace Selection

/-- The numbers among selections; what is no finite number is passed over. -/
def numbers (found : List Selection) : List Float :=
  found.filterMap number?

end Selection

namespace Number

/-- The sum of numbers from the first to the last; negative zero if there are none. -/
def sum (xs : List Float) : Float :=
  xs.foldl (· + ·) (-0.0)

/--
The least of finite numbers; of equal ones, which can differ in the sign of zero, the last.
-/
def minimum? : List Float → Option Float
  | [] => none
  | x :: rest =>
    some (rest.foldl (fun least y => if Binary64.compare? least y == some .lt then least else y) x)

/--
The greatest of finite numbers; of equal ones, which can differ in the sign of zero, the last.
-/
def maximum? : List Float → Option Float
  | [] => none
  | x :: rest =>
    some (rest.foldl (fun most y => if Binary64.compare? most y == some .gt then most else y) x)

/-- The mean of numbers, if there are any. -/
def mean? (xs : List Float) : Option Float :=
  if xs.isEmpty then none else some (sum xs / Binary64.ofDecimal false xs.length 0)

end Number

namespace Transformer

open Json

/-! ## Filtering -/

/-- How a filter compares a field with a value. -/
inductive FilterTest where
  | eq
  | ne
  | gt
  | gte
  | lt
  | lte
  | contains
  deriving DecidableEq, Repr

/-- The test with a name. -/
def FilterTest.ofName? (name : Text) : Option FilterTest :=
  [("eq".toList, eq), ("ne".toList, ne), ("gt".toList, gt), ("gte".toList, gte), ("lt".toList, lt),
    ("lte".toList, lte), ("contains".toList, contains)].lookup name

/-- Whether a field passes a test against a value. A missing field only passes as not equal. -/
def FilterTest.passes (test : FilterTest) (field : Option Value) (target : Value) : Bool :=
  match field with
  | none => test == .ne
  | some v =>
    match test with
    | .eq => v.looselyEqual target
    | .ne => !v.looselyEqual target
    | .gt => v.order? target == some .gt
    | .gte => v.order? target == some .gt || v.order? target == some .eq
    | .lt => v.order? target == some .lt
    | .lte => v.order? target == some .lt || v.order? target == some .eq
    | .contains =>
      match v, target with
      | .string t, .string needle => Text.occursIn needle t
      | .array items, needle => items.any (·.looselyEqual needle)
      | _, _ => false

/-- Follows a path, given as text, from a selection. A text that is no path selects nothing. -/
def followed (follow : Follow) (path : Text) : Selection → Selection :=
  match follow path with
  | .ok route => route.resolve
  | .error _ => fun _ => .missing

/--
The path of the field that an argument tells to filter by, the test, and the value to test against.
-/
def filterArguments? (argument : Text) : Option (Text × FilterTest × Value) := do
  match ← Argument.fields? ["key".toList, "op".toList, "value".toList] argument with
  | [key, op, value] =>
    let key ← Argument.decodeD [] Argument.text? key
    let op ← Argument.decodeD none (Argument.optional? Argument.text?) op
    let value ← Argument.decodeD Value.null Argument.value? value
    let test ← FilterTest.ofName? (op.getD "eq".toList)
    return (key, test, value)
  | _ => none

/--
Keeps the elements of an array whose field passes a test. Without a key the element itself is
tested.
-/
def filterElements : Transformer := fun follow json argument =>
  match filterArguments? argument with
  | none => json
  | some (key, test, value) =>
    let s := Selection.document json
    if !s.isArray then json
    else
      let fieldOf := if key.isEmpty then id else followed follow key
      let kept := s.array.filter fun e =>
        let field := fieldOf e
        test.passes (if field.isPresent then some field.value else none) value
      composeArray (kept.map (·.raw))

/-- A filter aborts if following the path of its field aborts from one of the elements. -/
def filterAborts : Aborts := fun _ aborts json argument =>
  (filterArguments? argument).any fun (key, _, _) =>
    let s := Selection.document json
    s.isArray && !key.isEmpty && s.array.any (aborts key)

/-! ## Taking out -/

/--
The path that the argument of a plucking gives: a string literal, an object with a path, or bare
text.
-/
def pluckPath? (argument : Text) : Option Text :=
  let argument := Text.trimBlank argument
  if argument.head? == some '"' then
    match decode? argument with
    | some (.string t) => some t
    | _ => none
  else if opensObject argument then
    if (decode? argument).isNone then none
    else
      match Argument.fields? ["path".toList] argument with
      | some [some v] => Argument.text? v
      | _ => none
  else some argument

/-- The results of a path on the elements of an array. -/
def pluckPath : Transformer := fun follow json argument =>
  match (pluckPath? argument).filter (!·.isEmpty) with
  | none => json
  | some path =>
    let s := Selection.document json
    if !s.isArray then json
    else
      let found := s.array.map (followed follow path)
      composeArray ((found.filter (·.isPresent)).map (·.raw))

/-- Plucking aborts if following the path aborts from one of the elements. -/
def pluckAborts : Aborts := fun _ aborts json argument =>
  ((pluckPath? argument).filter (!·.isEmpty)).any fun path =>
    let s := Selection.document json
    s.isArray && s.array.any (aborts path)

/-- The text of a selection, or null. -/
def rawOrNull (s : Option Selection) : Text :=
  (s.map (·.raw)).getD ['n', 'u', 'l', 'l']

/-- The first element of an array. -/
def firstElement : Transformer := .withoutArgument fun json =>
  let s := Selection.document json
  if s.isArray then rawOrNull s.array.head? else json

/-- The last element of an array. -/
def lastElement : Transformer := .withoutArgument fun json =>
  let s := Selection.document json
  if s.isArray then rawOrNull s.array.getLast? else json

/-! ## Numbers -/

/-- The number of elements; one for a value that is no array. -/
def elementCount : Transformer := .withoutArgument fun json =>
  Text.ofNat (Selection.document json).array.length

/-- The numbers that a document holds at its top. -/
def topNumbers (json : Text) : List Float :=
  Selection.numbers (Selection.document json).array

/-- A computed number as text, or null. -/
def computedOrNull (x : Option Float) : Text :=
  (x.map Number.computedText).getD ['n', 'u', 'l', 'l']

/-- The sum of the numbers in an array. -/
def total : Transformer :=
  .withoutArgument fun json => Number.computedText (Number.sum (topNumbers json))

/-- The least number in an array. -/
def least : Transformer :=
  .withoutArgument fun json => computedOrNull (Number.minimum? (topNumbers json))

/-- The greatest number in an array. -/
def greatest : Transformer :=
  .withoutArgument fun json => computedOrNull (Number.maximum? (topNumbers json))

/-- The mean of the numbers in an array. -/
def mean : Transformer :=
  .withoutArgument fun json => computedOrNull (Number.mean? (topNumbers json))

/-! ## Conversion -/

/-- Turns a value that is no container into a string, a number or a truth value. -/
def convert : Transformer := .withArgument fun json argument =>
  let target? := do
    match ← Argument.fields? ["to".toList] argument with
    | [target] => Argument.decodeD [] Argument.text? target
    | _ => none
  match target? with
  | none => json
  | some target =>
    let s := Selection.document json
    if !s.isPresent || s.kind == .container then json
    else if target == "string".toList then
      if s.kind == .string then s.raw else Quoted.encode s.raw
    else if target == "number".toList then
      match s.kind with
      | .true => ['1']
      | .false => ['0']
      | _ => computedOrNull s.number?
    else if target == "bool".toList then
      if s.bool then ['t', 'r', 'u', 'e'] else ['f', 'a', 'l', 's', 'e']
    else json

end Transformer

end DotPath
