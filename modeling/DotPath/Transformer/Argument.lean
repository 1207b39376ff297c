import DotPath.Json.Value
import DotPath.Text.Blank

/-!
# Arguments of transformers

An argument gives values to the fields that a transformer declares: an object by name, an array in
the order of declaration. Unknown names are passed over without a look at their values, a name given
twice is refused, and so are more values than fields. A blank argument gives no field a value.

The decoders turn the value of a field into what the transformer wants, and refuse values of another
kind.
-/

namespace DotPath.Argument

open Json

/-- The values that an argument gives to the declared fields, in the order of declaration. -/
abbrev Fields := List (Option Occurrence)

/-- Whether a field occurs more than once among names. -/
def isRepeated (names : List Text) (field : Text) : Bool :=
  1 < names.count field

/-- The fields of an object argument. -/
def objectFields? (declared : List Text) (object : Text) : Option Fields := do
  let named ← (members object).mapM fun m => (stringValue? m.key.raw).map (·, m.value)
  let names := named.map (·.1)
  if declared.any (isRepeated names) then none
  else some (declared.map fun field => named.lookup field)

/-- The fields of an array argument. -/
def arrayFields? (declared : List Text) (array : Text) : Option Fields :=
  let values := elements array
  if declared.length < values.length then none
  else some ((List.range declared.length).map fun i => values[i]?)

/-- The fields of an argument, or `none` if it does not decode. -/
def fields? (declared : List Text) (argument : Text) : Option Fields :=
  if argument.all Text.isBlank then some (declared.map fun _ => none)
  else do
    let v ← document? argument
    if opensObject v.raw then objectFields? declared v.raw
    else if opensArray v.raw then arrayFields? declared v.raw
    else none

/-- Decodes a field, a missing one to its default. -/
def decodeD {α : Type} (default : α) (decode? : Occurrence → Option α) (field : Option Occurrence) :
    Option α :=
  match field with
  | some v => decode? v
  | none => some default

/-- A truth value. -/
def bool? (v : Occurrence) : Option Bool :=
  match v.kind with
  | .true => some true
  | .false => some false
  | _ => none

/-- A string. -/
def text? (v : Occurrence) : Option Text :=
  if v.kind == .string then stringValue? v.raw else none

/-- A whole number that is not negative and fits 64 bits, without fraction and exponent. -/
def nat? (v : Occurrence) : Option Nat :=
  if v.kind == .number then Number.uint64? v.raw else none

/-- Null, or what a decoder accepts. -/
def optional? {α : Type} (decode? : Occurrence → Option α) (v : Occurrence) : Option (Option α) :=
  if v.kind == .null then some none else (decode? v).map some

/-- An array of strings. -/
def texts? (v : Occurrence) : Option (List Text) :=
  if opensArray v.raw then (elements v.raw).mapM text? else none

/-- An object of strings; of strings under the same name the last counts. -/
def textMap? (v : Occurrence) : Option (List (Text × Text)) :=
  if opensObject v.raw then do
    let named ← (members v.raw).mapM fun m => do
      let name ← stringValue? m.key.raw
      let t ← text? m.value
      return (name, t)
    return mergeMembers named
  else none

/-- Any value. -/
def value? (v : Occurrence) : Option Value :=
  valueWithin? (decodeDepth - 1) v

end DotPath.Argument
