import DotPath.Json.Value
import DotPath.Selection.Basic
import DotPath.Text.Blank
import DotPath.Text.CaseMapping

/-!
# Selections as numbers, truth values and decoded values

The conversions accept what stands for the wanted kind and give a neutral answer for everything
else. Integers that do not fit are cut to the nearest one that does. `Selection.number?` is the
strict conversion that sorting and aggregation use.
-/

namespace DotPath.Selection

open Json

/-- The value as a double: a number, a string that writes one, or one for true; zero otherwise. -/
def float (s : Selection) : Float :=
  match s.kind with
  | .true => 1
  | .number => (Number.float? s.raw).getD 0
  | .string => (Number.float? (Text.trimBlank s.text)).getD 0
  | _ => 0

/-- The whole part of a double, cut to the range of signed 64-bit integers. -/
def clampInt64 (x : Float) : Int :=
  Binary64.truncateTo Number.minInt64 Number.maxInt64 x

/-- The value as a signed 64-bit integer; zero for what is no number. -/
def int64 (s : Selection) : Int :=
  match s.kind with
  | .true => 1
  | .number => (Number.int64? s.raw).getD (clampInt64 s.float)
  | .string =>
    let t := Text.trimBlank s.text
    match Number.int64? t, Number.float? t with
    | some n, _ => n
    | none, some x => clampInt64 x
    | none, none => 0
  | _ => 0

/-- The value as an unsigned 64-bit integer; zero for what is negative or no number. -/
def uint64 (s : Selection) : Nat :=
  match s.kind with
  | .true => 1
  | .number =>
    (Number.uint64? s.raw).getD (Binary64.truncateTo 0 Number.maxUInt64 s.float).toNat
  | _ => s.int64.toNat

/-- The texts that stand for true. -/
def trueWords : List Text :=
  [['1'], ['t'], ['T'], ['t', 'r', 'u', 'e'], ['T', 'R', 'U', 'E'], ['T', 'r', 'u', 'e']]

/-- The value as a truth value: true, a number other than zero, or a string that stands for true. -/
def bool (s : Selection) : Bool :=
  match s.kind with
  | .true => true
  | .string => trueWords.contains s.text
  | .number => !Binary64.isZero s.float
  | _ => false

/-- The texts that do not count as true. -/
def falseWords : List Text :=
  [[], ['f', 'a', 'l', 's', 'e'], ['0']]

/--
Whether the value counts as true: true itself, a number other than zero, a string other than those
for false, and a container with anything in it.
-/
def truthy (s : Selection) : Bool :=
  match s.kind with
  | .true => true
  | .number => !Binary64.isZero s.float
  | .string => !falseWords.contains s.text
  | .container => !((s.raw.drop 1).dropLast).all Text.isBlank
  | .null | .false => false

/-- The finite number that a number or a string writes, if it writes one. -/
def number? (s : Selection) : Option Float :=
  let parsed := match s.kind with
    | .number => Number.float? s.raw
    | .string => Number.float? (Text.trimBlank s.text)
    | _ => none
  parsed.filter Binary64.isFinite

/-- The decoded value; null when nothing is selected or the text does not decode. -/
def value (s : Selection) : Value :=
  if s.isPresent then (decode? s.raw).getD .null else .null

/--
Whether one value comes before another: values of different kinds go by their kinds, strings by code
points (lowered first if case does not count), numbers by size, all others by their texts.
-/
def less (a b : Selection) (caseSensitive : Bool) : Bool :=
  if a.kind ≠ b.kind then a.kind.rank < b.kind.rank
  else match a.kind with
    | .string =>
      if caseSensitive then Text.order a.text b.text == .lt
      else Text.order (Text.toLower a.text) (Text.toLower b.text) == .lt
    | .number => Binary64.compare? a.float b.float == some .lt
    | _ => Text.order a.raw b.raw == .lt

end DotPath.Selection
