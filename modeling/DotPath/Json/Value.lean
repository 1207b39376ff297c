import DotPath.Json.Items
import DotPath.Json.Quoted
import DotPath.Json.WellFormed
import DotPath.Number.Notation
import DotPath.Number.Reading

/-!
# Decoded values

A document decodes strictly to a `Value`: it has to be well-formed, its strings have to stand for
texts, its numbers have to be finite, and its containers may nest only so deep. The members of an
object keep their order; of members with the same key the first gives the place and the last the
value.

A whole number that fits 64 bits stays a whole number. Any other is a double, computed from the
leading digits that fit 64 bits and from one power of ten.
-/

namespace DotPath.Json

/-- A decoded document. -/
inductive Value where
  | null
  | bool (b : Bool)
  | integer (n : Int)
  | float (x : Float)
  | string (t : Text)
  | array (items : List Value)
  | object (members : List (Text × Value))

/-! ## Numbers -/

/-- The greatest number that the leading digits of a double may make up. -/
def maxSignificand : Nat := 0xFFFFFFFFFFFFFFFF

/--
Takes whole digits while the number they make up fits, and counts the digits that are left out.
-/
def takeWhole (n : Nat) : Text → Nat × Nat
  | [] => (n, 0)
  | c :: rest =>
    let next := n * 10 + (c.toNat - 0x30)
    if next ≤ maxSignificand then takeWhole next rest else (n, rest.length + 1)

/-- Takes digits of a fraction while the number they make up fits, and counts those taken. -/
def takeFraction (n taken : Nat) : Text → Nat × Nat
  | [] => (n, taken)
  | c :: rest =>
    let next := n * 10 + (c.toNat - 0x30)
    if next ≤ maxSignificand then takeFraction next (taken + 1) rest else (n, taken)

/-- The greatest power of ten that a double is multiplied or divided by at once. -/
def maxPower : Int := 308

/-- The double nearest to a power of ten. -/
def powerOfTen (n : Int) : Float :=
  Binary64.ofDecimal false 1 n

/--
A double times a power of ten, in one rounded step where possible; `none` beyond the range of
doubles.
-/
def timesPower? (x : Float) (power : Int) : Option Float :=
  if Binary64.isZero x then some x
  else if maxPower < power then none
  else if 0 ≤ power then
    let y := x * powerOfTen power
    if Binary64.isFinite y then some y else none
  else if -maxPower ≤ power then some (x / powerOfTen (-power))
  else timesPower? (x / powerOfTen maxPower) (power + maxPower)
termination_by (-power).toNat
decreasing_by
  simp only [maxPower] at *
  omega

/-- The double that a number token stands for. -/
def floatOfToken? (token : Text) : Option Float := do
  let (sign, t) := minus token
  let (whole, t) := t.span Char.isDigit
  let (fraction, t) := Number.splitFraction t
  let exponent ← Number.exponentOf? t
  let (n, leftOut) := takeWhole 0 whole
  let (n, taken) := takeFraction n 0 fraction
  let x ← timesPower? (Binary64.ofDecimal false n 0) (exponent + leftOut - taken)
  return if sign == 1 then -x else x

/--
The value that a number token stands for: a whole number if it fits and is not a negative zero.
-/
def numberValue? (token : Text) : Option Value :=
  let (sign, run) := minus token
  let n := Number.natOfDigits run
  if run.all Char.isDigit && sign == 0 && n ≤ Number.maxUInt64 then some (.integer n)
  else if run.all Char.isDigit && sign == 1 && 0 < n && -(n : Int) ≥ Number.minInt64 then
    some (.integer (-n))
  else (floatOfToken? token).map .float

/-! ## Decoding -/

/--
The members with `key` set to `value`: in its place if the key is present, at the end otherwise.
-/
def setMember {α : Type} (key : Text) (value : α) : List (Text × α) → List (Text × α)
  | [] => [(key, value)]
  | (k, v) :: rest =>
    if k == key then (k, value) :: rest else (k, v) :: setMember key value rest

/-- Members in order of the first occurrence of their keys, each with its last value. -/
def mergeMembers {α : Type} (members : List (Text × α)) : List (Text × α) :=
  members.foldl (fun merged (key, value) => setMember key value merged) []

/-- The text that a string literal strictly stands for. -/
def stringValue? (literal : Text) : Option Text :=
  Quoted.decode? (Quoted.body literal)

/--
Decodes a value of a well-formed document, in which at most `depth` more containers may be open.
-/
def valueWithin? (depth : Nat) (v : Occurrence) : Option Value :=
  match v.kind with
  | .null => some .null
  | .false => some (.bool false)
  | .true => some (.bool true)
  | .number => numberValue? v.raw
  | .string => (stringValue? v.raw).map .string
  | .container =>
    match depth with
    | 0 => none
    | depth + 1 =>
      if opensObject v.raw then do
        let members ← (members v.raw).mapM fun m => do
          let key ← stringValue? m.key.raw
          let value ← valueWithin? depth m.value
          return (key, value)
        return .object (mergeMembers members)
      else do
        let items ← (elements v.raw).mapM (valueWithin? depth)
        return .array items

/-- How many containers may be open at once in a document that is decoded. -/
def decodeDepth : Nat := 127

/-- The value that a document decodes to. -/
def decode? (t : Text) : Option Value :=
  (document? t).bind (valueWithin? decodeDepth)

/-! ## Writing -/

mutual
/-- A value as compact text. -/
def Value.encode : Value → Text
  | .null => ['n', 'u', 'l', 'l']
  | .bool true => ['t', 'r', 'u', 'e']
  | .bool false => ['f', 'a', 'l', 's', 'e']
  | .integer n => Text.ofInt n
  | .float x => Number.valueLayout.write x
  | .string t => Quoted.encode t
  | .array items => '[' :: List.intercalate [','] (encodeItems items) ++ [']']
  | .object members => '\x7b' :: List.intercalate [','] (encodeMembers members) ++ ['\x7d']

/-- The texts of the elements of an array. -/
def encodeItems : List Value → List Text
  | [] => []
  | v :: rest => v.encode :: encodeItems rest

/-- The texts of the members of an object. -/
def encodeMembers : List (Text × Value) → List Text
  | [] => []
  | (key, v) :: rest => (Quoted.encode key ++ ':' :: v.encode) :: encodeMembers rest
end

end DotPath.Json
