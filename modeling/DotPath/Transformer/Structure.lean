import DotPath.Json.Layout
import DotPath.Json.Value
import DotPath.Json.Walk
import DotPath.Transformer.Argument
import DotPath.Transformer.Basic

/-!
# Transformers of layout and shape

Layout, validity, order, flattening, joining, keys and values, grouping, searching, and turning
values into strings and back. Text that is not of the shape a transformer works on is left as it is.
-/

namespace DotPath.Transformer

open Json

/-- Lays a document out in lines. The argument gives the options of the layout. -/
def prettyPrint : Transformer := .withArgument fun json argument =>
  let options := do
    match ← Argument.fields? ["indent".toList, "prefix".toList, "sortKeys".toList] argument with
    | [indent, margin, sortKeys] =>
      let indent ← Argument.decodeD LineOptions.standard.indent Argument.text? indent
      let margin ← Argument.decodeD LineOptions.standard.margin Argument.text? margin
      let sortKeys ← Argument.decodeD LineOptions.standard.sortKeys Argument.bool? sortKeys
      return LineOptions.mk indent margin sortKeys
    | _ => none
  match options with
  | some options => pretty options json
  | none => json

/-- Whether a text is a well-formed document, as a truth value. -/
def validity : Transformer := .withoutArgument fun json =>
  if valid json then ['t', 'r', 'u', 'e'] else ['f', 'a', 'l', 's', 'e']

/-- The text itself. -/
def unchanged : Transformer := .withoutArgument id

/-- Keys and values of an object as they are spelled, repeated names included. -/
def spelledMembers (json : Text) : List (Text × Text) :=
  (members (Selection.document json).raw).map fun m => (m.key.raw, m.value.raw)

/-- Turns the order of elements or members around. -/
def reverseItems : Transformer := .withoutArgument fun json =>
  let s := Selection.document json
  if s.isArray then composeArray (s.array.reverse.map (·.raw))
  else if s.isObject then composeMembers (spelledMembers json).reverse
  else json

/-- The elements of an array, arrays among them replaced by their elements for `depth` levels. -/
def flattened (depth : Nat) (array : Text) : List Text :=
  match depth with
  | 0 => (elements array).map (·.raw)
  | depth + 1 =>
    (elements array).flatMap fun e => if opensArray e.raw then flattened depth e.raw else [e.raw]

/-- Replaces arrays in an array by their elements: one level, or all down to the default depth. -/
def flattenArray : Transformer := .withArgument fun json argument =>
  let deep? := do
    match ← Argument.fields? ["deep".toList] argument with
    | [deep] => Argument.decodeD false Argument.bool? deep
    | _ => none
  match deep? with
  | none => json
  | some deep =>
    let s := Selection.document json
    if s.isArray then composeArray (flattened (if deep then defaultDepth - 1 else 1) s.raw)
    else json

/-- Keys and values of all objects in an array, in order and as they are spelled. -/
def objectMembers (array : Selection) : List (Text × Text) :=
  (array.array.filter (·.isObject)).flatMap fun o => spelledMembers o.raw

/--
Joins the objects in an array into one. Of members with the same name the last gives the value,
unless all are to be kept.
-/
def joinObjects : Transformer := .withArgument fun json argument =>
  let preserve? := do
    match ← Argument.fields? ["preserve".toList] argument with
    | [preserve] => Argument.decodeD false Argument.bool? preserve
    | _ => none
  match preserve? with
  | none => json
  | some preserve =>
    let s := Selection.document json
    if !s.isArray then json
    else if preserve then composeMembers (objectMembers s)
    else composeObject (mergeMembers ((objectMembers s).map fun (key, v) => (Quoted.text key, v)))

/-- The keys of an object, as they are spelled. -/
def keyList : Transformer := .withoutArgument fun json =>
  composeArray ((spelledMembers json).map (·.1))

/-- The values of an object; an array stays as it is. -/
def valueList : Transformer := .withoutArgument fun json =>
  let s := Selection.document json
  if s.isArray then s.raw else composeArray ((spelledMembers json).map (·.2))

/-- The elements of the members that are arrays, under the keys of the members. -/
def columns (json : Text) : List (Text × List Text) :=
  (spelledMembers json).filterMap fun (key, v) =>
    if opensArray v then some (key, (elements v).map (·.raw)) else none

/-- Row `i` of a table given by columns: a member for every column that is long enough. -/
def row (table : List (Text × List Text)) (i : Nat) : List (Text × Text) :=
  table.filterMap fun (key, column) => column[i]?.map (key, ·)

/-- Turns an object of arrays into an array of objects. -/
def groupColumns : Transformer := .withoutArgument fun json =>
  if (Selection.document json).isObject then
    let table := columns json
    let height := table.foldl (fun n (_, column) => max n column.length) 0
    composeArray ((List.range height).map fun i => composeMembers (row table i))
  else json

/-- The path that the argument of a search gives: a string literal, or the argument itself. -/
def searchPath? (argument : Text) : Option Text :=
  if argument.head? == some '"' then
    match decode? argument with
    | some (.string t) => some t
    | _ => none
  else some argument

/-- The results of a path on every value of a document. -/
def searchValues : Transformer := fun follow json argument =>
  match (searchPath? argument).map follow with
  | some (.ok route) =>
    let found := (walk defaultDepth json).map fun v =>
      route.resolve (Selection.ofOccurrence none v.value)
    composeArray ((found.filter (·.isPresent)).map (·.raw))
  | _ => json

/-- A search aborts if following the path aborts from one of the values. -/
def searchAborts : Aborts := fun _ aborts json argument =>
  (searchPath? argument).any fun path =>
    (walk defaultDepth json).any fun v => aborts path (Selection.ofOccurrence none v.value)

/-- Quotes a JSON text as a string. -/
def toStringLiteral : Transformer := .withoutArgument fun json =>
  Quoted.encode (Text.trimBlank json)

/-- The JSON text that a string holds. -/
def fromStringLiteral : Transformer := .withoutArgument fun json =>
  let s := Selection.document json
  if s.kind == .string && valid s.text then Text.trimBlank s.text else json

end DotPath.Transformer
