import DotPath.Environment
import DotPath.Json.Layout
import DotPath.Sorting

/-!
# Aggregates

Helpers on the elements of what a path leads to. The empty path stands for the whole document, a
value that is no array for its one element, and a path that leads nowhere has no elements.
-/

namespace DotPath.Aggregate

/-- The elements that an aggregate is about. -/
def elements (env : Environment) (json path : Text) : List Selection :=
  (if path.isEmpty then Selection.document json else env.get json path).array

/-- The numbers among the elements. -/
def numbers (env : Environment) (json path : Text) : List Float :=
  Selection.numbers (elements env json path)

/-- The number of elements. -/
def count (env : Environment) (json path : Text) : Nat :=
  (elements env json path).length

/-- The sum of the numbers. -/
def sum (env : Environment) (json path : Text) : Float :=
  Number.sum (numbers env json path)

/-- The least of the numbers. -/
def minimum? (env : Environment) (json path : Text) : Option Float :=
  Number.minimum? (numbers env json path)

/-- The greatest of the numbers. -/
def maximum? (env : Environment) (json path : Text) : Option Float :=
  Number.maximum? (numbers env json path)

/-- The mean of the numbers. -/
def mean? (env : Environment) (json path : Text) : Option Float :=
  Number.mean? (numbers env json path)

/-- The elements that meet a condition. -/
def filter (env : Environment) (json path : Text) (keep : Selection → Bool) : List Selection :=
  (elements env json path).filter keep

/-- The first element that meets a condition. -/
def first (env : Environment) (json path : Text) (keep : Selection → Bool) : Selection :=
  ((elements env json path).find? keep).getD .missing

/-- The results of a path on the elements. -/
def pluck (env : Environment) (json path field : Text) : List Selection :=
  ((elements env json path).map fun e => env.getFrom e field).filter (·.isPresent)

/-! ## Distinct elements -/

/-- Of selections with the same key the first, `seen` being the keys that have occurred before. -/
def firstOfEach (seen : List Text) : List (Text × Selection) → List Selection
  | [] => []
  | (key, s) :: rest =>
    if seen.contains key then firstOfEach seen rest else s :: firstOfEach (key :: seen) rest

/-- The elements without those that an earlier one equals up to layout. -/
def distinct (env : Environment) (json path : Text) : List Selection :=
  firstOfEach [] ((elements env json path).map fun e => (Json.minify e.raw, e))

/-! ## Groups -/

/-- Adds a selection to the group of a key; a new group goes to the end. -/
def addToGroup (key : Text) (s : Selection) : List (Text × List Selection) →
    List (Text × List Selection)
  | [] => [(key, [s])]
  | (k, group) :: rest =>
    if k == key then (k, group ++ [s]) :: rest else (k, group) :: addToGroup key s rest

/-- The elements in groups by the text of a field, in order of first appearance. -/
def groupBy (env : Environment) (json path field : Text) : List (Text × List Selection) :=
  (elements env json path).foldl (fun groups e => addToGroup (env.getFrom e field).text e groups) []

/-! ## Sorting -/

/-- What an element is sorted by: its number if it has one, and its text. -/
structure SortKey where
  number : Option Float
  text : Text

/-- What a selection is sorted by. -/
def sortKey (s : Selection) : SortKey :=
  ⟨s.number?, s.text⟩

/-- Two keys with numbers go by these, any others by their texts. -/
def compareKeys (a b : SortKey) : Ordering :=
  match a.number, b.number with
  | some x, some y => (Binary64.compare? x y).getD .eq
  | _, _ => Text.order a.text b.text

/-- The comparison of elements by their keys. -/
def byKey (a b : SortKey × Selection) : Ordering :=
  compareKeys a.1 b.1

/-- The elements to sort, each with the key that a field gives, or with itself if there is none. -/
def keyed (env : Environment) (json path field : Text) : List (SortKey × Selection) :=
  (elements env json path).map fun e =>
    (sortKey (if field.isEmpty then e else env.getFrom e field), e)

/-- The elements sorted by a field, if the sort gives anything. -/
def sortBy (sort : Sorting (SortKey × Selection)) (env : Environment) (json path field : Text) :
    Option (List Selection) :=
  (sort byKey (keyed env json path field)).map fun sorted => sorted.map (·.2)

end DotPath.Aggregate
