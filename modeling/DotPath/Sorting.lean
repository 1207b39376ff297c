/-!
# Sorts

A sort of the elements of a list is taken as given: it is some function of a comparison and a list,
and may give nothing, as it may abort when the comparison orders nothing. What it promises is said
in terms of its results.

Insertion is one such sort. Each element goes to its place among those before it, so that the result
is determined by comparisons even where these contradict one another.
-/

namespace DotPath

/-- A sort by comparisons. -/
abbrev Sorting (α : Type) := (α → α → Ordering) → List α → Option (List α)

/--
Puts an element into a list that is sorted downwards, before all that it does not come before.
-/
def insertDown {α : Type} (cmp : α → α → Ordering) (a : α) : List α → List α
  | [] => [a]
  | b :: rest => if cmp a b == .lt then b :: insertDown cmp a rest else a :: b :: rest

/-- Sorts a list upwards by insertion; elements that compare equal stay in their order. -/
def insertionSort {α : Type} (cmp : α → α → Ordering) (l : List α) : List α :=
  (l.foldl (fun sorted a => insertDown cmp a sorted) []).reverse

/-- Sorting by insertion. -/
def Sorting.byInsertion {α : Type} : Sorting α :=
  fun cmp l => some (insertionSort cmp l)

end DotPath
