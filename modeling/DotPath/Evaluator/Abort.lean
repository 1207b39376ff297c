import DotPath.Evaluator.Basic

/-!
# Where following a path aborts

A transformer can abort the program, and then whatever calls it aborts as well. Following a path
applies transformers one after the other; it aborts if one of the calls does that are really made.
The functions here take the way of the evaluator through a path and look at its calls. A condition
is tried on one element after the other, and its parts from left to right, and nothing behind a
result that settles the matter is tried any more.

Where nothing aborts, the selections are those of the evaluator.
-/

namespace DotPath

/-- Whether a call aborts: of the transformer with a name, on a text, with an argument. -/
abbrev CallAborts := Text → Text → Text → Bool

/-- Whether trying elements up to the first one that holds aborts. -/
def abortsUntil {α : Type} (aborts holds : α → Bool) : List α → Bool
  | [] => false
  | a :: rest => aborts a || !holds a && abortsUntil aborts holds rest

namespace Evaluator

open Json Selection

variable (ev : Evaluator) (aborts : CallAborts)

mutual
/-- Whether following a path from a selection aborts. -/
def resolveAborts (cur : Selection) : Path → Bool
  | [] => false
  | s :: rest =>
    (cur.isPresent || s.isLiteral) && (stepAborts cur s || resolveAborts (ev.step cur s) rest)

/-- Whether following one segment aborts. -/
def stepAborts (cur : Selection) : Segment → Bool
  | .transform name argument _ =>
    ev.options.transformers && aborts name cur.raw (argument.getD [])
  | .collect each => cur.isArray && cur.array.any fun e => resolveAborts e each
  | .query condition all each =>
    opensArray cur.raw &&
      if all then
        cur.elementViews.any fun e =>
          holdsAborts e condition || ev.holds e condition && resolveAborts e each
      else
        abortsUntil (fun e => holdsAborts e condition) (fun e => ev.holds e condition)
          cur.elementViews
  | .select _ entries => entriesAbort cur entries
  | .descend pattern each =>
    (cur.descendants ev.options.maxDepth pattern).any fun e => resolveAborts e each
  | .lines each => cur.streamViews.any fun e => resolveAborts e each
  | .field _ | .index _ | .wildcard _ | .length | .literal _ => false

/-- Whether trying a condition on an element aborts. -/
def holdsAborts (element : Selection) : Condition → Bool
  | .holds field | .compare field _ _ => resolveAborts element field
  | .both left right =>
    holdsAborts element left || ev.holds element left && holdsAborts element right
  | .either left right =>
    holdsAborts element left || !ev.holds element left && holdsAborts element right

/-- Whether following the paths of a selector aborts. -/
def entriesAbort (cur : Selection) : List (Text × Path) → Bool
  | [] => false
  | (_, path) :: rest => resolveAborts cur path || entriesAbort cur rest
end

/--
Whether following a path from a document aborts. All results of a path are found in the same way as
the one result, and with the same calls.
-/
def evalAborts (json : Text) (path : Path) : Bool :=
  match path with
  | .lines each :: rest =>
    ev.stepAborts aborts (wholeText json) (.lines each) ||
      ev.resolveAborts aborts (ev.step (wholeText json) (.lines each)) rest
  | _ => ev.resolveAborts aborts (document json) path

/-- A path that does not start with lines is followed from the first value of the document. -/
theorem evalAborts_of_ne_lines (json : Text) {path : Path}
    (h : ∀ each, path.head? ≠ some (.lines each)) :
    ev.evalAborts aborts json path = ev.resolveAborts aborts (document json) path := by
  unfold evalAborts
  split
  · next each rest => exact absurd rfl (h each)
  · rfl

/-- The result of a path on a document, unless following it aborts. -/
def evalWithin (json : Text) (path : Path) : Option Selection :=
  if ev.evalAborts aborts json path then none else some (ev.eval json path)

/-- Whether following a path, given as text, from a document aborts. -/
def getAborts (json path : Text) : Bool :=
  match Path.compile path with
  | .ok path => ev.evalAborts aborts json path
  | .error _ => false

/-- Whether following a path, given as text, from a selection aborts. -/
def getFromAborts (cur : Selection) (path : Text) : Bool :=
  match Path.compile path with
  | .ok path => ev.resolveAborts aborts cur path
  | .error _ => false

/--
Whether a path of a batch aborts: one that starts with a plain key is only followed if there is a
member with the key, and from there.
-/
def batchAborts (json : Text) : Except PathError Path → Bool
  | .ok (.field name :: rest) =>
    let value := (document json).field name
    value.isPresent && ev.resolveAborts aborts value rest
  | .ok path => ev.evalAborts aborts json path
  | .error _ => false

/-- Whether following several paths from one document aborts. -/
def getManyAborts (json : Text) (paths : List Text) : Bool :=
  paths.any fun path => ev.batchAborts aborts json (Path.compile path)

end Evaluator

end DotPath
