import DotPath.Evaluator.Basic
import DotPath.Path.Escape

/-!
# Searching documents

Finds values by their content or by the names of their members, and lists the paths that lead to
values. Each search is one walk through the document, as deep as the evaluator goes, and its results
are in the order of the document.
-/

namespace DotPath

open Json

/-! ## Trails as paths -/

/-- A step as a component of a path. -/
def Json.Step.component : Step → Text
  | .key name => escapeComponent name
  | .index n => Text.ofNat n

/-- A trail as a path. -/
def Json.Trail.path (trail : Trail) : Text :=
  List.intercalate ['.'] (trail.map Step.component)

/-- Whether a path can lead along a trail: it has steps, and none of them is to an empty name. -/
def Json.Trail.isAddressable (trail : Trail) : Bool :=
  !trail.isEmpty && trail.all (· != .key [])

/-- The name of the member that a trail ends at, if it ends at a member. -/
def Json.Trail.lastName? (trail : Trail) : Option Text :=
  match trail.getLast? with
  | some (.key name) => some name
  | _ => none

namespace Evaluator

/-- Whether a selection is no container. -/
def isLeaf (s : Selection) : Bool :=
  s.kind != .container

/-- The values of a document that a search accepts, with the trails that lead to them. -/
def scan (ev : Evaluator) (json : Text) (accepts : Trail → Selection → Bool) :
    List (Trail × Selection) :=
  (walk ev.options.maxDepth json).filterMap fun v =>
    let s := Selection.ofOccurrence (some 0) v.value
    if accepts v.trail s then some (v.trail, s) else none

/-- The leaves whose text contains a text. An empty text is not searched for. -/
def search (ev : Evaluator) (json needle : Text) : List Selection :=
  if needle.isEmpty then []
  else (ev.scan json fun _ s => isLeaf s && Text.occursIn needle s.text).map (·.2)

/-- The leaves whose text matches a glob pattern. -/
def searchLike (ev : Evaluator) (json pattern : Text) : List Selection :=
  (ev.scan json fun _ s => isLeaf s && Glob.isMatch pattern s.text).map (·.2)

/-- The members with a name. -/
def searchNames (ev : Evaluator) (json name : Text) : List Selection :=
  (ev.scan json fun trail _ => trail.lastName? == some name).map (·.2)

/-- The members whose name matches a glob pattern. -/
def searchNamesLike (ev : Evaluator) (json pattern : Text) : List Selection :=
  (ev.scan json fun trail _ => trail.lastName?.any (Glob.isMatch pattern ·)).map (·.2)

/-- The paths to the leaves with a text. -/
def pathsTo (ev : Evaluator) (json value : Text) : List Text :=
  (ev.scan json fun trail s => trail.isAddressable && isLeaf s && s.text == value).map (·.1.path)

/-- The paths to all leaves. -/
def leafPaths (ev : Evaluator) (json : Text) : List Text :=
  (ev.scan json fun trail s => trail.isAddressable && isLeaf s).map (·.1.path)

/-- The members at any depth whose name matches a glob pattern, as one array. -/
def descendAll (ev : Evaluator) (json pattern : Text) : Selection :=
  ev.step (wholeText json) (.descend pattern [])

end Evaluator

end DotPath
