import DotPath.Json.Compose
import DotPath.Json.Stream
import DotPath.Json.Walk
import DotPath.Path.Compile
import DotPath.Selection.Compare

/-!
# Following a path

An evaluator follows a compiled path from a selection. Each segment narrows the current selection by
scanning its text, or makes a new text from it; nothing is decoded into a tree. Once nothing is
selected, only a literal can select again.

The recursion is on the path. Transformers are functions from texts to texts that the evaluator is
given.
-/

namespace DotPath

open Json

/-- What an evaluation is allowed. -/
structure Options where
  /-- Whether transformers are applied. If not, they name members. -/
  transformers : Bool
  /-- How deep walks through a document go. -/
  maxDepth : Nat
  deriving DecidableEq, Repr

/-- What an evaluation depends on besides the document and the path. -/
structure Evaluator where
  options : Options
  /-- The transformer with a name: from a text and an argument to a text. -/
  transformer? : Text → Option (Text → Text → Text)

namespace Selection

/-- The member with a name, as a view. -/
def field (s : Selection) (name : Text) : Selection :=
  match (Json.members s.raw).find? fun m => Quoted.text m.key.raw == name with
  | some m => ofOccurrence s.base m.value
  | none => missing

/-- The elements of an array, as views. -/
def elementViews (s : Selection) : List Selection :=
  (elements s.raw).map (ofOccurrence s.base)

/-- The element at a position, as a view; in an object the member named by the position. -/
def item (s : Selection) (n : Nat) : Selection :=
  if opensArray s.raw then s.elementViews.getD n missing
  else s.field (Text.ofNat n)

/-- The first member whose name, or element whose text, matches a pattern, as a view. -/
def firstLike (s : Selection) (pattern : Text) : Selection :=
  if opensObject s.raw then
    match (Json.members s.raw).find? fun m => Glob.isMatch pattern (Quoted.text m.key.raw) with
    | some m => ofOccurrence s.base m.value
    | none => missing
  else (s.elementViews.find? fun e => Glob.isMatch pattern e.text).getD missing

/-- The number of elements or members; nothing for a value that has neither. -/
def count (s : Selection) : Selection :=
  if opensArray s.raw then ofNat (elements s.raw).length
  else if opensObject s.raw then ofNat (Json.members s.raw).length
  else missing

/-- The members at any depth whose name matches a pattern, as views. -/
def descendants (s : Selection) (depth : Nat) (pattern : Text) : List Selection :=
  (walk depth s.raw).filterMap fun visit =>
    match visit.trail.getLast? with
    | some (.key name) =>
      if Glob.isMatch pattern name then some (ofOccurrence s.base visit.value) else none
    | _ => none

/-- The values that follow one another in the text, as views. -/
def streamViews (s : Selection) : List Selection :=
  (stream s.raw).map (ofOccurrence s.base)

/-- Several selections as one array, with the offsets of those that have one. -/
def gather (found : List Selection) : Selection :=
  ⟨.container, composeArray (found.map (·.raw)), false, none, found.filterMap (·.index)⟩

/-- The selections that select something. -/
def present (found : List Selection) : List Selection :=
  found.filter isPresent

/-- A new array or object from named selections, those left out that select nothing. -/
def assemble (asArray : Bool) (entries : List (Text × Selection)) : Selection :=
  let kept := entries.filter (·.2.isPresent)
  ofText <|
    if asArray then composeArray (kept.map (·.2.raw))
    else composeObject (kept.map fun (key, s) => (key, s.raw))

end Selection

/-- Whether a segment can select where nothing is selected. -/
def Segment.isLiteral : Segment → Bool
  | .literal _ => true
  | _ => false

/-- Whether a segment gathers several results into an array. -/
def Segment.gathers : Segment → Bool
  | .collect _ | .descend _ _ | .lines _ => true
  | .query _ all _ => all
  | _ => false

namespace Evaluator

open Selection

/-- The result of a transformer. An unknown one leaves the text as it is. -/
def applyTransformer (ev : Evaluator) (cur : Selection) (name : Text) (argument : Option Text)
    (source : Text) : Selection :=
  if ev.options.transformers then
    match ev.transformer? name with
    | some transformer => ofText (transformer cur.raw (argument.getD []))
    | none => ⟨cur.kind, cur.raw, true, cur.base, []⟩
  else cur.field source

mutual
/-- Follows a path from a selection. -/
def resolve (ev : Evaluator) (cur : Selection) : Path → Selection
  | [] => cur
  | s :: rest =>
    if !cur.isPresent && !s.isLiteral then missing else resolve ev (step ev cur s) rest

/-- Follows one segment from a selection. -/
def step (ev : Evaluator) (cur : Selection) : Segment → Selection
  | .field name => cur.derivedFrom (cur.field name)
  | .index n => cur.derivedFrom (cur.item n)
  | .wildcard pattern => cur.derivedFrom (cur.firstLike pattern)
  | .length => cur.count
  | .collect each =>
    if cur.isArray then gather (present (cur.array.map fun e => resolve ev e each)) else missing
  | .query condition all each =>
    if !opensArray cur.raw then missing
    else
      let found := cur.elementViews.filter fun e => holds ev e condition
      if all then gather (present (found.map fun e => resolve ev e each))
      else cur.derivedFrom (found.headD missing)
  | .select asArray entries => assemble asArray (resolveEntries ev cur entries)
  | .literal json => ofText json
  | .transform name argument source =>
    cur.derivedFrom (applyTransformer ev cur name argument source)
  | .descend pattern each =>
    gather (present ((cur.descendants ev.options.maxDepth pattern).map fun e => resolve ev e each))
  | .lines each => gather (present (cur.streamViews.map fun e => resolve ev e each))

/-- Whether a condition holds of an element. -/
def holds (ev : Evaluator) (element : Selection) : Condition → Bool
  | .holds field => (resolve ev element field).isPresent
  | .compare field operator operand => (resolve ev element field).meets operator operand
  | .both left right => holds ev element left && holds ev element right
  | .either left right => holds ev element left || holds ev element right

/-- Follows the paths of a selector, each from the same selection. -/
def resolveEntries (ev : Evaluator) (cur : Selection) :
    List (Text × Path) → List (Text × Selection)
  | [] => []
  | (key, path) :: rest => (key, resolve ev cur path) :: resolveEntries ev cur rest
end

/-- Nothing can be selected where nothing is selected, unless a literal comes next. -/
theorem resolve_missing (ev : Evaluator) {path : Path}
    (h : ∀ s ∈ path.head?, s.isLiteral = false) : ev.resolve missing path = missing := by
  cases path with
  | nil => rw [resolve]
  | cons s rest =>
    have hs := h s rfl
    rw [resolve]
    simp [isPresent, missing, hs]

/-! ## From documents -/

/-- The whole text of a stream, as the selection from which its values are taken. -/
def wholeText (json : Text) : Selection :=
  ⟨.null, json, true, some 0, []⟩

/-- Follows a path from a document. A path that starts with lines takes the text as a stream. -/
def eval (ev : Evaluator) (json : Text) (path : Path) : Selection :=
  match path with
  | .lines each :: rest => ev.resolve (ev.step (wholeText json) (.lines each)) rest
  | _ => ev.resolve (document json) path

/-- A path that does not start with lines is followed from the first value of the document. -/
theorem eval_of_ne_lines (ev : Evaluator) (json : Text) {path : Path}
    (h : ∀ each, path.head? ≠ some (.lines each)) :
    ev.eval json path = ev.resolve (document json) path := by
  unfold eval
  split
  · next each rest => exact absurd rfl (h each)
  · rfl

/--
The results that a segment would gather into an array, one by one; none for a segment that does not
gather.
-/
def items (ev : Evaluator) (cur : Selection) : Segment → List Selection
  | .collect each =>
    if cur.isArray then present (cur.array.map fun e => ev.resolve e each) else []
  | .query condition true each =>
    let found := cur.elementViews.filter fun e => ev.holds e condition
    (present (found.map fun e => ev.resolve e each)).map cur.derivedFrom
  | .descend pattern each =>
    let found := cur.descendants ev.options.maxDepth pattern
    (present (found.map fun e => ev.resolve e each)).map cur.derivedFrom
  | .lines each =>
    (present (cur.streamViews.map fun e => ev.resolve e each)).map cur.derivedFrom
  | _ => []

/-- A selection as a list of results. -/
def asResults (s : Selection) : List Selection :=
  if s.isPresent then [s] else []

/--
Every result of a path on a document. A path that ends in a segment that gathers gives its results
one by one; any other path gives its one result, or none.
-/
def evalAll (ev : Evaluator) (json : Text) (path : Path) : List Selection :=
  match path.getLast? with
  | some last =>
    if !last.gathers then asResults (ev.eval json path)
    else
      match path.dropLast, last with
      | [], .lines each => ev.items (wholeText json) (.lines each)
      | init, last =>
        let cur := ev.eval json init
        if cur.isPresent then ev.items cur last else []
  | none => asResults (ev.eval json path)

/-! ## From the texts of paths -/

/-- Follows a path, given as text, from a document. -/
def get? (ev : Evaluator) (json path : Text) : Except PathError Selection :=
  (Path.compile path).map (ev.eval json)

/-- Follows a path, given as text, from a document. A text that is no path selects nothing. -/
def get (ev : Evaluator) (json path : Text) : Selection :=
  match Path.compile path with
  | .ok path => ev.eval json path
  | .error _ => missing

/-- Every result of a path, given as text. A text that is no path has none. -/
def getAll (ev : Evaluator) (json path : Text) : List Selection :=
  match Path.compile path with
  | .ok path => ev.evalAll json path
  | .error _ => []

/-- Follows a path, given as text, from a selection. A text that is no path selects nothing. -/
def getFrom (ev : Evaluator) (cur : Selection) (path : Text) : Selection :=
  match Path.compile path with
  | .ok path => ev.resolve cur path
  | .error _ => missing

/-! ## Batches -/

/-- A path of a batch that starts with a plain key. -/
structure Pending where
  /-- Where the path stands in the batch. -/
  slot : Nat
  name : Text
  /-- What comes after the key. -/
  rest : Path

/-- The paths of a batch that start with a plain key. -/
def pendingPaths (compiled : List (Except PathError Path)) : List Pending :=
  compiled.zipIdx.filterMap fun (path, slot) =>
    match path with
    | .ok (.field name :: rest) => some ⟨slot, name, rest⟩
    | _ => none

/-- The result of a pending path, followed from the value of its member, put in its place. -/
def place (ev : Evaluator) (value : Selection) (results : List Selection) (p : Pending) :
    List Selection :=
  results.set p.slot (ev.resolve value p.rest)

/--
One pass over the members of a document. A member answers every pending path that starts with its
key, and those are no longer pending. The pass ends when none is left; a path that is still pending
then keeps the result it has.
-/
def answer (ev : Evaluator) (results : List Selection) (pending : List Pending) :
    List Member → List Selection
  | [] => results
  | m :: rest =>
    if pending.isEmpty then results
    else
      let (done, left) := pending.partition (·.name == Quoted.text m.key.raw)
      answer ev (done.foldl (ev.place (ofOccurrence (some 0) m.value)) results) left rest

/-- Where the results of a batch start from: those of the paths that are followed one by one. -/
def firstResult (ev : Evaluator) (json : Text) : Except PathError Path → Selection
  | .ok (.field _ :: _) => missing
  | .ok path => ev.eval json path
  | .error _ => missing

/--
Follows several paths from one document. Paths that start with a plain key are answered in one pass
over the members at the top, from the first member with the key; where the key is missing nothing is
selected, whatever comes after it. The other paths are followed one by one.
-/
def getMany (ev : Evaluator) (json : Text) (paths : List Text) : List Selection :=
  let compiled := paths.map Path.compile
  let results := compiled.map (ev.firstResult json)
  let root := (Place.start json).skipSpace
  match root.value? with
  | none => results
  | some _ => ev.answer results (pendingPaths compiled) (membersAt root)

end Evaluator

/-! ## Routes -/

/-- A compiled path together with the evaluator that follows it. -/
structure Route where
  evaluator : Evaluator
  path : Path

/-- Follows a route from a selection. -/
def Route.resolve (r : Route) (cur : Selection) : Selection :=
  r.evaluator.resolve cur r.path

/-- Follows a route from a document. -/
def Route.eval (r : Route) (json : Text) : Selection :=
  r.evaluator.eval json r.path

end DotPath
