import DotPath.Proofs.Indexed.Accessors

/-!
# Following a path by index

The evaluator once more, with every scan and every cut by index. Transformers are off: a segment that
names one looks for a member.

Each segment looks at the text of the current selection only, so what it reads is a text of its own
with its own indices, even inside another text. Nothing has to be known about the current selection
for that, except where a condition looks into a string or between brackets; what a path leads to is
delimited, and so is each element that it starts from.

## Main results

* `step_eq`, `resolve_eq`: a segment and a path are followed from every selection that is delimited.
* `holds_eq`: a condition is decided of every such selection.
-/

namespace DotPath.Indexed

open Json Selection

/-! ## Segments and paths -/

/-- A new array or object from named selections, those left out that select nothing. -/
def assemble (asArray : Bool) (entries : List (Text × Selection)) : Part Selection :=
  let kept := entries.filter (·.2.isPresent)
  ofText <|
    if asArray then composeArray (kept.map (·.2.raw))
    else composeObject (kept.map fun entry => (entry.1, entry.2.raw))

/-- A selection made from the text of another one. -/
def derived (cur : Selection) (result : Part Selection) : Part Selection :=
  cur.derivedFrom <$> result

mutual

/-- Follows a path from a selection. -/
def resolve (depth : Nat) (cur : Selection) : Path → Part Selection
  | [] => pure cur
  | s :: rest =>
    if !cur.isPresent && !s.isLiteral then pure missing
    else do resolve depth (← step depth cur s) rest

/-- Follows one segment from a selection. -/
def step (depth : Nat) (cur : Selection) : Segment → Part Selection
  | .field name => derived cur (field cur name)
  | .index n => derived cur (item cur n)
  | .wildcard pattern => derived cur (firstLike cur pattern)
  | .length => count cur
  | .collect each => do
    if cur.isArray then
      return gather (present (← (← array cur).mapM fun e => resolve depth e each))
    else return missing
  | .query condition all each => do
    if cur.raw.asOctets[0]? == some '[' then
      let views ← elementViews cur
      if all then
        let found ← views.filterM fun e => holds depth e condition
        return gather (present (← found.mapM fun e => resolve depth e each))
      else
        return cur.derivedFrom ((← views.findM? fun e => holds depth e condition).getD missing)
    else return missing
  | .select asArray entries => do assemble asArray (← resolveEntries depth cur entries)
  | .literal json => ofText json
  | .transform _ _ source => derived cur (field cur source)
  | .descend pattern each => do
    let found ← descendants cur depth pattern
    return gather (present (← found.mapM fun e => resolve depth e each))
  | .lines each => do
    let found ← streamViews cur
    return gather (present (← found.mapM fun e => resolve depth e each))

/-- Whether a condition holds of an element. -/
def holds (depth : Nat) (element : Selection) : Condition → Part Bool
  | .holds field => do return (← resolve depth element field).isPresent
  | .compare field operator operand => do meets (← resolve depth element field) operator operand
  | .both left right => do
    if ← holds depth element left then holds depth element right else return false
  | .either left right => do
    if ← holds depth element left then return true else holds depth element right

/-- Follows the paths of a selector, each from the same selection. -/
def resolveEntries (depth : Nat) (cur : Selection) :
    List (Text × Path) → Part (List (Text × Selection))
  | [] => pure []
  | (key, path) :: rest => do
    let result ← resolve depth cur path
    return (key, result) :: (← resolveEntries depth cur rest)

end

/-! ## What a path leads to -/

section Follow

variable (ev : Evaluator)

theorem assemble_eq (asArray : Bool) (entries : List (Text × Selection)) :
    assemble asArray entries = .some (Selection.assemble asArray entries) :=
  ofText_eq _

theorem derived_eq (cur : Selection) {result : Part Selection} {r : Selection}
    (h : result = .some r) : derived cur result = .some (cur.derivedFrom r) := by
  rw [derived, h]
  exact Part.map_some _ _

theorem delimited_of_mem_elementViews {s e : Selection} (h : e ∈ s.elementViews) :
    Delimited e.kind e.raw :=
  (isRightFor_delimited.parts s).of_mem_elementViews h

/-- The first element that passes a test is the head of all those that do. -/
theorem getD_find? {l : List Selection} (test : Selection → Bool) :
    (l.find? test).getD missing = (l.filter test).headD missing := by
  rw [List.headD_eq_head?_getD, List.head?_filter]

mutual

/-- A path is followed to its end. -/
theorem resolve_eq (hoff : ev.options.transformers = false) :
    ∀ (path : Path) {cur : Selection}, Delimited cur.kind cur.raw →
      resolve ev.options.maxDepth cur path = .some (ev.resolve cur path)
  | [], _, _ => rfl
  | s :: rest, cur, h => by
      rw [resolve, Evaluator.resolve]
      split
      · rfl
      · rw [step_eq hoff s h, some_bind]
        exact resolve_eq hoff rest (isRightFor_delimited.step ev h s)

theorem step_eq (hoff : ev.options.transformers = false) :
    ∀ (s : Segment) {cur : Selection}, Delimited cur.kind cur.raw →
      step ev.options.maxDepth cur s = .some (ev.step cur s)
  | .field name, cur, _ => by
      rw [step, Evaluator.step]
      exact derived_eq cur (field_eq cur name)
  | .index n, cur, _ => by
      rw [step, Evaluator.step]
      exact derived_eq cur (item_eq cur n)
  | .wildcard pattern, cur, _ => by
      rw [step, Evaluator.step]
      exact derived_eq cur (firstLike_eq cur pattern)
  | .length, cur, _ => by
      rw [step, Evaluator.step]
      exact count_eq cur
  | .collect each, cur, h => by
      have hresults := mapM_self fun e he =>
        resolve_eq hoff each (isRightFor_delimited.of_mem_array h he)
      rw [step, Evaluator.step, array_eq, some_bind, hresults, some_bind]
      exact (apply_ite Part.some _ _ _).symm
  | .query condition all each, cur, _ => by
      have hholds := fun e (he : e ∈ cur.elementViews) =>
        holds_eq hoff condition (delimited_of_mem_elementViews he)
      have hresults := mapM_self (l := cur.elementViews.filter fun e => ev.holds e condition)
        fun e he => resolve_eq hoff each (delimited_of_mem_elementViews (List.mem_filter.1 he).1)
      rw [step, Evaluator.step, octets_opensArray, elementViews_eq, some_bind, filterM_self hholds,
        findM?_self hholds, some_bind, some_bind, hresults, some_bind, getD_find?]
      cases opensArray cur.raw <;> cases all <;> rfl
  | .select asArray entries, cur, h => by
      rw [step, Evaluator.step, resolveEntries_eq hoff entries h, some_bind]
      exact assemble_eq asArray _
  | .literal json, _, _ => by
      rw [step, Evaluator.step]
      exact ofText_eq json
  | .transform name argument source, cur, _ => by
      rw [step, Evaluator.step, Evaluator.applyTransformer, hoff]
      exact derived_eq cur (field_eq cur source)
  | .descend pattern each, cur, _ => by
      have hresults := mapM_self (l := cur.descendants ev.options.maxDepth pattern) fun e he =>
        resolve_eq hoff each ((isRightFor_delimited.parts cur).of_mem_descendants he)
      rw [step, Evaluator.step, descendants_eq, some_bind, hresults]
      exact some_bind _ _
  | .lines each, cur, _ => by
      have hresults := mapM_self fun e he =>
        resolve_eq hoff each ((isRightFor_delimited.parts cur).of_mem_streamViews he)
      rw [step, Evaluator.step, streamViews_eq, some_bind, hresults]
      exact some_bind _ _

/-- A condition is decided. -/
theorem holds_eq (hoff : ev.options.transformers = false) :
    ∀ (condition : Condition) {e : Selection}, Delimited e.kind e.raw →
      holds ev.options.maxDepth e condition = .some (ev.holds e condition)
  | .holds field, e, h => by
      rw [holds, Evaluator.holds, resolve_eq hoff field h]
      exact some_bind _ _
  | .compare field operator operand, e, h => by
      rw [holds, Evaluator.holds, resolve_eq hoff field h, some_bind]
      exact meets_eq (isRightFor_delimited.resolve ev h) operator operand
  | .both left right, e, h => by
      rw [holds, Evaluator.holds, holds_eq hoff left h, some_bind, holds_eq hoff right h]
      cases ev.holds e left <;> rfl
  | .either left right, e, h => by
      rw [holds, Evaluator.holds, holds_eq hoff left h, some_bind, holds_eq hoff right h]
      cases ev.holds e left <;> rfl

theorem resolveEntries_eq (hoff : ev.options.transformers = false) :
    ∀ (entries : List (Text × Path)) {cur : Selection}, Delimited cur.kind cur.raw →
      resolveEntries ev.options.maxDepth cur entries = .some (ev.resolveEntries cur entries)
  | [], _, _ => rfl
  | (key, path) :: rest, cur, h => by
      rw [resolveEntries, Evaluator.resolveEntries, resolve_eq hoff path h, some_bind,
        resolveEntries_eq hoff rest h]
      exact some_bind _ _

end

end Follow

end DotPath.Indexed
