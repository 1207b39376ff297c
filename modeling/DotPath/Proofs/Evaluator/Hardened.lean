import DotPath.Environment
import DotPath.Proofs.Evaluator.Batch
import DotPath.Proofs.Evaluator.Gathered
import DotPath.Proofs.Evaluator.WellFormed

/-!
# Evaluation without transformers

With transformers switched off an evaluator takes what is written as a transformer for the name of a
member. It does so at every level of a path: inside selectors, in the fields of queries, and in the
paths that are followed from elements, descendants and lines.

The reading is made explicit as a translation of paths, `Path.keyed`, that leaves no transformer
anywhere. What an evaluator without transformers gives for a path, any evaluator of the same depth
gives for the translated one, whichever transformers it knows and whether it applies them or not.
So the transformers of a registry have no part in the results: own ones cannot be reached from a
path, and hiding a built-in one changes nothing.

## Main results

* `Path.keyed_no_transform`: the translation of a path has no transformer at any level.
* `Evaluator.resolve_keyed`: evaluation without transformers is evaluation of the translation.
* `Evaluator.hardened_independent`: the results over any two registries are the same.
-/

namespace DotPath

open Json

/-! ## Transformers as keys -/

mutual

/-- A path with the name of a member in place of every transformer, at every level. -/
def Path.keyed : List Segment → List Segment
  | [] => []
  | s :: rest => s.keyed :: Path.keyed rest

/-- A segment with the name of a member in place of every transformer. -/
def Segment.keyed : Segment → Segment
  | .field name => .field name
  | .index n => .index n
  | .wildcard pattern => .wildcard pattern
  | .length => .length
  | .collect each => .collect (Path.keyed each)
  | .query condition all each => .query condition.keyed all (Path.keyed each)
  | .select asArray entries => .select asArray (Path.keyedEntries entries)
  | .literal json => .literal json
  | .transform _ _ source => .field source
  | .descend pattern each => .descend pattern (Path.keyed each)
  | .lines each => .lines (Path.keyed each)

/-- A condition with the name of a member in place of every transformer. -/
def Condition.keyed : Condition → Condition
  | .holds field => .holds (Path.keyed field)
  | .compare field operator operand => .compare (Path.keyed field) operator operand
  | .both left right => .both left.keyed right.keyed
  | .either left right => .either left.keyed right.keyed

/-- The paths of a selector with the name of a member in place of every transformer. -/
def Path.keyedEntries : List (Text × List Segment) → List (Text × List Segment)
  | [] => []
  | (key, path) :: rest => (key, Path.keyed path) :: Path.keyedEntries rest

end

/-- Whether a segment is a transformer. -/
def Segment.isTransform : Segment → Bool
  | .transform .. => true
  | _ => false

theorem Path.keyed_eq_map (path : Path) : Path.keyed path = path.map Segment.keyed := by
  induction path with
  | nil => rw [Path.keyed, List.map_nil]
  | cons s rest ih => rw [Path.keyed, ih, List.map_cons]

@[simp] theorem Segment.isLiteral_keyed (s : Segment) : s.keyed.isLiteral = s.isLiteral := by
  cases s <;> rw [Segment.keyed] <;> rfl

@[simp] theorem Segment.gathers_keyed (s : Segment) : s.keyed.gathers = s.gathers := by
  cases s <;> rw [Segment.keyed] <;> rfl

/-- A translation takes its values from a stream only if the segment does. -/
theorem Segment.exists_eq_lines {s : Segment} {each : Path} (h : s.keyed = .lines each) :
    ∃ each', s = .lines each' := by
  cases s with
  | lines each' => exact ⟨each', rfl⟩
  | _ => rw [Segment.keyed] at h; cases h

mutual

/-- No transformer is left at any level of a path. -/
theorem Path.keyed_no_transform :
    ∀ (path : Path), ∀ s ∈ Path.allSegments (Path.keyed path), s.isTransform = false
  | [] => by
      rw [Path.keyed, Path.allSegments]
      nofun
  | s :: rest => by
      rw [Path.keyed, Path.allSegments]
      refine List.forall_mem_cons.2 ⟨?_, List.forall_mem_append.2 ⟨?_, ?_⟩⟩
      · cases s <;> rw [Segment.keyed] <;> rfl
      · exact Segment.keyed_no_transform s
      · exact Path.keyed_no_transform rest

/-- None is left inside a segment. -/
theorem Segment.keyed_no_transform :
    ∀ (s : Segment), ∀ r ∈ s.keyed.inside, r.isTransform = false
  | .field name | .index n | .wildcard pattern | .length | .literal json
  | .transform name argument source => by
      rw [Segment.keyed, Segment.inside]
      nofun
  | .collect each | .descend pattern each | .lines each => by
      rw [Segment.keyed, Segment.inside]
      exact Path.keyed_no_transform each
  | .query condition all each => by
      rw [Segment.keyed, Segment.inside]
      exact List.forall_mem_append.2
        ⟨Condition.keyed_no_transform condition, Path.keyed_no_transform each⟩
  | .select asArray entries => by
      rw [Segment.keyed, Segment.inside]
      exact Path.keyedEntries_no_transform entries

/-- None is left in the paths of a condition. -/
theorem Condition.keyed_no_transform :
    ∀ (c : Condition), ∀ r ∈ c.keyed.inside, r.isTransform = false
  | .holds field | .compare field operator operand => by
      rw [Condition.keyed, Condition.inside]
      exact Path.keyed_no_transform field
  | .both left right | .either left right => by
      rw [Condition.keyed, Condition.inside]
      exact List.forall_mem_append.2
        ⟨Condition.keyed_no_transform left, Condition.keyed_no_transform right⟩

/-- None is left in the paths of a selector. -/
theorem Path.keyedEntries_no_transform :
    ∀ (entries : List (Text × Path)),
      ∀ r ∈ Path.insideEntries (Path.keyedEntries entries), r.isTransform = false
  | [] => by
      rw [Path.keyedEntries, Path.insideEntries]
      nofun
  | (key, path) :: rest => by
      rw [Path.keyedEntries, Path.insideEntries]
      exact List.forall_mem_append.2
        ⟨Path.keyed_no_transform path, Path.keyedEntries_no_transform rest⟩

end

namespace Evaluator

open Selection

/-! ## Following the translation -/

section Translation

variable {ev ev' : Evaluator}

/-- Without transformers, one is followed as the member that is named as it is written. -/
theorem step_transform_of_off (hoff : ev.options.transformers = false) (cur : Selection)
    (name : Text) (argument : Option Text) (source : Text) :
    ev.step cur (.transform name argument source) = ev.step cur (.field source) := by
  rw [step, step, applyTransformer, hoff]
  rfl

mutual

/-- Any evaluator of the same depth follows the translation of a path as the path is followed. -/
theorem resolve_keyed (hoff : ev.options.transformers = false)
    (hdepth : ev'.options.maxDepth = ev.options.maxDepth) :
    ∀ (path : Path) (cur : Selection), ev'.resolve cur (Path.keyed path) = ev.resolve cur path
  | [], cur => by
      rw [Path.keyed, resolve, resolve]
  | s :: rest, cur => by
      rw [Path.keyed, resolve, resolve, Segment.isLiteral_keyed, step_keyed hoff hdepth s cur,
        resolve_keyed hoff hdepth rest]

/-- So it follows the translation of a segment. -/
theorem step_keyed (hoff : ev.options.transformers = false)
    (hdepth : ev'.options.maxDepth = ev.options.maxDepth) :
    ∀ (s : Segment) (cur : Selection), ev'.step cur s.keyed = ev.step cur s
  | .field name, cur => by rw [Segment.keyed, step, step]
  | .index n, cur => by rw [Segment.keyed, step, step]
  | .wildcard pattern, cur => by rw [Segment.keyed, step, step]
  | .length, cur => by rw [Segment.keyed, step, step]
  | .literal json, cur => by rw [Segment.keyed, step, step]
  | .transform name argument source, cur => by
      rw [Segment.keyed, step_transform_of_off hoff, step, step]
  | .collect each, cur => by
      rw [Segment.keyed, step, step, funext (resolve_keyed hoff hdepth each)]
  | .query condition all each, cur => by
      rw [Segment.keyed, step, step, funext (resolve_keyed hoff hdepth each),
        funext (holds_keyed hoff hdepth condition)]
  | .select asArray entries, cur => by
      rw [Segment.keyed, step, step, resolveEntries_keyed hoff hdepth entries cur]
  | .descend pattern each, cur => by
      rw [Segment.keyed, step, step, hdepth, funext (resolve_keyed hoff hdepth each)]
  | .lines each, cur => by
      rw [Segment.keyed, step, step, funext (resolve_keyed hoff hdepth each)]

/-- The translation of a condition holds of the same elements. -/
theorem holds_keyed (hoff : ev.options.transformers = false)
    (hdepth : ev'.options.maxDepth = ev.options.maxDepth) :
    ∀ (c : Condition) (element : Selection), ev'.holds element c.keyed = ev.holds element c
  | .holds field, element => by
      rw [Condition.keyed, holds, holds, resolve_keyed hoff hdepth field]
  | .compare field operator operand, element => by
      rw [Condition.keyed, holds, holds, resolve_keyed hoff hdepth field]
  | .both left right, element => by
      rw [Condition.keyed, holds, holds, holds_keyed hoff hdepth left,
        holds_keyed hoff hdepth right]
  | .either left right, element => by
      rw [Condition.keyed, holds, holds, holds_keyed hoff hdepth left,
        holds_keyed hoff hdepth right]

/-- The translations of the paths of a selector lead to the same, each under its key. -/
theorem resolveEntries_keyed (hoff : ev.options.transformers = false)
    (hdepth : ev'.options.maxDepth = ev.options.maxDepth) :
    ∀ (entries : List (Text × Path)) (cur : Selection),
      ev'.resolveEntries cur (Path.keyedEntries entries) = ev.resolveEntries cur entries
  | [], cur => by
      rw [Path.keyedEntries, resolveEntries, resolveEntries]
  | (key, path) :: rest, cur => by
      rw [Path.keyedEntries, resolveEntries, resolveEntries, resolve_keyed hoff hdepth path,
        resolveEntries_keyed hoff hdepth rest]

end

/-! ## Documents -/

variable (hoff : ev.options.transformers = false)
  (hdepth : ev'.options.maxDepth = ev.options.maxDepth)

include hoff hdepth

theorem eval_keyed (json : Text) (path : Path) :
    ev'.eval json (Path.keyed path) = ev.eval json path := by
  by_cases hlines : ∃ each, path.head? = some (.lines each)
  · obtain ⟨each, hhead⟩ := hlines
    obtain ⟨rest, rfl⟩ := List.head?_eq_some_iff.1 hhead
    have hstep := step_keyed hoff hdepth (.lines each) (wholeText json)
    rw [Segment.keyed] at hstep
    rw [Path.keyed, Segment.keyed, eval, eval, hstep, resolve_keyed hoff hdepth]
  · have hkeyed : ∀ each, (Path.keyed path).head? ≠ some (.lines each) := by
      intro each hhead
      rw [Path.keyed_eq_map, List.head?_map, Option.map_eq_some_iff] at hhead
      obtain ⟨s, hs, heq⟩ := hhead
      obtain ⟨each', rfl⟩ := Segment.exists_eq_lines heq
      exact hlines ⟨each', hs⟩
    rw [ev'.eval_of_ne_lines json hkeyed, resolve_keyed hoff hdepth]
    exact (ev.eval_of_ne_lines json fun each hhead => hlines ⟨each, hhead⟩).symm

theorem items_keyed (cur : Selection) (s : Segment) :
    ev'.items cur s.keyed = ev.items cur s := by
  cases s with
  | collect each =>
      rw [Segment.keyed, items, items, funext (resolve_keyed hoff hdepth each)]
  | query condition all each =>
      cases all with
      | false => rfl
      | true =>
          rw [Segment.keyed, items, items, funext (resolve_keyed hoff hdepth each),
            funext (holds_keyed hoff hdepth condition)]
  | descend pattern each =>
      rw [Segment.keyed, items, items, hdepth, funext (resolve_keyed hoff hdepth each)]
  | lines each =>
      rw [Segment.keyed, items, items, funext (resolve_keyed hoff hdepth each)]
  | _ => rfl

theorem evalAll_keyed (json : Text) (path : Path) :
    ev'.evalAll json (Path.keyed path) = ev.evalAll json path := by
  by_cases hgathers : path.getLast?.any Segment.gathers = false
  · have hkeyed : (Path.keyed path).getLast?.any Segment.gathers = false := by
      rw [Path.keyed_eq_map, List.getLast?_map, Option.any_map]
      simpa [Function.comp_def] using hgathers
    rw [evalAll_of_not_gathers ev' json hkeyed, evalAll_of_not_gathers ev json hgathers,
      eval_keyed hoff hdepth]
  · obtain ⟨last, hmem, hlast⟩ := (Option.any_eq_true _ _).1 (Bool.not_eq_false _ ▸ hgathers)
    obtain ⟨init, rfl⟩ := List.getLast?_eq_some_iff.1 hmem
    have hsplit : Path.keyed (init ++ [last]) = Path.keyed init ++ [last.keyed] := by
      rw [Path.keyed_eq_map, Path.keyed_eq_map, List.map_append, List.map_singleton]
    by_cases hlines : ∃ each, init = [] ∧ last = .lines each
    · obtain ⟨each, rfl, rfl⟩ := hlines
      exact items_keyed hoff hdepth (wholeText json) (.lines each)
    · have hkeyed : ∀ each, Path.keyed init = [] → last.keyed ≠ .lines each := by
        intro each hnil heq
        rw [Path.keyed_eq_map, List.map_eq_nil_iff] at hnil
        obtain ⟨each', rfl⟩ := Segment.exists_eq_lines heq
        exact hlines ⟨each', hnil, rfl⟩
      rw [hsplit, evalAll_concat ev' json (last.gathers_keyed.trans hlast) hkeyed,
        evalAll_concat ev json hlast fun each hinit heq => hlines ⟨each, hinit, heq⟩,
        eval_keyed hoff hdepth, items_keyed hoff hdepth]

end Translation

/-! ## Registries -/

section Registries

variable {ev ev' : Evaluator} (hoff : ev.options.transformers = false)
  (hoff' : ev'.options.transformers = false)
  (hdepth : ev'.options.maxDepth = ev.options.maxDepth)

include hoff hoff' hdepth

/-- Two evaluators without transformers follow a path in the same way. -/
theorem eval_eq_of_off (json : Text) (path : Path) : ev.eval json path = ev'.eval json path := by
  rw [← eval_keyed hoff hdepth, eval_keyed hoff' rfl]

theorem get_eq_of_off (json path : Text) : ev.get json path = ev'.get json path := by
  unfold get
  split
  · exact eval_eq_of_off hoff hoff' hdepth json _
  · rfl

theorem getAll_eq_of_off (json path : Text) : ev.getAll json path = ev'.getAll json path := by
  unfold getAll
  split
  · rw [← evalAll_keyed hoff hdepth, evalAll_keyed hoff' rfl]
  · rfl

theorem getMany_eq_of_off (json : Text) (paths : List Text) :
    ev.getMany json paths = ev'.getMany json paths := by
  rw [getMany_eq_map, getMany_eq_map, funext (get_eq_of_off hoff hoff' hdepth json)]

end Registries

end Evaluator

/-- The evaluator over a registry that takes transformers for the names of members. -/
def Environment.hardened (env : Environment) (registry : Registry) (depth : Nat) : Evaluator :=
  env.evaluator registry ⟨false, depth⟩

namespace Evaluator

/--
Without transformers the results do not depend on the registry: not on the own transformers in it,
nor on the built-in ones that these hide, nor on the registry that transformers would share.

No transformer is applied at any level of a path. With the names of members in their place there is
none left in a path, and every evaluator of the same depth, one that applies transformers included,
follows that path to the results of the given one. In particular a transformer leads, from any
selection, to where the member leads that is named as the transformer is written.
-/
theorem hardened_independent (env env' : Environment) (registry registry' : Registry)
    (depth : Nat) :
    ((∀ json path, (env.hardened registry depth).get? json path =
        (env'.hardened registry' depth).get? json path) ∧
      (∀ json path, (env.hardened registry depth).getAll json path =
        (env'.hardened registry' depth).getAll json path) ∧
      ∀ json paths, (env.hardened registry depth).getMany json paths =
        (env'.hardened registry' depth).getMany json paths) ∧
      (∀ path : Path, (∀ s ∈ Path.allSegments (Path.keyed path), s.isTransform = false) ∧
        ∀ (on : Bool) (transformer? : Text → Option (Text → Text → Text)) (json : Text),
          (env.hardened registry depth).eval json path =
              Evaluator.eval ⟨⟨on, depth⟩, transformer?⟩ json (Path.keyed path) ∧
            (env.hardened registry depth).evalAll json path =
              Evaluator.evalAll ⟨⟨on, depth⟩, transformer?⟩ json (Path.keyed path)) ∧
      ∀ cur name argument source,
        (env.hardened registry depth).step cur (.transform name argument source) =
          (env.hardened registry depth).step cur (.field source) := by
  have hoff : (env.hardened registry depth).options.transformers = false := rfl
  have hoff' : (env'.hardened registry' depth).options.transformers = false := rfl
  have hdepth : (env'.hardened registry' depth).options.maxDepth =
      (env.hardened registry depth).options.maxDepth := rfl
  refine ⟨⟨fun json path => ?_, ?_, ?_⟩, fun path => ⟨Path.keyed_no_transform path, ?_⟩, ?_⟩
  · rw [get?, get?, funext (eval_eq_of_off hoff hoff' hdepth json)]
  · exact getAll_eq_of_off hoff hoff' hdepth
  · exact getMany_eq_of_off hoff hoff' hdepth
  · intro on transformer? json
    have hother : (Evaluator.mk ⟨on, depth⟩ transformer?).options.maxDepth =
        (env.hardened registry depth).options.maxDepth := rfl
    exact ⟨(eval_keyed hoff hother json path).symm, (evalAll_keyed hoff hother json path).symm⟩
  · exact step_transform_of_off hoff

/-- A member that is named like a transformer is what is selected, and it is not reversed. -/
example :
    (Environment.initial.hardened .empty 256).get "\x7b\"@reverse\":[2,1]\x7d".toList
      "@reverse".toList = ⟨.container, "[2,1]".toList, true, some 12, []⟩ := by
  decide +kernel

end Evaluator

end DotPath
