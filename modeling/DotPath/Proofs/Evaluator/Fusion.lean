import DotPath.Proofs.Evaluator.Alike
import DotPath.Proofs.Evaluator.Gathered

/-!
# Gathering and following in one step or in two

Queries for all matches, descents and lines gather values into an array, and each of them can carry
a path that is followed from every value before it is put into the array. The same can be said in
two steps: gather the values as they are, then follow the path from the elements of the array.

In one step the path is followed from parts of the document. In two steps it is followed from what
a scan finds in a text that has been put together anew. That the two give the same array rests on
two facts: an array that is composed of values is scanned for exactly these values, even if they are
malformed inside, and what a path selects depends on the text alone.

## Main results

* `Collector`: the segments that gather what they find, without the path that they carry.
* `Evaluator.step_collector`: what such a segment makes of what it finds.
* `Evaluator.gather_then_follow`: one step and two give the same kind and text.
-/

namespace DotPath

open Json

/-- What a segment gathers from, if it gathers the results of a path on the values that it finds. -/
inductive Collector where
  /-- The elements of an array that meet a condition. -/
  | query (condition : Condition)
  /-- The members below, at any depth, whose name matches a glob pattern. -/
  | descend (pattern : Text)
  /-- The values that follow one another in the text. -/
  | lines

namespace Collector

/-- The segment that gathers the results of a path on what is found. -/
def segment (c : Collector) (each : Path) : Segment :=
  match c with
  | .query condition => .query condition true each
  | .descend pattern => .descend pattern each
  | .lines => .lines each

/-- The values that are found from a selection; none at all where there is nothing to search. -/
def found? (ev : Evaluator) (cur : Selection) : Collector → Option (List Selection)
  | .query condition =>
    if opensArray cur.raw then some (cur.elementViews.filter fun e => ev.holds e condition)
    else none
  | .descend pattern => some (cur.descendants ev.options.maxDepth pattern)
  | .lines => some cur.streamViews

theorem gathers_segment (c : Collector) (each : Path) : (c.segment each).gathers = true := by
  cases c <;> rfl

end Collector

namespace Selection

/-- What is found is a value. -/
theorem fills_of_mem_found {ev : Evaluator} {cur : Selection} {c : Collector}
    {found : List Selection} (h : c.found? ev cur = some found) :
    ∀ e ∈ found, Fills e.kind e.raw := by
  intro e he
  cases c with
  | query condition =>
      rw [Collector.found?] at h
      split at h
      · cases h
        obtain ⟨v, hv, rfl⟩ := List.mem_map.1 (List.mem_filter.1 he).1
        exact (isIn_of_mem_elements hv).2
      · cases h
  | descend pattern =>
      cases h
      obtain ⟨visit, hvisit, heq⟩ := List.mem_filterMap.1 he
      split at heq
      · split at heq
        · cases heq
          exact (isIn_of_mem_walk hvisit).2
        · cases heq
      · cases heq
  | lines =>
      cases h
      obtain ⟨v, hv, rfl⟩ := List.mem_map.1 he
      exact (isIn_of_mem_stream hv).2

theorem isPresent_of_isArray {s : Selection} (h : s.isArray = true) : s.isPresent = true := by
  rw [isArray, Bool.and_eq_true] at h
  cases hraw : s.raw with
  | nil =>
      rw [hraw] at h
      cases h.2
  | cons c t =>
      rw [isPresent, hraw]
      rfl

theorem array_of_isArray {s : Selection} (h : s.isArray = true) :
    s.array = s.elementViews.map s.derivedFrom := by
  rw [array, isPresent_of_isArray h, h, elementViews, List.map_map]
  rfl

/-- The elements of an array have the kinds and texts that a scan finds. -/
theorem map_array {s : Selection} (h : s.isArray = true) :
    s.array.map (fun e => (e.kind, e.raw)) = (elements s.raw).map fun v => (v.kind, v.raw) := by
  rw [array_of_isArray h, elementViews, List.map_map, List.map_map]
  refine List.map_congr_left fun v _ => ?_
  have halike := alike_derivedFrom s (ofOccurrence s.base v)
  exact Prod.ext halike.kind halike.raw

/-- Values that have been gathered are found again in their array. -/
theorem array_gather {found : List Selection} (h : ∀ e ∈ found, Fills e.kind e.raw) :
    List.Forall₂ Alike found (gather found).array := by
  have hscan : (gather found).array.map (fun e => (e.kind, e.raw)) =
      found.map fun e => (e.kind, e.raw) :=
    (map_array rfl).trans (elements_composeArray h)
  refine (forall₂_of_map_eq hscan.symm).imp fun e v heq => ?_
  rw [Prod.mk.injEq] at heq
  exact ⟨heq.1, heq.2⟩

end Selection

namespace Evaluator

open Selection

/-! ## One segment -/

/-- A segment that gathers follows its path from every value that it finds. -/
theorem step_collector (ev : Evaluator) (cur : Selection) (c : Collector) (each : Path) :
    ev.step cur (c.segment each) =
      match c.found? ev cur with
      | some found => gather (present (found.map fun e => ev.resolve e each))
      | none => missing := by
  cases c with
  | query condition =>
      rw [Collector.segment, step, Collector.found?]
      cases opensArray cur.raw <;> rfl
  | descend pattern =>
      rw [Collector.segment, step]
      rfl
  | lines =>
      rw [Collector.segment, step]
      rfl

/-- Without a path, the values that are found are gathered as they are. -/
theorem step_collector_nil (ev : Evaluator) {cur : Selection} {c : Collector}
    {found : List Selection} (h : c.found? ev cur = some found) :
    ev.step cur (c.segment []) = gather found := by
  have hsame : found.map (fun e => ev.resolve e []) = found := by
    have hnil : ∀ e ∈ found, ev.resolve e [] = e := fun e _ => by rw [resolve]
    rw [List.map_congr_left hnil, List.map_id']
  have hpresent : present found = found := by
    refine List.filter_eq_self.2 fun e he => ?_
    exact isPresent_of_fills (fills_of_mem_found h e he) _ _ _
  rw [step_collector, h]
  dsimp only
  rw [hsame, hpresent]

/-- Where nothing is selected there are no elements to follow a path from. -/
theorem step_collect_of_absent (ev : Evaluator) {cur : Selection} (h : cur.isPresent = false)
    (each : Path) : ev.step cur (.collect each) = missing := by
  have hraw : cur.raw = [] := by simpa [isPresent] using h
  have harray : cur.isArray = false := by
    rw [isArray, hraw]
    exact Bool.and_false _
  rw [step, harray]
  rfl

/-- A path that is carried along is as good as one that is followed from the elements afterwards. -/
theorem step_collector_alike (ev : Evaluator) (cur : Selection) (c : Collector) (each : Path) :
    (ev.step cur (c.segment each)).Alike
      (ev.step (ev.step cur (c.segment [])) (.collect each)) := by
  cases hfound : c.found? ev cur with
  | none =>
      have hnone : ∀ path, ev.step cur (c.segment path) = missing := by
        intro path
        rw [step_collector, hfound]
      rw [hnone, hnone, ev.step_collect_of_absent rfl]
      exact .refl _
  | some found =>
      have harray : (gather found).isArray = true := by rfl
      have helements := array_gather (fills_of_mem_found hfound)
      rw [ev.step_collector_nil hfound, step_collector, hfound, step, harray]
      exact alike_gather (alike_present helements fun a b hab => ev.resolve_alike each hab)

/-! ## Paths -/

/-- The same at the end of a path. -/
theorem eval_collector_alike (ev : Evaluator) (json : Text) (init : Path) (c : Collector)
    (each : Path) :
    (ev.eval json (init ++ [c.segment each])).Alike
      (ev.eval json (init ++ [c.segment [], .collect each])) := by
  have htwo : ev.eval json (init ++ [c.segment [], .collect each]) =
      if (ev.eval json (init ++ [c.segment []])).isPresent then
        ev.step (ev.eval json (init ++ [c.segment []])) (.collect each)
      else missing := by
    rw [show init ++ [c.segment [], .collect each] = (init ++ [c.segment []]) ++ [.collect each]
      from (List.append_assoc init [c.segment []] [.collect each]).symm]
    exact ev.eval_concat json rfl (by simp)
  -- The path is followed from the elements also where there are none.
  have hstep : ev.eval json (init ++ [c.segment [], .collect each]) =
      ev.step (ev.eval json (init ++ [c.segment []])) (.collect each) := by
    rw [htwo]
    split
    · rfl
    · next habsent =>
        exact (ev.step_collect_of_absent (eq_false_of_ne_true habsent) each).symm
  rw [hstep]
  by_cases hlines : ∀ path, init = [] → ∀ each, c.segment path ≠ .lines each
  · have hone : ∀ path, ev.eval json (init ++ [c.segment path]) =
        if (ev.eval json init).isPresent then ev.step (ev.eval json init) (c.segment path)
        else missing :=
      fun path => ev.eval_concat json (c.gathers_segment path)
        fun each hinit => hlines path hinit each
    rw [hone, hone]
    split
    · exact ev.step_collector_alike _ c each
    · rw [ev.step_collect_of_absent rfl]
      exact .refl _
  · -- The whole path is lines, which take their values from all of the text.
    obtain ⟨rfl, rfl⟩ : init = [] ∧ c = .lines := by
      cases c <;> simp_all [Collector.segment]
    have hone : ∀ path, ev.eval json ([] ++ [Collector.lines.segment path]) =
        ev.step (wholeText json) (Collector.lines.segment path) := by
      intro path
      rw [List.nil_append, Collector.segment, eval, resolve]
    rw [hone, hone]
    exact ev.step_collector_alike _ .lines each

/--
It makes no difference to the kind and the text of an array whether a path is followed from every
value that a segment finds, or from every element of the array that the segment makes without a
path. This holds for queries for all matches, descents and lines, from every selection, in malformed
texts too, and at the end of every path.
-/
theorem gather_then_follow (ev : Evaluator) (c : Collector) (each : Path) :
    (∀ cur : Selection,
      (ev.step cur (c.segment each)).Alike
        (ev.step (ev.step cur (c.segment [])) (.collect each))) ∧
      ∀ (json : Text) (init : Path),
        (ev.eval json (init ++ [c.segment each])).Alike
          (ev.eval json (init ++ [c.segment [], .collect each])) :=
  ⟨fun cur => ev.step_collector_alike cur c each,
    fun json init => ev.eval_collector_alike json init c each⟩

/-- How the two are written: a path behind the matches, and behind a pipe and a number sign. -/
example :
    Path.compile "a.#(b)#.c".toList =
        .ok ([.field ['a']] ++ [(Collector.query (.holds [.field ['b']])).segment
          [.field ['c']]]) ∧
      Path.compile "a.#(b)#|#.c".toList =
        .ok ([.field ['a']] ++ [(Collector.query (.holds [.field ['b']])).segment [],
          .collect [.field ['c']]]) := by
  constructor <;> with_unfolding_all rfl

end Evaluator

end DotPath
