import DotPath.Proofs.Evaluator.Stages

/-!
# One array and its items

A path that ends in a segment that gathers can be asked for one result, an array, or for the items
of the array one by one. The two are made apart from one another. Here they are shown to be two
sides of the same: the array is written with the texts of the items and carries their offsets, and
there are no items where there is no array.

## Main results

* `Evaluator.step_gathers_items`: a segment that gathers makes the array of the items that it gives
  one by one.
* `Evaluator.eval_gathers_evalAll`: so does a path that ends in such a segment.
* `Evaluator.getAll_agrees_get`: what a path selects, and all that it selects.
-/

namespace DotPath

open Json

namespace Selection

/-- The selection is the array of the items; if nothing is selected, there are none. -/
structure Gathers (s : Selection) (items : List Selection) : Prop where
  raw : s.isPresent = true → s.raw = composeArray (items.map (·.raw))
  indexes : s.isPresent = true → s.indexes = items.filterMap (·.index)
  absent : s.isPresent = false → items = []

theorem gathers_gather (items : List Selection) : (gather items).Gathers items :=
  ⟨fun _ => rfl, fun _ => rfl, nofun⟩

theorem gathers_missing : missing.Gathers [] :=
  ⟨nofun, nofun, fun _ => rfl⟩

theorem raw_derivedFrom (s r : Selection) : (s.derivedFrom r).raw = r.raw := by
  unfold derivedFrom
  split <;> rfl

theorem index_derivedFrom (s r : Selection) : (s.derivedFrom r).index = r.index := by
  unfold derivedFrom
  split <;> rfl

theorem map_raw_derivedFrom (s : Selection) (items : List Selection) :
    (items.map s.derivedFrom).map (·.raw) = items.map (·.raw) := by
  rw [List.map_map]
  exact List.map_congr_left fun e _ => raw_derivedFrom s e

theorem filterMap_index_derivedFrom (s : Selection) (items : List Selection) :
    (items.map s.derivedFrom).filterMap (·.index) = items.filterMap (·.index) := by
  rw [List.filterMap_map]
  exact congrArg (List.filterMap · items) (funext fun e => index_derivedFrom s e)

/-- Whether the items are views makes no difference to their array. -/
theorem Gathers.map_derivedFrom {s : Selection} {items : List Selection} (h : s.Gathers items)
    (cur : Selection) : s.Gathers (items.map cur.derivedFrom) := by
  refine ⟨fun hpresent => ?_, fun hpresent => ?_, fun habsent => ?_⟩
  · rw [map_raw_derivedFrom]
    exact h.raw hpresent
  · rw [filterMap_index_derivedFrom]
    exact h.indexes hpresent
  · rw [h.absent habsent]
    rfl

theorem gather_map_derivedFrom (s : Selection) (items : List Selection) :
    gather (items.map s.derivedFrom) = gather items := by
  rw [gather, gather, map_raw_derivedFrom, filterMap_index_derivedFrom]

theorem elementViews_eq_nil {s : Selection} (h : opensArray s.raw = false) :
    s.elementViews = [] := by
  rw [elementViews, elements, h]
  rfl

end Selection

namespace Evaluator

open Selection

/-! ## The last segment -/

/-- A segment that gathers makes the array of its items. -/
theorem step_gathers_items (ev : Evaluator) (cur : Selection) {s : Segment}
    (hs : s.gathers = true) : (ev.step cur s).Gathers (ev.items cur s) := by
  cases s with
  | collect each =>
      rw [step, items]
      split
      · exact gathers_gather _
      · exact gathers_missing
  | query condition all each =>
      obtain rfl : all = true := hs
      rw [step, items]
      cases harray : opensArray cur.raw with
      | true => exact (gathers_gather _).map_derivedFrom cur
      | false =>
          rw [elementViews_eq_nil harray]
          exact gathers_missing
  | descend pattern each =>
      rw [step, items]
      exact (gathers_gather _).map_derivedFrom cur
  | lines each =>
      rw [step, items]
      exact (gathers_gather _).map_derivedFrom cur
  | _ => cases hs

/-- A segment that gathers is no literal, so that it gives nothing where nothing is selected. -/
theorem resolve_singleton (ev : Evaluator) (cur : Selection) {s : Segment}
    (hs : s.gathers = true) :
    ev.resolve cur [s] = if cur.isPresent then ev.step cur s else missing := by
  have hliteral : s.isLiteral = false := by
    cases s with
    | literal json => cases hs
    | _ => rfl
  rw [resolve, hliteral]
  cases cur.isPresent with
  | true => rw [resolve]; rfl
  | false => rfl

/-! ## Paths -/

theorem eval_nil (ev : Evaluator) (json : Text) : ev.eval json [] = document json := by
  rw [eval, resolve]
  intro each rest heq
  cases heq

/-- A path that ends in a segment that gathers, lines that are the whole path apart. -/
theorem eval_concat (ev : Evaluator) (json : Text) {init : Path} {last : Segment}
    (hlast : last.gathers = true) (hlines : ∀ each, init = [] → last ≠ .lines each) :
    ev.eval json (init ++ [last]) =
      if (ev.eval json init).isPresent then ev.step (ev.eval json init) last else missing := by
  by_cases hinit : init = []
  · subst hinit
    have heval : ev.eval json [last] = ev.resolve (document json) [last] := by
      unfold eval
      split
      · next each rest heq =>
          cases heq
          exact absurd rfl (hlines each rfl)
      · rfl
    rw [List.nil_append, heval, ev.eval_nil, ev.resolve_singleton (document json) hlast]
  · rw [ev.eval_append json hinit, ev.resolve_singleton _ hlast]
    split
    · next hstalls =>
        rw [eval_of_stallsFrom hstalls]
        rfl
    · rfl

theorem evalAll_concat (ev : Evaluator) (json : Text) {init : Path} {last : Segment}
    (hlast : last.gathers = true) (hlines : ∀ each, init = [] → last ≠ .lines each) :
    ev.evalAll json (init ++ [last]) =
      if (ev.eval json init).isPresent then ev.items (ev.eval json init) last else [] := by
  unfold evalAll
  rw [List.getLast?_concat, List.dropLast_concat]
  dsimp only
  rw [hlast, Bool.not_true, if_neg Bool.false_ne_true]
  split
  · next each => exact absurd rfl (hlines each rfl)
  · rfl

/-- The one result of a path that ends in a segment that gathers is the array of all its results. -/
theorem eval_gathers_evalAll (ev : Evaluator) (json : Text) (init : Path) {last : Segment}
    (hlast : last.gathers = true) :
    (ev.eval json (init ++ [last])).Gathers (ev.evalAll json (init ++ [last])) := by
  by_cases hlines : ∀ each, init = [] → last ≠ .lines each
  · rw [ev.eval_concat json hlast hlines, ev.evalAll_concat json hlast hlines]
    split
    · exact ev.step_gathers_items _ hlast
    · exact gathers_missing
  · -- The whole path is lines, which take their values from all of the text.
    obtain ⟨each, rfl, rfl⟩ : ∃ each, init = [] ∧ last = .lines each := by
      simpa using hlines
    have heval : ev.eval json [.lines each] = ev.step (wholeText json) (.lines each) := by
      rw [eval, resolve]
    exact heval ▸ ev.step_gathers_items (wholeText json) hlast

/-- A path that does not end in a segment that gathers has its one result, or none. -/
theorem evalAll_of_not_gathers (ev : Evaluator) (json : Text) {path : Path}
    (h : path.getLast?.any Segment.gathers = false) :
    ev.evalAll json path = asResults (ev.eval json path) := by
  unfold evalAll
  cases hlast : path.getLast? with
  | none => rfl
  | some last =>
      rw [hlast, Option.any_some] at h
      dsimp only
      rw [h]
      rfl

/--
What a path selects and all that it selects agree. If the last segment gathers, the one result is
an array, written with the texts of all results and with the offsets that they have, in order; where
it selects nothing there are no results. Any other path has its one result, or none.
-/
theorem getAll_agrees_get (ev : Evaluator) (json path : Text) {segments : Path}
    (hpath : Path.compile path = .ok segments) :
    (segments.getLast?.any Segment.gathers = true →
      ((ev.get json path).isPresent = true →
        (ev.get json path).raw =
            '[' :: List.intercalate [','] ((ev.getAll json path).map (·.raw)) ++ [']'] ∧
          (ev.get json path).indexes = (ev.getAll json path).filterMap (·.index)) ∧
        ((ev.get json path).isPresent = false → ev.getAll json path = [])) ∧
      (segments.getLast?.any Segment.gathers = false →
        ev.getAll json path =
          if (ev.get json path).isPresent then [ev.get json path] else []) := by
  have hget : ev.get json path = ev.eval json segments := by
    rw [get, hpath]
  have hall : ev.getAll json path = ev.evalAll json segments := by
    rw [getAll, hpath]
  rw [hget, hall]
  constructor
  · intro hlast
    cases hsome : segments.getLast? with
    | none =>
        rw [hsome] at hlast
        cases hlast
    | some last =>
        rw [hsome, Option.any_some] at hlast
        obtain ⟨init, rfl⟩ := List.getLast?_eq_some_iff.1 hsome
        have h := ev.eval_gathers_evalAll json init hlast
        exact ⟨fun hpresent => ⟨h.raw hpresent, h.indexes hpresent⟩, h.absent⟩
  · exact ev.evalAll_of_not_gathers json

/-- The first elements of the elements of an array, one of which is no array. -/
theorem getAll_agrees_get_of_elements :
    Path.compile "#.0".toList = .ok [.collect [.index 0]] ∧
      (Evaluator.get ⟨⟨true, 256⟩, fun _ => none⟩ "[[1],2,[3]]".toList "#.0".toList).raw =
        '[' :: List.intercalate [',']
          ((Evaluator.getAll ⟨⟨true, 256⟩, fun _ => none⟩ "[[1],2,[3]]".toList
            "#.0".toList).map (·.raw)) ++ [']'] := by
  have hpath : Path.compile "#.0".toList = .ok [.collect [.index 0]] := by
    with_unfolding_all rfl
  have hpresent : (Evaluator.get ⟨⟨true, 256⟩, fun _ => none⟩ "[[1],2,[3]]".toList
      "#.0".toList).isPresent = true := by
    decide +kernel
  have h := (getAll_agrees_get ⟨⟨true, 256⟩, fun _ => none⟩ "[[1],2,[3]]".toList "#.0".toList
    hpath).1 rfl
  exact ⟨hpath, (h.1 hpresent).1⟩

end Evaluator

end DotPath
