import DotPath.Evaluator.Abort
import DotPath.Proofs.Evaluator.Batch
import DotPath.Proofs.Evaluator.Gathered

/-!
# Paths that do not abort

What a path leads to does not depend on what a transformer would give where it aborts: take any two
evaluators that agree on all calls which do not abort, and they agree on every path that does not.
So no call that an evaluator makes is overlooked where aborts are looked for, and its transformers
may be functions that are defined everywhere.

In the other direction, a path can only abort where a call does. It does so at one segment, after
the path up to there has been followed.

## Main results

* `resolve_eq_of_not_aborts`: evaluators that agree on the calls, from any selection.
* `eval_eq_of_not_aborts`, `evalAll_eq_of_not_aborts`, `getMany_eq_of_not_aborts`: from documents.
* `resolveAborts_iff`: where a path aborts.
* `resolveAborts_of_never`: without a call that aborts, as without transformers, no path does.
-/

namespace DotPath.Evaluator

open Json Selection

/-- Two evaluators with the same options that agree on every call which does not abort. -/
structure Agree (ev ev' : Evaluator) (aborts : CallAborts) : Prop where
  options : ev'.options = ev.options
  calls : ∀ name json argument, aborts name json argument = false →
    (ev'.transformer? name).map (fun f => f json argument) =
      (ev.transformer? name).map fun f => f json argument

variable {ev ev' : Evaluator} {aborts : CallAborts}

/-! ## Lists of elements -/

theorem eq_false_of_any {α : Type} {stops : α → Bool} {l : List α} (h : l.any stops = false) {a : α}
    (ha : a ∈ l) : stops a = false :=
  Bool.eq_false_iff.2 (List.any_eq_false.1 h a ha)

/-- What is done to each element is the same if it is the same for those that do not abort. -/
theorem map_eq_of_any {α β : Type} {f f' : α → β} {stops : α → Bool} {l : List α}
    (hany : l.any stops = false) (h : ∀ a, stops a = false → f' a = f a) : l.map f' = l.map f :=
  List.map_congr_left fun a ha => h a (eq_false_of_any hany ha)

/-- So it is if only some elements are left, and leaving them out does not abort either. -/
theorem map_filter_eq_of_any {α β : Type} {f f' : α → β} {holds holds' stops stopsAt : α → Bool}
    {l : List α} (hany : (l.any fun a => stops a || holds a && stopsAt a) = false)
    (hholds : ∀ a, stops a = false → holds' a = holds a)
    (h : ∀ a, stopsAt a = false → f' a = f a) :
    (l.filter holds').map f' = (l.filter holds).map f := by
  have hnot : ∀ a ∈ l, stops a = false ∧ (holds a && stopsAt a) = false := fun a ha =>
    Bool.or_eq_false_iff.1 (eq_false_of_any hany ha)
  rw [List.filter_congr fun a ha => hholds a (hnot a ha).1]
  refine List.map_congr_left fun a ha => h a ?_
  obtain ⟨hmem, hkept⟩ := List.mem_filter.1 ha
  have hstops := (hnot a hmem).2
  rwa [hkept, Bool.true_and] at hstops

/-- The first element that holds is the same if those before it, and itself, do not abort. -/
theorem head?_filter_eq_of_abortsUntil {α : Type} {holds holds' stops : α → Bool} {l : List α}
    (hl : abortsUntil stops holds l = false) (h : ∀ a, stops a = false → holds' a = holds a) :
    (l.filter holds').head? = (l.filter holds).head? := by
  induction l with
  | nil => rfl
  | cons a rest ih =>
      rw [abortsUntil, Bool.or_eq_false_iff] at hl
      have ha := h a hl.1
      cases hholds : holds a with
      | true =>
          rw [List.filter_cons_of_pos (ha.trans hholds), List.filter_cons_of_pos hholds]
          rfl
      | false =>
          have hnot : ¬ holds a = true := by simp [hholds]
          have hrest : abortsUntil stops holds rest = false := by simpa [hholds] using hl.2
          rw [List.filter_cons_of_neg (ha ▸ hnot), List.filter_cons_of_neg hnot, ih hrest]

/-! ## Agreement -/

/-- The call of a transformer. -/
theorem applyTransformer_eq (hagree : Agree ev ev' aborts) {cur : Selection} {name : Text}
    {argument : Option Text}
    (h : (ev.options.transformers && aborts name cur.raw (argument.getD [])) = false)
    (source : Text) :
    ev'.applyTransformer cur name argument source =
      ev.applyTransformer cur name argument source := by
  rw [applyTransformer, applyTransformer, hagree.options]
  cases hon : ev.options.transformers with
  | false => rfl
  | true =>
      rw [hon, Bool.true_and] at h
      have hcall := hagree.calls name cur.raw (argument.getD []) h
      rw [if_pos rfl, if_pos rfl]
      cases hname : ev.transformer? name with
      | none =>
          rw [hname, Option.map_none, Option.map_eq_none_iff] at hcall
          rw [hcall]
      | some f =>
          rw [hname, Option.map_some, Option.map_eq_some_iff] at hcall
          obtain ⟨f', hname', hf⟩ := hcall
          rw [hname']
          exact congrArg ofText hf

mutual

/-- Evaluators that agree on the calls follow a path that does not abort in the same way. -/
theorem resolve_eq_of_not_aborts (hagree : Agree ev ev' aborts) :
    ∀ (path : Path) (cur : Selection), ev.resolveAborts aborts cur path = false →
      ev'.resolve cur path = ev.resolve cur path
  | [], cur, _ => by
      rw [resolve, resolve]
  | s :: rest, cur, h => by
      rw [resolve, resolve]
      split
      · rfl
      · next hgoes =>
          rw [← Bool.not_or, Bool.not_eq_true', Bool.not_eq_false] at hgoes
          rw [resolveAborts, hgoes, Bool.true_and, Bool.or_eq_false_iff] at h
          rw [step_eq_of_not_aborts hagree s cur h.1, resolve_eq_of_not_aborts hagree rest _ h.2]

/-- So they follow a segment. -/
theorem step_eq_of_not_aborts (hagree : Agree ev ev' aborts) :
    ∀ (s : Segment) (cur : Selection), ev.stepAborts aborts cur s = false →
      ev'.step cur s = ev.step cur s
  | .field name, cur, _ => by rw [step, step]
  | .index n, cur, _ => by rw [step, step]
  | .wildcard pattern, cur, _ => by rw [step, step]
  | .length, cur, _ => by rw [step, step]
  | .literal json, cur, _ => by rw [step, step]
  | .transform name argument source, cur, h => by
      rw [stepAborts] at h
      rw [step, step, applyTransformer_eq hagree h]
  | .collect each, cur, h => by
      rw [stepAborts, Bool.and_eq_false_iff] at h
      rw [step, step]
      rcases h with harray | hany
      · rw [harray, if_neg Bool.false_ne_true, if_neg Bool.false_ne_true]
      · rw [map_eq_of_any hany fun e => resolve_eq_of_not_aborts hagree each e]
  | .query condition true each, cur, h => by
      rw [stepAborts, Bool.and_eq_false_iff, if_pos rfl] at h
      rw [step, step]
      rcases h with harray | hany
      · rw [harray]
        rfl
      · rw [if_pos rfl, if_pos rfl, map_filter_eq_of_any hany
          (fun e => holds_eq_of_not_aborts hagree condition e)
          fun e => resolve_eq_of_not_aborts hagree each e]
  | .query condition false each, cur, h => by
      rw [stepAborts, Bool.and_eq_false_iff, if_neg Bool.false_ne_true] at h
      rw [step, step]
      rcases h with harray | huntil
      · rw [harray]
        rfl
      · have hhead := head?_filter_eq_of_abortsUntil huntil fun e =>
          holds_eq_of_not_aborts hagree condition e
        rw [if_neg Bool.false_ne_true, if_neg Bool.false_ne_true, List.headD_eq_head?_getD,
          List.headD_eq_head?_getD, hhead]
  | .select asArray entries, cur, h => by
      rw [stepAborts] at h
      rw [step, step, resolveEntries_eq_of_not_abort hagree entries cur h]
  | .descend pattern each, cur, h => by
      rw [stepAborts] at h
      rw [step, step, hagree.options,
        map_eq_of_any h fun e => resolve_eq_of_not_aborts hagree each e]
  | .lines each, cur, h => by
      rw [stepAborts] at h
      rw [step, step, map_eq_of_any h fun e => resolve_eq_of_not_aborts hagree each e]

/-- Conditions hold of the same elements. -/
theorem holds_eq_of_not_aborts (hagree : Agree ev ev' aborts) :
    ∀ (c : Condition) (element : Selection), ev.holdsAborts aborts element c = false →
      ev'.holds element c = ev.holds element c
  | .holds field, element, h => by
      rw [holdsAborts] at h
      rw [holds, holds, resolve_eq_of_not_aborts hagree field element h]
  | .compare field operator operand, element, h => by
      rw [holdsAborts] at h
      rw [holds, holds, resolve_eq_of_not_aborts hagree field element h]
  | .both left right, element, h => by
      rw [holdsAborts, Bool.or_eq_false_iff] at h
      rw [holds, holds, holds_eq_of_not_aborts hagree left element h.1]
      cases hleft : ev.holds element left with
      | false => rfl
      | true =>
          rw [hleft, Bool.true_and] at h
          rw [holds_eq_of_not_aborts hagree right element h.2]
  | .either left right, element, h => by
      rw [holdsAborts, Bool.or_eq_false_iff] at h
      rw [holds, holds, holds_eq_of_not_aborts hagree left element h.1]
      cases hleft : ev.holds element left with
      | true => rfl
      | false =>
          rw [hleft, Bool.not_false, Bool.true_and] at h
          rw [holds_eq_of_not_aborts hagree right element h.2]

/-- The paths of a selector lead to the same. -/
theorem resolveEntries_eq_of_not_abort (hagree : Agree ev ev' aborts) :
    ∀ (entries : List (Text × Path)) (cur : Selection), ev.entriesAbort aborts cur entries = false →
      ev'.resolveEntries cur entries = ev.resolveEntries cur entries
  | [], cur, _ => by
      rw [resolveEntries, resolveEntries]
  | (key, path) :: rest, cur, h => by
      rw [entriesAbort, Bool.or_eq_false_iff] at h
      rw [resolveEntries, resolveEntries, resolve_eq_of_not_aborts hagree path cur h.1,
        resolveEntries_eq_of_not_abort hagree rest cur h.2]

end

/-! ## Where a path aborts -/

/-- Where a segment stalls, nothing is selected; else the path goes on behind the segment. -/
theorem resolve_cons_of_goes {cur : Selection} {s : Segment} (rest : Path)
    (h : (cur.isPresent || s.isLiteral) = true) :
    ev.resolve cur (s :: rest) = ev.resolve (ev.step cur s) rest := by
  rw [resolve, ← Bool.not_or, h, Bool.not_true, if_neg Bool.false_ne_true]

theorem goes_of_isPresent {cur : Selection} {s : Segment} {rest : Path}
    (h : (ev.resolve cur (s :: rest)).isPresent = true) :
    (cur.isPresent || s.isLiteral) = true := by
  rw [resolve] at h
  split at h
  · cases h
  · next hgoes => rwa [← Bool.not_or, Bool.not_eq_true', Bool.not_eq_false] at hgoes

/-- Only a selection makes a segment abort: a literal does not. -/
theorem isPresent_of_stepAborts {cur : Selection} {s : Segment}
    (hgoes : (cur.isPresent || s.isLiteral) = true) (h : ev.stepAborts aborts cur s = true) :
    cur.isPresent = true := by
  cases s with
  | literal json => simp [stepAborts] at h
  | _ => simpa [Segment.isLiteral] using hgoes

/-- A path aborts at one segment, after the path up to there has selected something. -/
theorem resolveAborts_iff {path : Path} {cur : Selection} :
    ev.resolveAborts aborts cur path = true ↔
      ∃ init s rest, path = init ++ s :: rest ∧ ev.resolveAborts aborts cur init = false ∧
        (ev.resolve cur init).isPresent = true ∧
        ev.stepAborts aborts (ev.resolve cur init) s = true := by
  induction path generalizing cur with
  | nil => simp [resolveAborts]
  | cons s path ih =>
      constructor
      · intro h
        rw [resolveAborts] at h
        obtain ⟨hgoes, h⟩ := Bool.and_eq_true_iff.1 h
        cases hstep : ev.stepAborts aborts cur s with
        | true =>
            refine ⟨[], s, path, rfl, by rw [resolveAborts], ?_⟩
            rw [resolve]
            exact ⟨isPresent_of_stepAborts hgoes hstep, hstep⟩
        | false =>
            rw [hstep, Bool.false_or, ih] at h
            obtain ⟨init, r, rest, rfl, hinit, hr⟩ := h
            refine ⟨s :: init, r, rest, rfl, ?_, ?_⟩
            · rw [resolveAborts, hgoes, hstep, hinit]
              rfl
            · rwa [resolve_cons_of_goes init hgoes]
      · rintro ⟨init, r, rest, heq, hinit, hpresent, hr⟩
        cases init with
        | nil =>
            obtain ⟨rfl, rfl⟩ := List.cons.inj heq
            rw [resolve] at hpresent hr
            rw [resolveAborts, hpresent, hr]
            rfl
        | cons s' init =>
            obtain ⟨rfl, rfl⟩ := List.cons.inj heq
            have hgoes := goes_of_isPresent hpresent
            rw [resolveAborts, hgoes, Bool.true_and, Bool.or_eq_false_iff] at hinit
            rw [resolve_cons_of_goes init hgoes] at hpresent hr
            have hih := ih.2 ⟨init, r, rest, rfl, hinit.2, hpresent, hr⟩
            rw [resolveAborts, hgoes, hih, Bool.or_true]
            rfl

/-- A path that does not abort does not abort at its last segment either, nor before. -/
theorem resolveAborts_of_concat {init : Path} {last : Segment} {cur : Selection}
    (h : ev.resolveAborts aborts cur (init ++ [last]) = false) :
    ev.resolveAborts aborts cur init = false ∧
      ((ev.resolve cur init).isPresent = true →
        ev.stepAborts aborts (ev.resolve cur init) last = false) := by
  have hnot := mt resolveAborts_iff.2 (Bool.eq_false_iff.1 h)
  have hinit : ev.resolveAborts aborts cur init = false := by
    refine Bool.eq_false_iff.2 fun hinit => hnot ?_
    obtain ⟨before, s, rest, rfl, hs⟩ := resolveAborts_iff.1 hinit
    exact ⟨before, s, rest ++ [last], by simp, hs⟩
  exact ⟨hinit, fun hpresent => Bool.eq_false_iff.2 fun hlast =>
    hnot ⟨init, last, [], rfl, hinit, hpresent, hlast⟩⟩

/-! ## Without calls that abort -/

theorem abortsUntil_of_never {α : Type} {stops : α → Bool} (h : ∀ a, stops a = false)
    (holds : α → Bool) (l : List α) : abortsUntil stops holds l = false := by
  induction l with
  | nil => rfl
  | cons a rest ih => rw [abortsUntil, h a, ih, Bool.and_false, Bool.or_false]

theorem any_of_never {α : Type} {stops : α → Bool} (h : ∀ a, stops a = false) (l : List α) :
    l.any stops = false :=
  List.any_eq_false.2 fun a _ => Bool.eq_false_iff.1 (h a)

/-- Transformers are off, or no call of one aborts. -/
def Never (ev : Evaluator) (aborts : CallAborts) : Prop :=
  ∀ name json argument, (ev.options.transformers && aborts name json argument) = false

mutual

/-- Without a call that aborts no path does. -/
theorem resolveAborts_of_never (h : Never ev aborts) :
    ∀ (path : Path) (cur : Selection), ev.resolveAborts aborts cur path = false
  | [], cur => by
      rw [resolveAborts]
  | s :: rest, cur => by
      rw [resolveAborts, stepAborts_of_never h s, resolveAborts_of_never h rest, Bool.or_false,
        Bool.and_false]

/-- No segment does. -/
theorem stepAborts_of_never (h : Never ev aborts) :
    ∀ (s : Segment) (cur : Selection), ev.stepAborts aborts cur s = false
  | .field name, cur | .index n, cur | .wildcard pattern, cur | .length, cur
  | .literal json, cur => by
      rw [stepAborts]
  | .transform name argument source, cur => by
      rw [stepAborts]
      exact h name cur.raw (argument.getD [])
  | .collect each, cur => by
      rw [stepAborts, any_of_never fun e => resolveAborts_of_never h each e, Bool.and_false]
  | .query condition true each, cur => by
      rw [stepAborts, if_pos rfl, any_of_never, Bool.and_false]
      intro e
      rw [holdsAborts_of_never h condition, resolveAborts_of_never h each, Bool.and_false,
        Bool.or_false]
  | .query condition false each, cur => by
      rw [stepAborts, if_neg Bool.false_ne_true,
        abortsUntil_of_never fun e => holdsAborts_of_never h condition e, Bool.and_false]
  | .select asArray entries, cur => by
      rw [stepAborts, entriesAbort_of_never h entries]
  | .descend pattern each, cur | .lines each, cur => by
      rw [stepAborts, any_of_never fun e => resolveAborts_of_never h each e]

/-- No condition does. -/
theorem holdsAborts_of_never (h : Never ev aborts) :
    ∀ (c : Condition) (element : Selection), ev.holdsAborts aborts element c = false
  | .holds field, element | .compare field operator operand, element => by
      rw [holdsAborts, resolveAborts_of_never h field]
  | .both left right, element | .either left right, element => by
      rw [holdsAborts, holdsAborts_of_never h left, holdsAborts_of_never h right, Bool.and_false,
        Bool.or_false]

/-- The paths of a selector do not. -/
theorem entriesAbort_of_never (h : Never ev aborts) :
    ∀ (entries : List (Text × Path)) (cur : Selection), ev.entriesAbort aborts cur entries = false
  | [], cur => by
      rw [entriesAbort]
  | (key, path) :: rest, cur => by
      rw [entriesAbort, resolveAborts_of_never h path, entriesAbort_of_never h rest, Bool.or_false]

end

/-- So nothing aborts from a document. -/
theorem evalAborts_of_never (h : Never ev aborts) (json : Text) (path : Path) :
    ev.evalAborts aborts json path = false := by
  unfold evalAborts
  split
  · rw [stepAborts_of_never h, resolveAborts_of_never h, Bool.or_false]
  · exact resolveAborts_of_never h path (document json)

/-! ## From documents -/

theorem evalWithin_eq_none_iff {json : Text} {path : Path} :
    ev.evalWithin aborts json path = none ↔ ev.evalAborts aborts json path = true := by
  rw [evalWithin]
  split <;> simp_all

theorem evalWithin_eq_some_iff {json : Text} {path : Path} {s : Selection} :
    ev.evalWithin aborts json path = some s ↔
      ev.evalAborts aborts json path = false ∧ ev.eval json path = s := by
  rw [evalWithin]
  split <;> simp_all

/-- Nor does a path from a document, lines that are the whole path apart. -/
theorem evalAborts_of_concat {json : Text} {init : Path} {last : Segment}
    (hlines : ∀ each, init = [] → last ≠ .lines each)
    (h : ev.evalAborts aborts json (init ++ [last]) = false) :
    ev.evalAborts aborts json init = false ∧
      ((ev.eval json init).isPresent = true →
        ev.stepAborts aborts (ev.eval json init) last = false) := by
  cases init with
  | nil =>
      have hne : ∀ each, ([] ++ [last] : Path).head? ≠ some (.lines each) := fun each heq =>
        hlines each rfl (Option.some.inj heq)
      rw [ev.evalAborts_of_ne_lines aborts json hne] at h
      obtain ⟨hinit, hlast⟩ := resolveAborts_of_concat h
      rw [resolve] at hlast
      rw [ev.evalAborts_of_ne_lines aborts json (by simp), ev.eval_nil]
      exact ⟨hinit, hlast⟩
  | cons s init =>
      by_cases hs : ∃ each, s = .lines each
      · obtain ⟨each, rfl⟩ := hs
        rw [List.cons_append, evalAborts, Bool.or_eq_false_iff] at h
        rw [evalAborts, h.1, Bool.false_or, eval]
        exact resolveAborts_of_concat h.2
      · have hne : ∀ (rest : Path) each, (s :: rest).head? ≠ some (.lines each) :=
          fun rest each heq => hs ⟨each, Option.some.inj heq⟩
        rw [List.cons_append, ev.evalAborts_of_ne_lines aborts json (hne _)] at h
        rw [ev.evalAborts_of_ne_lines aborts json (hne _), ev.eval_of_ne_lines json (hne _)]
        exact resolveAborts_of_concat h

/-- Behind a key that is missing, a path selects nothing, unless it goes on with a literal. -/
theorem if_stopsShort_of_absent {json name : Text} {v : Occurrence} {rest : Path}
    (hvalue : firstValue? json = some v) (h : ((document json).field name).isPresent = false) :
    (if stopsShort json (.field name :: rest) then missing
        else ev'.resolve ((document json).field name) rest) =
      if stopsShort json (.field name :: rest) then missing
        else ev.resolve ((document json).field name) rest := by
  cases rest with
  | nil => rw [resolve, resolve]
  | cons s rest =>
      cases hliteral : s.isLiteral with
      | true =>
          have hshort : stopsShort json (.field name :: s :: rest) = true := by
            cases s with
            | literal _ => rw [stopsShort, isPresent_document hvalue, h]; rfl
            | _ => cases hliteral
          rw [if_pos hshort, if_pos hshort]
      | false =>
          rw [resolve, resolve, h, hliteral]
          rfl

section Documents

variable (hagree : Agree ev ev' aborts)

include hagree

/-- So evaluators agree on what a path that does not abort selects in a document. -/
theorem eval_eq_of_not_aborts {json : Text} {path : Path}
    (h : ev.evalAborts aborts json path = false) : ev'.eval json path = ev.eval json path := by
  by_cases hlines : ∃ each, path.head? = some (.lines each)
  · obtain ⟨each, hhead⟩ := hlines
    obtain ⟨rest, rfl⟩ := List.head?_eq_some_iff.1 hhead
    rw [evalAborts, Bool.or_eq_false_iff] at h
    rw [eval, eval, step_eq_of_not_aborts hagree _ _ h.1, resolve_eq_of_not_aborts hagree _ _ h.2]
  · have hne : ∀ each, path.head? ≠ some (.lines each) := fun each h => hlines ⟨each, h⟩
    rw [ev.evalAborts_of_ne_lines aborts json hne] at h
    rw [ev'.eval_of_ne_lines json hne, ev.eval_of_ne_lines json hne,
      resolve_eq_of_not_aborts hagree path _ h]

/-- The items of a segment are the same if the segment does not abort. -/
theorem items_eq_of_not_aborts {cur : Selection} {s : Segment}
    (h : ev.stepAborts aborts cur s = false) : ev'.items cur s = ev.items cur s := by
  cases s with
  | collect each =>
      rw [stepAborts, Bool.and_eq_false_iff] at h
      rw [items, items]
      rcases h with harray | hany
      · rw [harray, if_neg Bool.false_ne_true, if_neg Bool.false_ne_true]
      · rw [map_eq_of_any hany fun e => resolve_eq_of_not_aborts hagree each e]
  | query condition all each =>
      cases all with
      | false => rfl
      | true =>
          rw [stepAborts, Bool.and_eq_false_iff, if_pos rfl] at h
          rw [items, items]
          rcases h with harray | hany
          · rw [elementViews_eq_nil harray]
            rfl
          · rw [map_filter_eq_of_any hany
              (fun e => holds_eq_of_not_aborts hagree condition e)
              fun e => resolve_eq_of_not_aborts hagree each e]
  | descend pattern each =>
      rw [stepAborts] at h
      rw [items, items, hagree.options]
      rw [map_eq_of_any h fun e => resolve_eq_of_not_aborts hagree each e]
  | lines each =>
      rw [stepAborts] at h
      rw [items, items, map_eq_of_any h fun e => resolve_eq_of_not_aborts hagree each e]
  | _ => rfl

/-- So are all results of a path. -/
theorem evalAll_eq_of_not_aborts {json : Text} {path : Path}
    (h : ev.evalAborts aborts json path = false) :
    ev'.evalAll json path = ev.evalAll json path := by
  by_cases hgathers : path.getLast?.any Segment.gathers = false
  · rw [evalAll_of_not_gathers ev' json hgathers, evalAll_of_not_gathers ev json hgathers,
      eval_eq_of_not_aborts hagree h]
  · obtain ⟨last, hmem, hlast⟩ := (Option.any_eq_true _ _).1 (Bool.not_eq_false _ ▸ hgathers)
    obtain ⟨init, rfl⟩ := List.getLast?_eq_some_iff.1 hmem
    by_cases hlines : ∃ each, init = [] ∧ last = .lines each
    · obtain ⟨each, rfl, rfl⟩ := hlines
      rw [List.nil_append, evalAborts, Bool.or_eq_false_iff] at h
      exact items_eq_of_not_aborts hagree h.1
    · have hne : ∀ each, init = [] → last ≠ .lines each := fun each hinit heq =>
        hlines ⟨each, hinit, heq⟩
      obtain ⟨hinit, hitems⟩ := evalAborts_of_concat hne h
      rw [evalAll_concat ev' json hlast hne, evalAll_concat ev json hlast hne,
        eval_eq_of_not_aborts hagree hinit]
      split
      · next hpresent => rw [items_eq_of_not_aborts hagree (hitems hpresent)]
      · rfl

/--
A path of a batch that starts with a key is followed from the member with the key. Where there is
none, nothing is selected, or the batch stops short.
-/
theorem batchResult_eq_of_not_aborts {json : Text} {path : Except PathError Path}
    (h : ev.batchAborts aborts json path = false) :
    ev'.batchResult json path = ev.batchResult json path := by
  unfold batchAborts at h
  split at h
  · next name rest =>
      rw [batchResult, batchResult]
      cases hvalue : firstValue? json with
      | none =>
          have hdocument : document json = missing := by rw [document, hvalue]
          have hmissing : ∀ ev : Evaluator, ev.eval json (.field name :: rest) = missing := by
            intro ev
            rw [ev.eval_of_ne_lines json (by simp), hdocument]
            exact ev.resolve_missing (by simp [Segment.isLiteral])
          rw [hmissing, hmissing]
      | some v =>
          rw [eval_field hvalue, eval_field hvalue]
          cases hpresent : ((document json).field name).isPresent with
          | true =>
              dsimp only at h
              rw [hpresent, Bool.true_and] at h
              rw [resolve_eq_of_not_aborts hagree rest _ h]
          | false => exact if_stopsShort_of_absent hvalue hpresent
  · next path _ => rw [batchResult, batchResult, eval_eq_of_not_aborts hagree h]
  · rfl

/-- And so are the results of a batch of paths. -/
theorem getMany_eq_of_not_aborts {json : Text} {paths : List Text}
    (h : ev.getManyAborts aborts json paths = false) :
    ev'.getMany json paths = ev.getMany json paths := by
  refine List.ext_getElem? fun i => ?_
  rw [getMany_getElem?, getMany_getElem?]
  refine Option.map_congr fun path hpath => ?_
  obtain ⟨text, htext, rfl⟩ := List.mem_map.1 (List.mem_of_getElem? hpath)
  exact batchResult_eq_of_not_aborts hagree (eq_false_of_any h htext)

end Documents

end DotPath.Evaluator
