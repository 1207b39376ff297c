import DotPath.Evaluator.Basic
import DotPath.Proofs.Json.Composed
import DotPath.Proofs.Json.Walk
import Mathlib.Data.List.Forall2

/-!
# Selections know where they come from

A view of the document carries the offset where it starts, a text of its own carries none, and an
array of collected values carries the offsets of those that are views. The offsets are handed down
from segment to segment, through paths inside paths and through texts that are no part of the
document, whose parts must not be given offsets at all.

`Anchored src s` says that the offsets of `s` are right when `src` is the text that views are views
of. There is no such text where a path goes on inside a text of its own. Every segment preserves
the invariant, so every path does, and so does everything that can be done with a selection.

## Main results

* `Evaluator.resolve_anchored`: following a path preserves the invariant.
* `Reached.anchored`: every selection that is reached from a document has it.
* `reached_offsets`: what this means in octets, and which paths only ever give views.
-/

namespace DotPath

open Json

namespace Selection

/-! ## The invariant -/

/-- The text that views made from `s` are views of; none if `s` is a text of its own. -/
def origin (src : Option Text) (s : Selection) : Option Text :=
  if s.isView then src else none

/-- The offset of a view: where it stands in the text, or nothing if there is no text. -/
def Locates (src : Option Text) (raw : Text) (index : Option Nat) : Prop :=
  match src with
  | some json => ∃ i, index = some i ∧ StandsAt json raw i
  | none => index = none

/-- The offsets of collected views belong, in their order, to some of the elements. -/
def Collects (src : Option Text) (s : Selection) : Prop :=
  match src with
  | some json => ∃ found, found.Sublist (elements s.raw) ∧
      List.Forall₂ (fun e i => StandsAt json e.raw i) found s.indexes
  | none => s.indexes = []

/-- The offsets of a selection are right with respect to a text that views are views of. -/
structure Anchored (src : Option Text) (s : Selection) : Prop where
  fills : s.isPresent = true → Fills s.kind s.raw
  view : s.isView = true → Locates src s.raw s.index
  owned : s.isView = false → s.index = none
  collects : Collects src s

theorem collects_of_nil {src : Option Text} {s : Selection} (h : s.indexes = []) :
    Collects src s := by
  cases src with
  | none => exact h
  | some json =>
      refine ⟨[], List.nil_sublist _, ?_⟩
      rw [h]
      exact .nil

/-- A text of its own without collected views has nothing to be wrong about. -/
theorem anchored_of_owned (src : Option Text) {kind : Kind} {raw : Text} (h : Fills kind raw) :
    Anchored src ⟨kind, raw, false, none, []⟩ :=
  ⟨fun _ => h, nofun, fun _ => rfl, collects_of_nil rfl⟩

theorem anchored_missing (src : Option Text) : Anchored src missing :=
  ⟨nofun, nofun, fun _ => rfl, collects_of_nil rfl⟩

theorem anchored_ofText (src : Option Text) (t : Text) : Anchored src (ofText t) := by
  unfold ofText
  split
  · next v hv => exact anchored_of_owned src (isIn_of_firstValue? hv).2
  · exact anchored_missing src

theorem anchored_ofNat (src : Option Text) (n : Nat) : Anchored src (ofNat n) :=
  anchored_of_owned src (.number (isNumber_ofNat n).isNumeral)

/-! ## Views -/

section Views

variable {src : Option Text} {s r : Selection}

/-- A value found in the text of a selection is a view of what the selection is a view of. -/
theorem anchored_ofOccurrence (hs : s.isView = true → Locates src s.raw s.index) {v : Occurrence}
    (hv : v.IsIn s.raw) : Anchored (s.origin src) (ofOccurrence s.base v) := by
  obtain ⟨hstands, hfills⟩ := hv
  refine ⟨fun _ => hfills, fun _ => ?_, nofun, collects_of_nil rfl⟩
  unfold origin base
  cases hview : s.isView with
  | false => exact rfl
  | true =>
      cases src with
      | none =>
          have hindex : s.index = none := hs hview
          simp [hindex, Locates, ofOccurrence]
      | some json =>
          obtain ⟨i, hi, hraw⟩ := hs hview
          refine ⟨i + v.offset, ?_, hraw.trans hstands⟩
          simp [hi, ofOccurrence]

/-- What is made from the text of a selection comes from where the selection comes from. -/
theorem Anchored.derivedFrom (h : Anchored (s.origin src) r) : Anchored src (s.derivedFrom r) := by
  unfold Selection.derivedFrom
  cases hview : s.isView with
  | true =>
      rw [origin, hview] at h
      exact h
  | false =>
      rw [origin, hview] at h
      have hnone : r.index = none := by
        cases hr : r.isView with
        | true => exact h.view hr
        | false => exact h.owned hr
      exact ⟨h.fills, nofun, fun _ => hnone, collects_of_nil h.collects⟩

theorem Anchored.of_index {json : Text} (h : Anchored (some json) r) {i : Nat}
    (hi : r.index = some i) : StandsAt json r.raw i := by
  cases hview : r.isView with
  | true =>
      obtain ⟨j, hj, hstands⟩ := h.view hview
      rw [hi] at hj
      cases hj
      exact hstands
  | false =>
      rw [h.owned hview] at hi
      cases hi

theorem Anchored.index_eq_none (h : Anchored none r) : r.index = none := by
  cases hview : r.isView with
  | true => exact h.view hview
  | false => exact h.owned hview

end Views

/-! ## Collected selections -/

/-- Among elements written like the selections, those of views have the offsets of the views. -/
theorem exists_sublist_of_indexes {json : Text} {found : List Selection}
    (h : ∀ r ∈ found, Anchored (some json) r) {es : List Occurrence}
    (heq : es.map (fun e => (e.kind, e.raw)) = found.map fun r => (r.kind, r.raw)) :
    ∃ es', es'.Sublist es ∧
      List.Forall₂ (fun e i => StandsAt json e.raw i) es' (found.filterMap (·.index)) := by
  induction found generalizing es with
  | nil => exact ⟨[], List.nil_sublist es, .nil⟩
  | cons r found ih =>
      cases es with
      | nil => cases heq
      | cons e es =>
          simp only [List.map_cons, List.cons.injEq, Prod.mk.injEq] at heq
          obtain ⟨⟨-, hraw⟩, htail⟩ := heq
          obtain ⟨es', hsub, hall⟩ := ih (fun q hq => h q (List.mem_cons_of_mem r hq)) htail
          cases hi : r.index with
          | none =>
              rw [List.filterMap_cons_none hi]
              exact ⟨es', hsub.cons e, hall⟩
          | some i =>
              have hstands := (h r List.mem_cons_self).of_index hi
              rw [List.filterMap_cons_some hi]
              refine ⟨e :: es', hsub.cons_cons e, .cons ?_ hall⟩
              rw [hraw]
              exact hstands

theorem mem_of_mem_present {found : List Selection} {r : Selection} (h : r ∈ present found) :
    r ∈ found ∧ r.isPresent = true :=
  List.mem_filter.1 h

/-- An array of collected selections is anchored if they are. -/
theorem anchored_gather {src : Option Text} {found : List Selection}
    (h : ∀ r ∈ found, Anchored src r) : Anchored src (gather (present found)) := by
  have hfills : ∀ r ∈ present found, Fills r.kind r.raw := by
    intro r hr
    obtain ⟨hr, hpresent⟩ := mem_of_mem_present hr
    exact (h r hr).fills hpresent
  refine ⟨fun _ => fills_composeArray hfills, nofun, fun _ => rfl, ?_⟩
  cases src with
  | none =>
      refine List.filterMap_eq_nil_iff.2 fun r hr => ?_
      exact (h r (mem_of_mem_present hr).1).index_eq_none
  | some json =>
      exact exists_sublist_of_indexes (fun r hr => h r (mem_of_mem_present hr).1)
        (elements_composeArray hfills)

/-! ## What segments look at -/

/-- A property that nothing has, and every value in the text of a selection as a view. -/
structure HoldsOfParts (P : Selection → Prop) (s : Selection) : Prop where
  missing : P missing
  part : ∀ {v : Occurrence}, v.IsIn s.raw → P (ofOccurrence s.base v)

namespace HoldsOfParts

variable {P : Selection → Prop} {s e : Selection}

theorem field (h : HoldsOfParts P s) (name : Text) : P (s.field name) := by
  unfold Selection.field
  split
  · next m hm => exact h.part (isIn_of_mem_members (List.mem_of_find?_eq_some hm))
  · exact h.missing

theorem of_mem_elementViews (h : HoldsOfParts P s) (he : e ∈ s.elementViews) : P e := by
  obtain ⟨v, hv, rfl⟩ := List.mem_map.1 he
  exact h.part (isIn_of_mem_elements hv)

theorem item (h : HoldsOfParts P s) (n : Nat) : P (s.item n) := by
  unfold Selection.item
  split
  · rw [List.getD_eq_getElem?_getD]
    cases he : s.elementViews[n]? with
    | none => exact h.missing
    | some e => exact h.of_mem_elementViews (List.mem_of_getElem? he)
  · exact h.field _

theorem firstLike (h : HoldsOfParts P s) (pattern : Text) : P (s.firstLike pattern) := by
  unfold Selection.firstLike
  split
  · split
    · next m hm => exact h.part (isIn_of_mem_members (List.mem_of_find?_eq_some hm))
    · exact h.missing
  · cases he : s.elementViews.find? fun e => Glob.isMatch pattern e.text with
    | none => exact h.missing
    | some e => exact h.of_mem_elementViews (List.mem_of_find?_eq_some he)

/-- The first element that passes a test, if there is one. -/
theorem firstWhere (h : HoldsOfParts P s) (test : Selection → Bool) :
    P ((s.elementViews.filter test).headD Selection.missing) := by
  rw [List.headD_eq_head?_getD]
  cases he : (s.elementViews.filter test).head? with
  | none => exact h.missing
  | some e => exact h.of_mem_elementViews (List.mem_filter.1 (List.mem_of_head? he)).1

theorem of_mem_descendants (h : HoldsOfParts P s) {depth : Nat} {pattern : Text}
    (he : e ∈ s.descendants depth pattern) : P e := by
  obtain ⟨visit, hvisit, heq⟩ := List.mem_filterMap.1 he
  split at heq
  · split at heq
    · cases heq
      exact h.part (isIn_of_mem_walk hvisit)
    · cases heq
  · cases heq

theorem of_mem_streamViews (h : HoldsOfParts P s) (he : e ∈ s.streamViews) : P e := by
  obtain ⟨v, hv, rfl⟩ := List.mem_map.1 he
  exact h.part (isIn_of_mem_stream hv)

end HoldsOfParts

section Parts

variable {src : Option Text} {s e : Selection}

/-- What a selection gives offsets to is anchored where the selection comes from. -/
theorem anchored_parts (hs : s.isView = true → Locates src s.raw s.index) :
    HoldsOfParts (Anchored (s.origin src)) s :=
  ⟨anchored_missing _, anchored_ofOccurrence hs⟩

theorem Anchored.parts (h : Anchored src s) : HoldsOfParts (Anchored (s.origin src)) s :=
  anchored_parts h.view

theorem anchored_count (src : Option Text) (s : Selection) : Anchored src s.count := by
  unfold count
  split
  · exact anchored_ofNat src _
  · split
    · exact anchored_ofNat src _
    · exact anchored_missing src

theorem anchored_of_mem_array (hs : Anchored src s) (he : e ∈ s.array) : Anchored src e := by
  unfold array at he
  split at he
  · cases he
  · split at he
    · rw [List.mem_singleton.1 he]
      exact hs
    · obtain ⟨v, hv, rfl⟩ := List.mem_map.1 he
      exact (hs.parts.part (isIn_of_mem_elements hv)).derivedFrom

end Parts

/-- An array that is collected inside a text of its own says nothing about the document. -/
theorem anchored_gather_origin {src : Option Text} {s : Selection} {found : List Selection}
    (h : ∀ r ∈ found, Anchored (s.origin src) r) : Anchored src (gather (present found)) := by
  have hgather := (anchored_gather h).derivedFrom
  unfold Selection.derivedFrom at hgather
  split at hgather
  · exact hgather
  · exact hgather

theorem forall_mem_map {α : Type} {p : Selection → Prop} {f : α → Selection} {as : List α}
    (h : ∀ a ∈ as, p (f a)) : ∀ r ∈ as.map f, p r := by
  intro r hr
  obtain ⟨a, ha, rfl⟩ := List.mem_map.1 hr
  exact h a ha

/-- The results of a segment that gathers, given one by one, are anchored like their array. -/
theorem anchored_of_mem_results {src : Option Text} {s : Selection} {f : Selection → Selection}
    {found : List Selection} (h : ∀ e ∈ found, Anchored (s.origin src) (f e)) :
    ∀ r ∈ (present (found.map f)).map s.derivedFrom, Anchored src r := by
  refine forall_mem_map fun r hr => Anchored.derivedFrom ?_
  obtain ⟨e, he, rfl⟩ := List.mem_map.1 (mem_of_mem_present hr).1
  exact h e he

end Selection

namespace Evaluator

open Selection

/-! ## Segments and paths -/

theorem anchored_applyTransformer (ev : Evaluator) {src : Option Text} {cur : Selection}
    (h : Anchored src cur) (name : Text) (argument : Option Text) (source : Text) :
    Anchored (cur.origin src) (ev.applyTransformer cur name argument source) := by
  unfold applyTransformer
  split
  · split
    · exact anchored_ofText _ _
    · refine ⟨h.fills, fun _ => ?_, nofun, collects_of_nil rfl⟩
      unfold origin base
      cases hview : cur.isView with
      | true => exact h.view hview
      | false => exact rfl
  · exact h.parts.field source

mutual

/-- Following a path preserves the invariant. -/
theorem resolve_anchored (ev : Evaluator) :
    ∀ (path : Path) {src : Option Text} {cur : Selection}, Anchored src cur →
      Anchored src (ev.resolve cur path)
  | [], _, _, h => h
  | s :: rest, _, _, h => by
      rw [resolve]
      split
      · exact anchored_missing _
      · exact resolve_anchored ev rest (step_anchored ev s h)

/-- So does every segment. -/
theorem step_anchored (ev : Evaluator) :
    ∀ (s : Segment) {src : Option Text} {cur : Selection}, Anchored src cur →
      Anchored src (ev.step cur s)
  | .field name, _, _, h => by
      rw [step]
      exact (h.parts.field name).derivedFrom
  | .index n, _, _, h => by
      rw [step]
      exact (h.parts.item n).derivedFrom
  | .wildcard pattern, _, _, h => by
      rw [step]
      exact (h.parts.firstLike pattern).derivedFrom
  | .length, src, cur, _ => by
      rw [step]
      exact anchored_count src cur
  | .collect each, _, cur, h => by
      rw [step]
      split
      · exact anchored_gather (forall_mem_map fun e he =>
          resolve_anchored ev each (anchored_of_mem_array h he))
      · exact anchored_missing _
  | .query condition all each, _, cur, h => by
      rw [step]
      split
      · exact anchored_missing _
      · dsimp only
        split
        · exact anchored_gather_origin (forall_mem_map fun e he =>
            resolve_anchored ev each (h.parts.of_mem_elementViews (List.mem_filter.1 he).1))
        · exact (h.parts.firstWhere fun e => holds ev e condition).derivedFrom
  | .select asArray entries, _, _, _ => by
      rw [step]
      exact anchored_ofText _ _
  | .literal json, _, _, _ => by
      rw [step]
      exact anchored_ofText _ json
  | .transform name argument source, _, _, h => by
      rw [step]
      exact (anchored_applyTransformer ev h name argument source).derivedFrom
  | .descend pattern each, _, _, h => by
      rw [step]
      exact anchored_gather_origin (forall_mem_map fun e he =>
        resolve_anchored ev each (h.parts.of_mem_descendants he))
  | .lines each, _, _, h => by
      rw [step]
      exact anchored_gather_origin (forall_mem_map fun e he =>
        resolve_anchored ev each (h.parts.of_mem_streamViews he))

end

/-! ## From documents -/

theorem anchored_document (json : Text) : Anchored (some json) (document json) := by
  unfold document
  split
  · next v hv =>
      obtain ⟨hstands, hfills⟩ := isIn_of_firstValue? hv
      refine ⟨fun _ => hfills, fun _ => ⟨v.offset, ?_, hstands⟩, nofun, collects_of_nil rfl⟩
      simp [ofOccurrence]
  · exact anchored_missing _

/-- The values of a stream are anchored in it; the whole text is no value that could be. -/
theorem wholeText_parts (json : Text) :
    HoldsOfParts (Anchored ((wholeText json).origin (some json))) (wholeText json) :=
  anchored_parts fun _ => ⟨0, rfl, standsAt_self json⟩

/-- What a path selects in a document is anchored in it. -/
theorem eval_anchored (ev : Evaluator) (json : Text) (path : Path) :
    Anchored (some json) (ev.eval json path) := by
  unfold eval
  split
  · next each rest =>
      refine resolve_anchored ev rest ?_
      rw [step]
      exact anchored_gather_origin (forall_mem_map fun e he =>
        resolve_anchored ev each ((wholeText_parts json).of_mem_streamViews he))
  · exact resolve_anchored ev path (anchored_document json)

/-- The results of a segment, one by one, are anchored like the array that they would make up. -/
theorem items_anchored (ev : Evaluator) {src : Option Text} {cur : Selection}
    (h : Anchored src cur) (s : Segment) : ∀ r ∈ ev.items cur s, Anchored src r := by
  cases s with
  | collect each =>
      intro r hr
      rw [items] at hr
      split at hr
      · obtain ⟨e, he, rfl⟩ := List.mem_map.1 (mem_of_mem_present hr).1
        exact resolve_anchored ev each (anchored_of_mem_array h he)
      · cases hr
  | query condition all each =>
      cases all with
      | false =>
          intro r hr
          cases hr
      | true =>
          rw [items]
          exact anchored_of_mem_results fun e he =>
            resolve_anchored ev each (h.parts.of_mem_elementViews (List.mem_filter.1 he).1)
  | descend pattern each =>
      rw [items]
      exact anchored_of_mem_results fun e he =>
        resolve_anchored ev each (h.parts.of_mem_descendants he)
  | lines each =>
      rw [items]
      exact anchored_of_mem_results fun e he =>
        resolve_anchored ev each (h.parts.of_mem_streamViews he)
  | _ =>
      intro r hr
      cases hr

/-- Every result of a path on a document is anchored in it. -/
theorem evalAll_anchored (ev : Evaluator) (json : Text) (path : Path) :
    ∀ r ∈ ev.evalAll json path, Anchored (some json) r := by
  have hone : ∀ r ∈ asResults (ev.eval json path), Anchored (some json) r := by
    intro r hr
    unfold asResults at hr
    split at hr
    · rw [List.mem_singleton.1 hr]
      exact eval_anchored ev json path
    · cases hr
  unfold evalAll
  split
  · split
    · exact hone
    · split
      · next each _ _ _ =>
          rw [items]
          exact anchored_of_mem_results fun e he =>
            resolve_anchored ev each ((wholeText_parts json).of_mem_streamViews he)
      · dsimp only
        split
        · exact items_anchored ev (eval_anchored ev json _) _
        · simp
  · exact hone

end Evaluator

/-! ## Everything that is reached from a document -/

/--
A selection that is reached from a document: what a path selects there, by any evaluator, and what
is reached from there by following further paths, by taking elements and by taking members.
-/
inductive Reached (json : Text) : Selection → Prop where
  | get (ev : Evaluator) (path : Text) : Reached json (ev.get json path)
  | getAll (ev : Evaluator) (path : Text) {s : Selection} :
      s ∈ ev.getAll json path → Reached json s
  | getFrom (ev : Evaluator) (path : Text) {s : Selection} :
      Reached json s → Reached json (ev.getFrom s path)
  | element {s e : Selection} : Reached json s → e ∈ s.array → Reached json e
  | member {s : Selection} {m : Text × Selection} :
      Reached json s → m ∈ s.members → Reached json m.2

open Selection

/-- The first of several members with a name is one of the members. -/
theorem mem_of_mem_foldl {named kept : List (Text × Selection)} {m : Text × Selection}
    (h : m ∈ named.foldl (fun kept m => if kept.any (·.1 == m.1) then kept else kept ++ [m]) kept) :
    m ∈ kept ∨ m ∈ named := by
  induction named generalizing kept with
  | nil => exact .inl h
  | cons n named ih =>
      rw [List.foldl_cons] at h
      rcases ih h with h | h
      · split at h
        · exact .inl h
        · rcases List.mem_append.1 h with h | h
          · exact .inl h
          · exact .inr (List.mem_cons.2 (.inl (List.mem_singleton.1 h)))
      · exact .inr (List.mem_cons_of_mem n h)

theorem anchored_of_mem_members {src : Option Text} {s : Selection} (h : Anchored src s)
    {m : Text × Selection} (hm : m ∈ s.members) : Anchored src m.2 := by
  unfold Selection.members at hm
  split at hm
  · cases hm
  · rcases mem_of_mem_foldl hm with hm | hm
    · cases hm
    · obtain ⟨n, hn, rfl⟩ := List.mem_map.1 hm
      exact (h.parts.part (isIn_of_mem_members hn)).derivedFrom

/-- Every selection that is reached from a document is anchored in it. -/
theorem Reached.anchored {json : Text} {s : Selection} (h : Reached json s) :
    Anchored (some json) s := by
  induction h with
  | get ev path =>
      rw [Evaluator.get]
      split
      · exact ev.eval_anchored json _
      · exact anchored_missing _
  | getAll ev path hs =>
      rw [Evaluator.getAll] at hs
      split at hs
      · exact ev.evalAll_anchored json _ _ hs
      · cases hs
  | getFrom ev path _ ih =>
      rw [Evaluator.getFrom]
      split
      · exact ev.resolve_anchored _ ih
      · exact anchored_missing _
  | element _ he ih => exact anchored_of_mem_array ih he
  | member _ hm ih => exact anchored_of_mem_members ih hm

/-! ## Paths that only give views -/

/-- Whether a segment narrows the current value to a part of it. -/
def Segment.narrows : Segment → Bool
  | .field _ | .index _ | .wildcard _ => true
  | .query _ all _ => !all
  | _ => false

/-- A view, or nothing. -/
def Selection.IsViewOrMissing (s : Selection) : Prop :=
  s.isPresent = true → s.isView = true

theorem isViewOrMissing_missing : missing.IsViewOrMissing := by
  intro h
  cases h

theorem isViewOrMissing_parts (s : Selection) : HoldsOfParts IsViewOrMissing s :=
  ⟨isViewOrMissing_missing, fun _ _ => rfl⟩

section Narrowing

/-- A narrowing segment gives a part of what it looks at, or nothing. -/
theorem isViewOrMissing_step (ev : Evaluator) {cur : Selection} (hcur : cur.isView = true)
    {segment : Segment} (hs : segment.narrows = true) :
    (ev.step cur segment).IsViewOrMissing := by
  have hparts := isViewOrMissing_parts cur
  have hderived : ∀ {r : Selection}, r.IsViewOrMissing → (cur.derivedFrom r).IsViewOrMissing := by
    intro r hr
    rw [derivedFrom, hcur]
    exact hr
  cases segment with
  | field name =>
      rw [Evaluator.step]
      exact hderived (hparts.field name)
  | index n =>
      rw [Evaluator.step]
      exact hderived (hparts.item n)
  | wildcard pattern =>
      rw [Evaluator.step]
      exact hderived (hparts.firstLike pattern)
  | query condition all each =>
      obtain rfl : all = false := by simpa [Segment.narrows] using hs
      rw [Evaluator.step]
      split
      · exact isViewOrMissing_missing
      · exact hderived (hparts.firstWhere fun e => ev.holds e condition)
  | _ => cases hs

/-- A path of narrowing segments never leaves the document. -/
theorem isViewOrMissing_resolve (ev : Evaluator) {path : Path}
    (hpath : ∀ segment ∈ path, segment.narrows = true) {cur : Selection}
    (hcur : cur.IsViewOrMissing) : (ev.resolve cur path).IsViewOrMissing := by
  induction path generalizing cur with
  | nil => exact hcur
  | cons segment path ih =>
      have hs := hpath segment List.mem_cons_self
      have hlit : segment.isLiteral = false := by
        cases segment <;> first | rfl | cases hs
      rw [Evaluator.resolve]
      split
      · exact isViewOrMissing_missing
      · next hpresent =>
          have hview : cur.isView = true := by
            refine hcur ?_
            simpa [hlit] using hpresent
          exact ih (fun q hq => hpath q (List.mem_cons_of_mem segment hq))
            (isViewOrMissing_step ev hview hs)

theorem isViewOrMissing_eval (ev : Evaluator) (json : Text) {path : Path}
    (hpath : ∀ segment ∈ path, segment.narrows = true) :
    (ev.eval json path).IsViewOrMissing := by
  have hdoc : (document json).IsViewOrMissing := by
    unfold document
    split
    · intro _
      rfl
    · exact isViewOrMissing_missing
  unfold Evaluator.eval
  split
  · next each rest =>
      have := hpath (.lines each) List.mem_cons_self
      cases this
  · exact isViewOrMissing_resolve ev hpath hdoc

/-- Nor does any of its results, one by one. -/
theorem isViewOrMissing_evalAll (ev : Evaluator) (json : Text) {path : Path}
    (hpath : ∀ segment ∈ path, segment.narrows = true) :
    ∀ r ∈ ev.evalAll json path, r.IsViewOrMissing := by
  have hone : ∀ r ∈ Evaluator.asResults (ev.eval json path), r.IsViewOrMissing := by
    intro r hr
    unfold Evaluator.asResults at hr
    split at hr
    · rw [List.mem_singleton.1 hr]
      exact isViewOrMissing_eval ev json hpath
    · cases hr
  unfold Evaluator.evalAll
  split
  · next last hlast =>
      have hlast' := hpath last (List.mem_of_getLast? hlast)
      have hgathers : last.gathers = false := by
        cases last with
        | query condition all each => simpa [Segment.narrows, Segment.gathers] using hlast'
        | _ => first | rfl | cases hlast'
      rw [hgathers]
      exact hone
  · exact hone

end Narrowing

/--
In octets: a view that is reached from a document starts at its offset there, and a text of its own
has no offset. The offsets that go with collected values are those of some of the elements, in their
order. And a path of keys, positions, wildcards and queries for the first match gives nothing but
views.
-/
theorem reached_offsets (json : Text) :
    (∀ s, Reached json s →
      (s.isView = true → s.isPresent = true → ∃ i, s.index = some i ∧
        json.utf8Encode.extract i (i + s.raw.utf8Encode.size) = s.raw.utf8Encode) ∧
      (s.isView = false → s.index = none) ∧
      ∃ found, found.Sublist (elements s.raw) ∧
        List.Forall₂ (fun e i => Fills e.kind e.raw ∧
          json.utf8Encode.extract i (i + e.raw.utf8Encode.size) = e.raw.utf8Encode)
            found s.indexes) ∧
    ∀ (ev : Evaluator) (path : Text) (segments : Path), Path.compile path = .ok segments →
      (∀ segment ∈ segments, segment.narrows = true) →
        ∀ s ∈ ev.get json path :: ev.getAll json path, s.isPresent = true → s.isView = true := by
  constructor
  · intro s hs
    have h := hs.anchored
    refine ⟨fun hview _ => ?_, h.owned, ?_⟩
    · obtain ⟨i, hi, hstands⟩ := h.view hview
      refine ⟨i, hi, ?_⟩
      rw [Text.size_utf8Encode]
      exact hstands.extract_eq
    · obtain ⟨found, hsub, hall⟩ := h.collects
      refine ⟨found, hsub, (List.forall₂_and_left _ _).2 ⟨?_, hall.imp fun e i he => ?_⟩⟩
      · intro e he
        exact (isIn_of_mem_elements (hsub.subset he)).2
      · rw [Text.size_utf8Encode]
        exact he.extract_eq
  · intro ev path segments hcompile hnarrows s hs
    rw [Evaluator.get, Evaluator.getAll, hcompile] at hs
    rcases List.mem_cons.1 hs with rfl | hs
    · exact isViewOrMissing_eval ev json hnarrows
    · exact isViewOrMissing_evalAll ev json hnarrows s hs

end DotPath
