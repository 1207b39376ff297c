import DotPath.Proofs.Evaluator.Follow
import DotPath.Proofs.Evaluator.Located
import DotPath.Proofs.Json.Merged
import DotPath.Proofs.Path.Compile

/-!
# The text alone decides what a path selects

A selection is a value with its text, and besides it knows whether the text is a part of the
document and where it starts there. The evaluator hands these on at every step, and it goes two ways
about it: what is made from a view is a view, what is made from a text of its own is a text of its
own. None of this has a part in what is selected. Two selections of the same kind and text lead to
the same kind and text, along every path.

So a selection may be detached, or its text may be taken for a document of its own, and the paths
from it still lead to the same. The latter needs that the text of a selection, read again, is the
selection, in a malformed document as well.

## Main results

* `Evaluator.resolve_alike`: selections of the same kind and text lead to such.
* `Evaluator.text_decides`: a path from a selection, from the detached selection and from its text.
-/

namespace DotPath

open Json

namespace Selection

/-- Two selections of the same kind and text, wherever they come from. -/
structure Alike (s r : Selection) : Prop where
  kind : s.kind = r.kind
  raw : s.raw = r.raw

variable {s r u : Selection}

theorem Alike.refl (s : Selection) : s.Alike s :=
  ⟨rfl, rfl⟩

theorem Alike.symm (h : s.Alike r) : r.Alike s :=
  ⟨h.kind.symm, h.raw.symm⟩

theorem Alike.trans (h : s.Alike r) (h' : r.Alike u) : s.Alike u :=
  ⟨h.kind.trans h'.kind, h.raw.trans h'.raw⟩

theorem alike_detach (s : Selection) : s.detach.Alike s :=
  ⟨rfl, rfl⟩

theorem alike_derivedFrom (s r : Selection) : (s.derivedFrom r).Alike r := by
  unfold derivedFrom
  split
  · exact .refl r
  · exact alike_detach r

theorem Alike.derivedFrom {s' r' : Selection} (h : s.Alike r) :
    (s'.derivedFrom s).Alike (r'.derivedFrom r) :=
  ((alike_derivedFrom s' s).trans h).trans (alike_derivedFrom r' r).symm

/-- A value is alike wherever the text starts that it is found in. -/
theorem alike_ofOccurrence (base base' : Option Nat) (v : Occurrence) :
    (ofOccurrence base v).Alike (ofOccurrence base' v) :=
  ⟨rfl, rfl⟩

/-- The members are those that a scan of the text finds, of each decoded name the first. -/
theorem map_members (hobject : s.isObject = true) :
    s.members.map (fun m => (m.1, m.2.kind, m.2.raw)) =
      firstMembers ((Json.members s.raw).map fun m =>
        (Quoted.text m.key.raw, m.value.kind, m.value.raw)) := by
  have hscan : ((Json.members s.raw).map fun m =>
      (Quoted.text m.key.raw, s.derivedFrom (ofOccurrence s.base m.value))).map
        (fun m => (m.1, m.2.kind, m.2.raw)) =
      (Json.members s.raw).map fun m => (Quoted.text m.key.raw, m.value.kind, m.value.raw) := by
    rw [List.map_map]
    refine List.map_congr_left fun m _ => ?_
    have halike := alike_derivedFrom s (ofOccurrence s.base m.value)
    exact Prod.ext rfl (Prod.ext halike.kind halike.raw)
  rw [members, hobject, ← hscan, firstMembers_map fun v : Selection => (v.kind, v.raw)]
  rfl

/-! ## What is asked of a selection -/

theorem Alike.isPresent_eq (h : s.Alike r) : s.isPresent = r.isPresent := by
  rw [isPresent, isPresent, h.raw]

theorem Alike.isArray_eq (h : s.Alike r) : s.isArray = r.isArray := by
  rw [isArray, isArray, h.kind, h.raw]

theorem Alike.text_eq (h : s.Alike r) : s.text = r.text := by
  rw [text, text, h.kind, h.raw]

theorem Alike.meets_eq (h : s.Alike r) (operator : Operator) (operand : Operand) :
    s.meets operator operand = r.meets operator operand := by
  obtain ⟨kind, raw, isView, index, indexes⟩ := s
  obtain ⟨rfl, rfl⟩ := h
  rfl

/-! ## What segments look at -/

/-- Values that are found in one text are alike wherever the text starts. -/
theorem alike_map {α : Type} {f g : α → Selection} (h : ∀ a, (f a).Alike (g a)) (as : List α) :
    List.Forall₂ Alike (as.map f) (as.map g) :=
  List.forall₂_map_left_iff.2 (List.forall₂_map_right_iff.2 (List.forall₂_same.2 fun a _ => h a))

theorem Alike.elementViews (h : s.Alike r) :
    List.Forall₂ Alike s.elementViews r.elementViews := by
  rw [Selection.elementViews, Selection.elementViews, h.raw]
  exact alike_map (alike_ofOccurrence s.base r.base) _

theorem Alike.streamViews (h : s.Alike r) : List.Forall₂ Alike s.streamViews r.streamViews := by
  rw [Selection.streamViews, Selection.streamViews, h.raw]
  exact alike_map (alike_ofOccurrence s.base r.base) _

theorem Alike.array (h : s.Alike r) : List.Forall₂ Alike s.array r.array := by
  rw [Selection.array, Selection.array, h.isPresent_eq, h.isArray_eq, h.raw]
  split
  · exact .nil
  · split
    · exact .cons h .nil
    · exact alike_map (fun v => (alike_ofOccurrence s.base r.base v).derivedFrom) _

theorem Alike.descendants (h : s.Alike r) (depth : Nat) (pattern : Text) :
    List.Forall₂ Alike (s.descendants depth pattern) (r.descendants depth pattern) := by
  rw [Selection.descendants, Selection.descendants, h.raw]
  refine List.rel_filterMap ?_ (List.forall₂_same.2 fun visit _ => rfl)
  rintro visit _ rfl
  dsimp only
  split
  · split
    · exact .some (alike_ofOccurrence s.base r.base visit.value)
    · exact .none
  · exact .none

theorem Alike.field (h : s.Alike r) (name : Text) : (s.field name).Alike (r.field name) := by
  rw [Selection.field, Selection.field, h.raw]
  split
  · exact alike_ofOccurrence s.base r.base _
  · exact .refl _

/-- The entries that are chosen from both lists in the same way, where there is one. -/
theorem alike_getD {o o' : Option Selection} (h : Option.Rel Alike o o') :
    (o.getD missing).Alike (o'.getD missing) := by
  cases h with
  | none => exact .refl _
  | some h => exact h

theorem Alike.item (h : s.Alike r) (n : Nat) : (s.item n).Alike (r.item n) := by
  rw [Selection.item, Selection.item, h.raw]
  split
  · rw [List.getD_eq_getElem?_getD, List.getD_eq_getElem?_getD]
    exact alike_getD (rel_getElem? h.elementViews n)
  · exact h.field _

theorem Alike.firstLike (h : s.Alike r) (pattern : Text) :
    (s.firstLike pattern).Alike (r.firstLike pattern) := by
  rw [Selection.firstLike, Selection.firstLike, h.raw]
  split
  · split
    · exact alike_ofOccurrence s.base r.base _
    · exact .refl _
  · exact alike_getD (rel_find? h.elementViews fun a b hab => by rw [hab.text_eq])

theorem Alike.count (h : s.Alike r) : s.count.Alike r.count := by
  rw [Selection.count, Selection.count, h.raw]
  exact .refl _

/-! ## What segments make -/

section Lists

variable {α β : Type} {R : α → β → Prop} {as : List α} {bs : List β}

/-- Tests that give the same on related entries leave related entries. -/
theorem forall₂_filter {p : α → Bool} {q : β → Bool} (h : List.Forall₂ R as bs)
    (hpq : ∀ a b, R a b → p a = q b) : List.Forall₂ R (as.filter p) (bs.filter q) := by
  refine List.rel_filter (fun a b hab => ?_) h
  show p a = true ↔ q b = true
  rw [hpq a b hab]

/-- What is alike one by one is alike once nothing is left out. -/
theorem alike_present {f : α → Selection} {g : β → Selection} (h : List.Forall₂ R as bs)
    (hfg : ∀ a b, R a b → (f a).Alike (g b)) :
    List.Forall₂ Alike (present (as.map f)) (present (bs.map g)) := by
  have hmap : List.Forall₂ Alike (as.map f) (bs.map g) :=
    List.forall₂_map_left_iff.2 (List.forall₂_map_right_iff.2 (h.imp hfg))
  exact forall₂_filter hmap fun a b hab => hab.isPresent_eq

end Lists

/-- An array is written with the texts of what it is made of, and with nothing else. -/
theorem alike_gather {found found' : List Selection} (h : List.Forall₂ Alike found found') :
    (gather found).Alike (gather found') := by
  have hraws : found.map (·.raw) = found'.map (·.raw) :=
    map_eq_of_forall₂ (h.imp fun a b hab => hab.raw)
  refine ⟨rfl, ?_⟩
  show composeArray _ = composeArray _
  rw [hraws]

/-- So is what a selector makes of its entries. -/
theorem assemble_eq_of_alike {entries entries' : List (Text × Selection)}
    (h : List.Forall₂ (fun e e' => e.1 = e'.1 ∧ e.2.Alike e'.2) entries entries')
    (asArray : Bool) : assemble asArray entries = assemble asArray entries' := by
  have hkept : List.Forall₂ (fun e e' => e.1 = e'.1 ∧ e.2.Alike e'.2)
      (entries.filter (·.2.isPresent)) (entries'.filter (·.2.isPresent)) :=
    forall₂_filter h fun e e' he => he.2.isPresent_eq
  have hraws : (entries.filter (·.2.isPresent)).map (·.2.raw) =
      (entries'.filter (·.2.isPresent)).map (·.2.raw) :=
    map_eq_of_forall₂ (hkept.imp fun e e' he => he.2.raw)
  have hpairs : (entries.filter (·.2.isPresent)).map (fun e => (e.1, e.2.raw)) =
      (entries'.filter (·.2.isPresent)).map fun e => (e.1, e.2.raw) :=
    map_eq_of_forall₂ (hkept.imp fun e e' he => Prod.ext he.1 he.2.raw)
  rw [assemble, assemble, hraws]
  exact congrArg (fun pairs => ofText (if asArray then _ else composeObject pairs)) hpairs

/-! ## Texts that are read again -/

theorem Located.of_alike (h : Located s) (halike : s.Alike r) : Located r := by
  rw [Located, ← halike.kind, ← halike.raw]
  exact h

theorem Located.alike_missing (h : Located s) (habsent : s.isPresent = false) :
    s.Alike missing := by
  have hraw : s.raw = [] := by simpa [isPresent] using habsent
  exact ⟨h.nullIfAbsent habsent, hraw⟩

/-- A result is the value that its text is read as. -/
theorem Located.alike_document (h : Located s) : (document s.raw).Alike s :=
  ⟨h.document_eq.1, h.document_eq.2⟩

/-- The elements of a value are values themselves. -/
theorem Located.fills_of_mem_array (h : Located s) : ∀ e ∈ s.array, Fills e.kind e.raw := by
  intro e he
  unfold Selection.array at he
  split at he
  · cases he
  · next hpresent =>
      split at he
      · obtain rfl := List.mem_singleton.1 he
        exact h.fills (by simpa using hpresent)
      · obtain ⟨v, hv, rfl⟩ := List.mem_map.1 he
        have halike := alike_derivedFrom s (ofOccurrence s.base v)
        rw [halike.kind, halike.raw]
        exact (isIn_of_mem_elements hv).2

end Selection

namespace Evaluator

open Selection

theorem alike_applyTransformer (ev : Evaluator) {s r : Selection} (h : s.Alike r) (name : Text)
    (argument : Option Text) (source : Text) :
    (ev.applyTransformer s name argument source).Alike
      (ev.applyTransformer r name argument source) := by
  unfold applyTransformer
  split
  · split
    · rw [h.raw]
      exact .refl _
    · exact ⟨h.kind, h.raw⟩
  · exact h.field source

/-! ## Segments and paths -/

mutual

/-- Selections of the same kind and text lead to such, along every path. -/
theorem resolve_alike (ev : Evaluator) :
    ∀ (path : Path) {s r : Selection}, s.Alike r → (ev.resolve s path).Alike (ev.resolve r path)
  | [], s, r, h => by
      rw [resolve, resolve]
      exact h
  | segment :: rest, s, r, h => by
      rw [resolve, resolve, h.isPresent_eq]
      split
      · exact .refl _
      · exact resolve_alike ev rest (step_alike ev segment h)

/-- So they do by every segment. -/
theorem step_alike (ev : Evaluator) :
    ∀ (segment : Segment) {s r : Selection}, s.Alike r →
      (ev.step s segment).Alike (ev.step r segment)
  | .field name, s, r, h => by
      rw [step, step]
      exact (h.field name).derivedFrom
  | .index n, s, r, h => by
      rw [step, step]
      exact (h.item n).derivedFrom
  | .wildcard pattern, s, r, h => by
      rw [step, step]
      exact (h.firstLike pattern).derivedFrom
  | .length, s, r, h => by
      rw [step, step]
      exact h.count
  | .collect each, s, r, h => by
      rw [step, step, h.isArray_eq]
      split
      · exact alike_gather (alike_present h.array fun a b hab => resolve_alike ev each hab)
      · exact .refl _
  | .query condition all each, s, r, h => by
      have hfound : List.Forall₂ Alike (s.elementViews.filter fun e => holds ev e condition)
          (r.elementViews.filter fun e => holds ev e condition) :=
        forall₂_filter h.elementViews fun a b hab => holds_of_alike ev condition hab
      rw [step, step, h.raw]
      split
      · exact .refl _
      · dsimp only
        split
        · exact alike_gather (alike_present hfound fun a b hab => resolve_alike ev each hab)
        · refine Alike.derivedFrom ?_
          rw [List.headD_eq_head?_getD, List.headD_eq_head?_getD, List.head?_eq_getElem?,
            List.head?_eq_getElem?]
          exact alike_getD (rel_getElem? hfound 0)
  | .select asArray entries, s, r, h => by
      rw [step, step, assemble_eq_of_alike (resolveEntries_alike ev entries h)]
      exact .refl _
  | .literal json, s, r, _ => by
      rw [step, step]
      exact .refl _
  | .transform name argument source, s, r, h => by
      rw [step, step]
      exact (alike_applyTransformer ev h name argument source).derivedFrom
  | .descend pattern each, s, r, h => by
      rw [step, step]
      exact alike_gather (alike_present (h.descendants _ pattern) fun a b hab =>
        resolve_alike ev each hab)
  | .lines each, s, r, h => by
      rw [step, step]
      exact alike_gather (alike_present h.streamViews fun a b hab => resolve_alike ev each hab)

/-- A condition holds of both or of neither. -/
theorem holds_of_alike (ev : Evaluator) :
    ∀ (c : Condition) {s r : Selection}, s.Alike r → ev.holds s c = ev.holds r c
  | .holds field, s, r, h => by
      rw [holds, holds]
      exact (resolve_alike ev field h).isPresent_eq
  | .compare field operator operand, s, r, h => by
      rw [holds, holds]
      exact (resolve_alike ev field h).meets_eq operator operand
  | .both left right, s, r, h => by
      rw [holds, holds, holds_of_alike ev left h, holds_of_alike ev right h]
  | .either left right, s, r, h => by
      rw [holds, holds, holds_of_alike ev left h, holds_of_alike ev right h]

/-- The paths of a selector lead to such, each under its key. -/
theorem resolveEntries_alike (ev : Evaluator) :
    ∀ (entries : List (Text × Path)) {s r : Selection}, s.Alike r →
      List.Forall₂ (fun e e' => e.1 = e'.1 ∧ e.2.Alike e'.2) (ev.resolveEntries s entries)
        (ev.resolveEntries r entries)
  | [], s, r, _ => by
      rw [resolveEntries, resolveEntries]
      exact .nil
  | (key, path) :: rest, s, r, h => by
      rw [resolveEntries, resolveEntries]
      exact .cons ⟨rfl, resolve_alike ev path h⟩ (resolveEntries_alike ev rest h)

end

/-- What is one value, or nothing, leads to what is one value, or nothing. -/
theorem resolve_located (ev : Evaluator) {s : Selection} (h : Located s) (path : Path) :
    Located (ev.resolve s path) := by
  have halike : Alike ⟨s.kind, s.raw, false, none, []⟩ s := ⟨rfl, rfl⟩
  have hnull : NullIfAbsent (ev.resolve ⟨s.kind, s.raw, false, none, []⟩ path) :=
    isRightFor_empty.resolve ev h.nullIfAbsent
  exact ((ev.resolve_anchored path h.anchored).located hnull).of_alike
    (ev.resolve_alike path halike)

/-! ## Paths as texts -/

theorem getFrom_alike (ev : Evaluator) {s r : Selection} (h : s.Alike r) (path : Text) :
    (ev.getFrom s path).Alike (ev.getFrom r path) := by
  unfold getFrom
  split
  · exact ev.resolve_alike _ h
  · exact .refl _

theorem get_located (ev : Evaluator) (json path : Text) : Located (ev.get json path) := by
  unfold get
  split
  · exact ev.eval_located json _
  · exact located_missing

theorem getFrom_located (ev : Evaluator) {s : Selection} (h : Located s) (path : Text) :
    Located (ev.getFrom s path) := by
  unfold getFrom
  split
  · exact ev.resolve_located h _
  · exact located_missing

/-- A document is followed from its first value, unless the path takes it for a stream. -/
theorem get_eq_getFrom_document (ev : Evaluator) (json : Text) {path : Text}
    (hdots : ¬ ['.', '.'] <+: path) : ev.get json path = ev.getFrom (document json) path := by
  unfold get getFrom
  split
  · next segments hpath =>
      refine ev.eval_of_ne_lines json fun each hhead => ?_
      obtain ⟨rest, rfl⟩ := List.head?_eq_some_iff.1 hhead
      exact hdots (dots_of_compile_lines hpath)
  · rfl

/--
The text alone decides what a path selects. From selections of the same kind and text every path
leads to the same kind and text. In particular it makes no difference to what a path selects whether
it is followed from a result, from the result as a text of its own, or from the text of the result
as a document: whether the result is a view, is made by a segment or is nothing, and whether the
document is well formed or not. The path must not begin with two dots, which make it take a document
for a stream.
-/
theorem text_decides (ev : Evaluator) {second : Text} (hdots : ¬ ['.', '.'] <+: second) :
    (∀ (path : Path) (s r : Selection), s.Alike r →
      (ev.resolve s path).Alike (ev.resolve r path)) ∧
      ∀ (ev' : Evaluator) (json first : Text),
        (ev.getFrom (ev'.get json first).detach second).Alike
            (ev.getFrom (ev'.get json first) second) ∧
          (ev.get (ev'.get json first).raw second).Alike
            (ev.getFrom (ev'.get json first) second) := by
  refine ⟨fun path s r h => ev.resolve_alike path h, fun ev' json first => ⟨?_, ?_⟩⟩
  · exact ev.getFrom_alike (alike_detach _) second
  · rw [ev.get_eq_getFrom_document _ hdots]
    exact ev.getFrom_alike (ev'.get_located json first).alike_document second

/-- The second of several elements that are collected from a malformed array, whose text is new. -/
theorem text_decides_of_collected :
    ¬ ['.', '.'] <+: "1".toList ∧
      (Evaluator.get ⟨⟨true, 256⟩, fun _ => none⟩
        (Evaluator.get ⟨⟨true, 256⟩, fun _ => none⟩ "[[1],[2,]\x7d".toList "#.0".toList).raw
          "1".toList).raw = ['2'] := by
  have hdots : ¬ ['.', '.'] <+: "1".toList := by decide
  have h := (text_decides ⟨⟨true, 256⟩, fun _ => none⟩ hdots).2 ⟨⟨true, 256⟩, fun _ => none⟩
    "[[1],[2,]\x7d".toList "#.0".toList
  have hraw : (Evaluator.getFrom ⟨⟨true, 256⟩, fun _ => none⟩
      (Evaluator.get ⟨⟨true, 256⟩, fun _ => none⟩ "[[1],[2,]\x7d".toList "#.0".toList)
        "1".toList).raw = ['2'] := by
    decide +kernel
  exact ⟨hdots, h.2.raw.trans hraw⟩

end Evaluator

end DotPath
