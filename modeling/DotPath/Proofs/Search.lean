import DotPath.Proofs.Evaluator.Follow
import DotPath.Proofs.Json.Nodes
import DotPath.Proofs.Path.Plain
import DotPath.Search

/-!
# Listed paths lead back

A search lists the paths to the values that it finds. Its trails are of decoded keys and positions;
a path is written from a trail with the keys escaped; compiling reads the components again, digits
as positions; and following looks the names up among the decoded keys. In a well-formed document all
of these are the same notion of a name, if the names in an object are distinct and none of them is
digits behind a zero too many.

## Main results

* `Evaluator.step_view`: one step leads to the part that it was taken from.
* `Evaluator.get_path`: the path of a trail leads to the value that the trail leads to.
* `Evaluator.leafPaths_lead_back`: the paths that are listed, and the paths to a given text.
-/

namespace DotPath

open Json Selection

namespace Json

/--
The names in an object tell its members apart: no two are the same, and none of them is digits
behind a zero too many, which are read as the position without the zero.
-/
structure Tree.ClearNames (t : Tree) : Prop where
  distinct : (t.members.map (·.1)).Nodup
  unpadded : ∀ m ∈ t.members, ¬ Number.IsPadded m.1

instance (t : Tree) : Decidable t.ClearNames :=
  decidable_of_iff ((t.members.map (·.1)).Nodup ∧ ∀ m ∈ t.members, ¬ Number.IsPadded m.1)
    ⟨fun h => ⟨h.1, h.2⟩, fun h => ⟨h.distinct, h.unpadded⟩⟩

/-- Whether a value is no container. -/
def Tree.isScalar : Tree → Bool
  | .scalar .. => true
  | _ => false

/-- A value that begins at offset `k` of a document, as a view of the document. -/
def Tree.view (t : Tree) (k : Nat) : Selection :=
  ⟨t.kind, t.source, true, some k, []⟩

/-- A value of a document as a view of it. -/
def Node.view (n : Node) : Selection :=
  n.value.view n.offset

/--
The scalars of a document down to a depth that have a path: those below the root to which no empty
key leads.
-/
def Document.leaves (d : Document) (depth : Nat) : List Node :=
  (d.nodes depth).filter fun n => n.value.isScalar && n.trail ≠ [] && .key [] ∉ n.trail

/-! ## One step -/

namespace Tree

variable {t : Tree} {k : Nat} {p : Part}

/-- What a scan finds is a view of the part at its place. -/
theorem ofOccurrence_eq_view {v : Occurrence} {u : Tree} {o : Nat}
    (h : v.shift k = u.occurrence o) : ofOccurrence (some k) v = u.view o := by
  obtain ⟨kind, offset, raw⟩ := v
  cases h
  rfl

/-- The first part of a value at offset `k` to which a name leads, as a view; or nothing. -/
def named (k : Nat) (name : Text) (t : Tree) : Selection :=
  match (t.parts k).find? fun p => p.step == .key name with
  | some p => p.value.view p.offset
  | none => missing

/-- The member with a name is the first part to which the name leads. -/
theorem field_view_eq_named (h : t.isObject = true) (k : Nat) (name : Text) :
    (t.view k).field name = t.named k name := by
  have hfound : List.Forall₂ (fun m q =>
      (Step.key (Quoted.text m.key.raw), m.value.shift k) = (q.step, q.value.occurrence q.offset))
        (Json.members t.source) (t.parts k) := by
    refine forall₂_of_map_eq ?_
    rw [← children_of_isObject h, children_occurrence]
  have hrel := rel_find? (p := fun m => Quoted.text m.key.raw == name)
    (q := fun q => q.step == .key name) hfound fun m q heq => by
      rw [← (Prod.mk.inj heq).1]
      simp
  have hraw : (t.view k).raw = t.source := rfl
  rw [Selection.field, hraw, named]
  generalize (Json.members t.source).find? (fun m => Quoted.text m.key.raw == name) = found
    at hrel ⊢
  generalize (t.parts k).find? (fun q => q.step == .key name) = part at hrel ⊢
  cases hrel with
  | none => rfl
  | some heq => exact ofOccurrence_eq_view (Prod.mk.inj heq).2

/-- The member with a name is the part that the step with the name leads to. -/
theorem field_view (h : t.isObject = true) (hnames : t.ClearNames) (hp : p ∈ t.parts k)
    {name : Text} (hstep : p.step = .key name) :
    (t.view k).field name = p.value.view p.offset := by
  have hdistinct : ((t.parts k).map (·.step)).Nodup := by
    rw [map_step_parts h]
    exact List.Nodup.map (fun a b hab => Step.key.inj hab) hnames.distinct
  have hfirst := find?_of_nodup_map hdistinct hp
  rw [hstep] at hfirst
  rw [field_view_eq_named h, named, hfirst]

/-- The element at a position is the part that the step to the position leads to. -/
theorem item_view_of_isArray (h : t.isArray = true) (hp : p ∈ t.parts k) :
    ∃ n, p.step = .index n ∧ n < p.offset ∧ (t.view k).item n = p.value.view p.offset := by
  obtain ⟨n, hn⟩ := List.mem_iff_getElem?.1 hp
  obtain ⟨hstep, hoffset⟩ := getElem?_parts_of_isArray h hn
  refine ⟨n, hstep, hoffset, ?_⟩
  have hobject : t.isObject = false := by
    refine Bool.eq_false_iff.2 fun hobject => ?_
    rw [isArray_eq_false hobject] at h
    cases h
  have hchildren := congrArg (·[n]?) (children_of_not_isObject hobject k)
  rw [children_occurrence] at hchildren
  simp only [List.getElem?_map, List.getElem?_mapIdx, hn, Option.map_some] at hchildren
  obtain ⟨e, he, heq⟩ := Option.map_eq_some_iff.1 hchildren.symm
  have hview := ofOccurrence_eq_view (Prod.mk.inj heq).2
  have harray : opensArray (t.view k).raw = true := t.opensArray_source.trans h
  rw [Selection.item, if_pos harray, List.getD_eq_getElem?_getD, elementViews, List.getElem?_map]
  show ((Json.elements t.source)[n]?.map (ofOccurrence (some k))).getD missing = _
  rw [he, Option.map_some, hview]
  rfl

theorem view_isPresent (t : Tree) (k : Nat) : (t.view k).isPresent = true := by
  have := t.fills.ne_nil
  simpa [Selection.isPresent, view] using this

end Tree

end Json

/-! ## Trails as paths -/

namespace Json

/-- The segment that a step is read as, written as a component of a path. -/
def Step.segment (step : Step) : Segment :=
  plainSegment step.component

theorem Step.guarded_component {step : Step} (h : step ≠ .key []) :
    step.component ≠ [] ∧ Guarded step.component := by
  cases step with
  | key name =>
      refine ⟨fun hnil => h ?_, guarded_escapeComponent name⟩
      have hname : escapeComponent name = [] := hnil
      rw [← unescapeComponent_escapeComponent name, hname]
      rfl
  | index n =>
      exact ⟨Nat.toDigits_ne_nil, guarded_of_digits (Number.all_isDigit_ofNat n)⟩

/-- The path of a trail is read as the steps of the trail. -/
theorem Trail.compile_path {trail : Trail} (hne : trail ≠ []) (hkeys : .key [] ∉ trail) :
    Path.compile trail.path = .ok (trail.map Step.segment) := by
  have hcomponents : ∀ c ∈ trail.map Step.component, c ≠ [] ∧ Guarded c := by
    refine List.forall_mem_map.2 fun step hstep => step.guarded_component ?_
    rintro rfl
    exact hkeys hstep
  rw [Trail.path, compile_guarded (by simpa using hne) hcomponents, List.map_map]
  rfl

end Json

namespace Evaluator

/-- An escaped key leads to the first member with the name that it is read as. -/
theorem step_escapeComponent (ev : Evaluator) {t : Tree} (h : t.isObject = true) (k : Nat)
    {key : Text} (hne : key ≠ []) :
    ev.step (t.view k) (plainSegment (escapeComponent key)) = t.named k (nameRead key) := by
  -- A position is that of no element, so that it is written as a name again.
  have harray : opensArray (t.view k).raw = false :=
    t.opensArray_source.trans (Tree.isArray_eq_false h)
  rw [plainSegment_escapeComponent hne, nameRead]
  by_cases hdigits : key.all Char.isDigit = true ∧ Number.natOfDigits key ≤ Number.maxUInt64
  · rw [if_pos hdigits, if_pos hdigits, step, item, harray, ← Tree.field_view_eq_named h]
    rfl
  · rw [if_neg hdigits, if_neg hdigits, step, ← Tree.field_view_eq_named h]
    rfl

/-- One step leads to the part that it was taken from. -/
theorem step_view (ev : Evaluator) {t : Tree} {k : Nat} {p : Part} (hp : p ∈ t.parts k)
    (hnames : t.ClearNames) (hkey : p.step ≠ .key []) (hsize : p.offset ≤ Number.maxUInt64) :
    ev.step (t.view k) p.step.segment = p.value.view p.offset := by
  rcases Tree.isArray_or_isObject_of_mem_parts hp with harray | hobject
  · obtain ⟨n, hstep, hn, hitem⟩ := Tree.item_view_of_isArray harray hp
    rw [Step.segment, hstep, Step.component, plainSegment_ofNat (by omega), step, hitem]
    rfl
  · obtain ⟨m, hm, hstep⟩ : ∃ m ∈ t.members, p.step = .key m.1 := by
      have hmem : p.step ∈ (t.members.map (·.1)).map .key := by
        rw [← Tree.map_step_parts hobject k]
        exact List.mem_map_of_mem hp
      simpa [eq_comm] using hmem
    have hne : m.1 ≠ [] := by
      intro hnil
      exact hkey (by rw [hstep, hnil])
    rw [Step.segment, hstep, Step.component, ev.step_escapeComponent hobject k hne,
      nameRead_of_not_isPadded hne (hnames.unpadded m hm), ← Tree.field_view_eq_named hobject]
    exact Tree.field_view hobject hnames hp hstep

theorem resolve_nil (ev : Evaluator) (cur : Selection) : ev.resolve cur [] = cur := by
  rw [resolve]

/-- A value inside another one is reached by the steps that lead from there. -/
theorem resolve_nodes (ev : Evaluator) {depth : Nat} {trail : Trail} {k : Nat} {t : Tree}
    (hnames : ∀ n ∈ t.nodes depth trail k, n.value.ClearNames)
    (hsize : k + Text.byteLength t.source ≤ Number.maxUInt64) {n : Node}
    (hn : n ∈ t.nodes depth trail k) (hkeys : .key [] ∉ n.trail) :
    ∃ more, n.trail = trail ++ more ∧ ev.resolve (t.view k) (more.map Step.segment) = n.view := by
  induction depth generalizing trail k t with
  | zero =>
      obtain rfl := List.mem_singleton.1 hn
      exact ⟨[], (List.append_nil trail).symm, ev.resolve_nil _⟩
  | succ depth ih =>
      rcases List.mem_cons.1 hn with rfl | hinside
      · exact ⟨[], (List.append_nil trail).symm, ev.resolve_nil _⟩
      · obtain ⟨p, hp, hnode⟩ := List.mem_flatMap.1 hinside
        -- A part ends before its container does, so that its positions are machine words as well.
        have hbounds := Tree.bounds_of_mem_parts hp
        rw [Part.finish] at hbounds
        obtain ⟨more, htrail, hresolve⟩ := ih
          (fun m hm => hnames m (List.mem_cons_of_mem _ (List.mem_flatMap.2 ⟨p, hp, hm⟩)))
          (by omega) hnode
        have hkey : p.step ≠ .key [] := by
          intro hempty
          refine hkeys ?_
          rw [htrail, hempty]
          simp
        have hstep := ev.step_view hp (hnames _ List.mem_cons_self) hkey (by omega)
        refine ⟨p.step :: more, by rw [htrail, List.append_assoc]; rfl, ?_⟩
        rw [List.map_cons, resolve, t.view_isPresent, hstep]
        exact hresolve

theorem document_source (d : Document) :
    document d.source = d.root.view (Text.byteLength d.before.1) := by
  rw [document, d.firstValue?_source]
  show Selection.mk _ _ _ (some (0 + Text.byteLength d.before.1)) _ = _
  rw [Nat.zero_add]
  rfl

/-- The path of a trail leads to the value that the trail leads to. -/
theorem get_path (ev : Evaluator) {d : Document} {depth : Nat}
    (hnames : ∀ n ∈ d.nodes depth, n.value.ClearNames)
    (hsize : Text.byteLength d.source ≤ Number.maxUInt64) {n : Node} (hn : n ∈ d.nodes depth)
    (hne : n.trail ≠ []) (hkeys : .key [] ∉ n.trail) :
    ev.get d.source n.trail.path = n.view := by
  have hroot : Text.byteLength d.before.1 + Text.byteLength d.root.source ≤ Number.maxUInt64 := by
    rw [Document.source, Text.byteLength_append, Text.byteLength_append] at hsize
    omega
  obtain ⟨more, htrail, hresolve⟩ := ev.resolve_nodes hnames hroot hn hkeys
  rw [List.nil_append] at htrail
  rw [← htrail] at hresolve
  have hlines : ∀ each, (n.trail.map Step.segment).head? ≠ some (.lines each) := by
    intro each hhead
    rw [List.head?_map, Option.map_eq_some_iff] at hhead
    obtain ⟨step, -, hstep⟩ := hhead
    exact plainSegment_ne_lines _ each hstep
  have heval : ev.eval d.source (n.trail.map Step.segment) = n.view := by
    rw [ev.eval_of_ne_lines _ hlines, document_source, hresolve]
  rw [get, Trail.compile_path hne hkeys]
  exact heval

/-! ## Searches -/

/-- A search goes through the values of a document, each as a view of it. -/
theorem scan_source (ev : Evaluator) (d : Document) (accepts : Trail → Selection → Bool) :
    ev.scan d.source accepts =
      ((d.nodes ev.options.maxDepth).filter fun n => accepts n.trail n.view).map fun n =>
        (n.trail, n.view) := by
  have hview : ∀ n : Node, ofOccurrence (some 0) n.visit.value = n.view := by
    intro n
    show Selection.mk _ _ _ (some (0 + n.offset)) _ = _
    rw [Nat.zero_add]
    rfl
  rw [scan, d.walk_source, List.filterMap_map, ← List.filterMap_eq_map, List.filterMap_filter]
  refine congrArg (List.filterMap · _) (funext fun n => ?_)
  show (if accepts n.trail (ofOccurrence (some 0) n.visit.value) = true then _ else _) = _
  rw [hview]
  rfl

theorem isLeaf_view (n : Node) : isLeaf n.view = n.value.isScalar := by
  show (n.value.kind != .container) = n.value.isScalar
  cases n.value with
  | scalar kind raw spelled => cases spelled <;> rfl
  | _ => rfl

/-- What a search accepts as a leaf is a scalar below the root to which no empty key leads. -/
theorem accepts_leaf (n : Node) :
    (n.trail.isAddressable && isLeaf n.view) =
      (n.value.isScalar && n.trail ≠ [] && .key [] ∉ n.trail) := by
  rw [isLeaf_view, Bool.eq_iff_iff]
  simp only [Trail.isAddressable, Bool.and_eq_true, Bool.not_eq_true', List.isEmpty_eq_false_iff,
    List.all_eq_true, bne_iff_ne, decide_eq_true_eq]
  constructor
  · rintro ⟨⟨hne, hkeys⟩, hscalar⟩
    exact ⟨⟨hscalar, hne⟩, fun hmem => hkeys _ hmem rfl⟩
  · rintro ⟨⟨hscalar, hne⟩, hkeys⟩
    refine ⟨⟨hne, fun step hstep heq => hkeys (heq ▸ hstep)⟩, hscalar⟩

/-- The paths that are listed are those of the leaves. -/
theorem leafPaths_source (ev : Evaluator) (d : Document) :
    ev.leafPaths d.source = (d.leaves ev.options.maxDepth).map (·.trail.path) := by
  rw [leafPaths, scan_source, List.map_map, Document.leaves, funext accepts_leaf]
  rfl

theorem pathsTo_source (ev : Evaluator) (d : Document) (value : Text) :
    ev.pathsTo d.source value =
      ((d.leaves ev.options.maxDepth).filter fun n => n.view.text == value).map
        (·.trail.path) := by
  rw [pathsTo, scan_source, List.map_map, Document.leaves, List.filter_filter]
  refine congrArg (List.map _) (List.filter_congr fun n _ => ?_)
  rw [accepts_leaf, Bool.and_comm]

/--
In a well-formed document whose names are clear, the paths that are listed lead back. The document
has a tree, and for any the following holds. Followed one by one, the listed paths lead to the
scalars below the root to which no empty key leads, in the order of the document and as deep as the
walk goes, each as a view at its place. No path is listed twice. And the paths to a text are those
among them at which the text is found. Positions are machine words, so that the document has to fit
into their range.
-/
theorem leafPaths_lead_back (ev ev' : Evaluator) {json : Text} {limit : Option Nat}
    (hwf : wellFormed limit json = true) (hsize : Text.byteLength json ≤ Number.maxUInt64) :
    (∃ d : Document, d.source = json) ∧
      ∀ d : Document, d.source = json →
        (∀ n ∈ d.nodes ev.options.maxDepth, n.value.ClearNames) →
          (ev.leafPaths json).map (ev'.get json) =
              (d.leaves ev.options.maxDepth).map Node.view ∧
            (ev.leafPaths json).Nodup ∧
              ∀ value, ev.pathsTo json value =
                (ev.leafPaths json).filter fun path => (ev'.get json path).text == value := by
  constructor
  · obtain ⟨d, hd, -⟩ := wellFormed_iff.1 hwf
    exact ⟨d, hd⟩
  · rintro d rfl hnames
    have hget : ∀ n ∈ d.leaves ev.options.maxDepth, ev'.get d.source n.trail.path = n.view := by
      intro n hn
      obtain ⟨hmem, hleaf⟩ := List.mem_filter.1 hn
      simp only [Bool.and_eq_true, decide_eq_true_eq] at hleaf
      exact ev'.get_path hnames hsize hmem hleaf.1.2 hleaf.2
    have hviews : (ev.leafPaths d.source).map (ev'.get d.source) =
        (d.leaves ev.options.maxDepth).map Node.view := by
      rw [leafPaths_source, List.map_map]
      exact List.map_congr_left hget
    refine ⟨hviews, List.Nodup.of_map (ev'.get d.source) ?_, fun value => ?_⟩
    · rw [hviews]
      have hpairwise : (d.leaves ev.options.maxDepth).Pairwise fun m n => m.offset < n.offset :=
        (d.root.pairwise_nodes _ _ _).filter _
      refine List.pairwise_map.2 (hpairwise.imp fun {m n} hlt heq => ?_)
      have hoffset : some m.offset = some n.offset := congrArg Selection.index heq
      exact Nat.ne_of_lt hlt (Option.some.inj hoffset)
    · rw [pathsTo_source, leafPaths_source, List.filter_map]
      refine congrArg (List.map _) (List.filter_congr fun n hn => ?_)
      rw [Function.comp_apply, hget n hn]

/-- A name that is digits behind a zero too many is read as a position, and is not found. -/
example :
    Evaluator.leafPaths ⟨⟨true, 256⟩, fun _ => none⟩ "\x7b\"01\":2\x7d".toList = ["01".toList] ∧
      Evaluator.get ⟨⟨true, 256⟩, fun _ => none⟩ "\x7b\"01\":2\x7d".toList "01".toList =
        missing := by
  decide +kernel

/-- A name with a dot in it, and an array under the name. -/
def dottedDocument : Document :=
  ⟨.none, .objectOf [("a.b".toList, .arrayOf [.ofNat 7])], .none⟩

/-- The one listed path leads to the number, at its offset. -/
theorem leafPaths_lead_back_of_dotted :
    wellFormed none "\x7b\"a.b\":[7]\x7d".toList = true ∧
      Text.byteLength "\x7b\"a.b\":[7]\x7d".toList ≤ Number.maxUInt64 ∧
      (∀ n ∈ dottedDocument.nodes 256, n.value.ClearNames) ∧
      (Evaluator.leafPaths ⟨⟨true, 256⟩, fun _ => none⟩ "\x7b\"a.b\":[7]\x7d".toList).map
        (Evaluator.get ⟨⟨true, 256⟩, fun _ => none⟩ "\x7b\"a.b\":[7]\x7d".toList) =
          [⟨.number, ['7'], true, some 8, []⟩] := by
  have hwf : wellFormed none "\x7b\"a.b\":[7]\x7d".toList = true := by decide +kernel
  have hsize : Text.byteLength "\x7b\"a.b\":[7]\x7d".toList ≤ Number.maxUInt64 := by decide +kernel
  have hnames : ∀ n ∈ dottedDocument.nodes 256, n.value.ClearNames := by decide +kernel
  have hback := (leafPaths_lead_back ⟨⟨true, 256⟩, fun _ => none⟩ ⟨⟨true, 256⟩, fun _ => none⟩
    hwf hsize).2 dottedDocument (by decide +kernel) hnames
  exact ⟨hwf, hsize, hnames, hback.1⟩

end Evaluator

end DotPath
