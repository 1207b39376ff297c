import DotPath.Proofs.Evaluator.Follow
import DotPath.Proofs.Evaluator.Gathered
import DotPath.Proofs.Json.Stream

/-!
# Well-formed documents have well-formed results

The scans are lenient and never check what they pass over, and segments put new arrays and objects
together. In a well-formed document nothing can come of this but well-formed texts, as long as no
text is brought in from outside: every literal is well formed itself, and no transformer is applied.

The argument is that of the agreement with paths on trees, for more paths. What is left open is
which tree a segment selects, so streams and literals are no obstacle: the values of a stream are
just the root of the document, and a well-formed literal is a tree of its own.

## Main results

* `Path.allSegments`: the segments of a path at every level.
* `Evaluator.resolve_showsSome`: a path leads from values of the grammar to values of the grammar.
* `Evaluator.results_wellFormed`: every result in a well-formed document is nothing or well formed.
-/

namespace DotPath

open Json

/-! ## Segments at every level -/

mutual

/-- All segments of a path, those of paths inside included. -/
def Path.allSegments : List Segment → List Segment
  | [] => []
  | s :: rest => s :: (s.inside ++ Path.allSegments rest)

/-- The segments of the paths that a segment carries. -/
def Segment.inside : Segment → List Segment
  | .collect each | .descend _ each | .lines each => Path.allSegments each
  | .query condition _ each => condition.inside ++ Path.allSegments each
  | .select _ entries => Path.insideEntries entries
  | .field _ | .index _ | .wildcard _ | .length | .literal _ | .transform .. => []

/-- The segments of the paths of a condition. -/
def Condition.inside : Condition → List Segment
  | .holds field | .compare field _ _ => Path.allSegments field
  | .both left right | .either left right => left.inside ++ right.inside

/-- The segments of the paths of a selector. -/
def Path.insideEntries : List (Text × List Segment) → List Segment
  | [] => []
  | (_, path) :: rest => Path.allSegments path ++ Path.insideEntries rest

end

theorem Path.allSegments_append (first second : Path) :
    Path.allSegments (first ++ second) = Path.allSegments first ++ Path.allSegments second := by
  induction first with
  | nil => rfl
  | cons s rest ih =>
      rw [List.cons_append, Path.allSegments, Path.allSegments, ih, List.cons_append,
        List.append_assoc]

namespace Selection

/-- A value of the strict grammar is selected, or nothing is. -/
def ShowsSome (s : Selection) : Prop :=
  ∃ o, s.Agrees o

variable {s r : Selection} {t : Tree}

theorem showsSome_missing : ShowsSome missing :=
  ⟨none, rfl⟩

theorem Shows.showsSome (h : s.Shows t) : ShowsSome s :=
  ⟨some t, h⟩

theorem ShowsSome.exists_shows (h : ShowsSome s) (hpresent : s.isPresent = true) :
    ∃ t, s.Shows t := by
  obtain ⟨o, hagrees⟩ := h
  cases o with
  | none =>
      obtain rfl : s = missing := hagrees
      cases hpresent
  | some t => exact ⟨t, hagrees⟩

theorem ShowsSome.derivedFrom (h : ShowsSome r) (s : Selection) : ShowsSome (s.derivedFrom r) := by
  obtain ⟨o, hagrees⟩ := h
  exact ⟨o, hagrees.derivedFrom s⟩

/-- A value is a document without space around it. -/
theorem Shows.eq_document (h : s.Shows t) : s.raw = (Document.mk .none t .none).source := by
  rw [h.2, Document.source]
  simp [Spaces.none]

/-- What shows a tree is well formed, as a document of its own. -/
theorem ShowsSome.wellFormed (h : ShowsSome s) :
    s = missing ∨ wellFormed none s.raw = true := by
  obtain ⟨o, hagrees⟩ := h
  cases o with
  | none => exact .inl hagrees
  | some t =>
      have hshows : s.Shows t := hagrees
      exact .inr (wellFormed_iff.2 ⟨⟨.none, t, .none⟩, hshows.eq_document.symm, nofun⟩)

/-- A well-formed text is the value that it is read as. -/
theorem showsSome_ofText {json : Text} (h : wellFormed none json = true) :
    ShowsSome (ofText json) := by
  obtain ⟨d, rfl, -⟩ := wellFormed_iff.1 h
  refine Shows.showsSome (t := d.root) ?_
  rw [ofText, d.firstValue?_source]
  exact ⟨rfl, rfl⟩

/-! ## Lists of selections -/

theorem exists_forall₂ {α β : Type} {R : α → β → Prop} {as : List α}
    (h : ∀ a ∈ as, ∃ b, R a b) : ∃ bs, List.Forall₂ R as bs := by
  induction as with
  | nil => exact ⟨[], .nil⟩
  | cons a as ih =>
      obtain ⟨b, hb⟩ := h a List.mem_cons_self
      obtain ⟨bs, hbs⟩ := ih fun a' ha' => h a' (List.mem_cons_of_mem a ha')
      exact ⟨b :: bs, .cons hb hbs⟩

theorem exists_of_forall₂ {α β : Type} {R : α → β → Prop} {as : List α} {bs : List β}
    (h : List.Forall₂ R as bs) : ∀ a ∈ as, ∃ b, R a b := by
  induction h with
  | nil => nofun
  | @cons a b as bs hab _ ih =>
      intro a' ha'
      rcases List.mem_cons.1 ha' with rfl | ha'
      · exact ⟨b, hab⟩
      · exact ih a' ha'

/-- The array of what has been found is a value, whichever values these are. -/
theorem showsSome_gather {found : List Selection} (h : ∀ r ∈ found, ShowsSome r) :
    ShowsSome (gather (present found)) := by
  have hshows : ∀ r ∈ present found, ∃ t, r.Shows t := by
    intro r hr
    obtain ⟨hr, hpresent⟩ := List.mem_filter.1 hr
    exact (h r hr).exists_shows hpresent
  obtain ⟨ts, hts⟩ := exists_forall₂ hshows
  exact (shows_gather hts).showsSome

/-- So is what a selector makes of its entries. -/
theorem showsSome_assemble {entries : List (Text × Selection)}
    (h : ∀ e ∈ entries, ShowsSome e.2) (asArray : Bool) :
    ShowsSome (assemble asArray entries) := by
  have hshows : ∀ e ∈ entries.filter (·.2.isPresent),
      ∃ m : Text × Tree, e.1 = m.1 ∧ e.2.Shows m.2 := by
    intro e he
    obtain ⟨he, hpresent⟩ := List.mem_filter.1 he
    obtain ⟨t, ht⟩ := (h e he).exists_shows hpresent
    exact ⟨(e.1, t), rfl, ht⟩
  obtain ⟨named, hnamed⟩ := exists_forall₂ hshows
  exact (shows_assemble hnamed asArray).showsSome

/-- A value that a list shows in the order of trees is one that shows a tree. -/
theorem showsSome_of_mem {found : List Selection} {ts : List Tree}
    (h : List.Forall₂ Shows found ts) {e : Selection} (he : e ∈ found) : ShowsSome e := by
  obtain ⟨t, ht⟩ := exists_of_forall₂ h e he
  exact ht.showsSome

/-- The values of a stream that is a document show its root. -/
theorem showsSome_of_mem_streamViews {d : Document} (h : s.raw = d.source) {e : Selection}
    (he : e ∈ s.streamViews) : ShowsSome e := by
  rw [streamViews, h, d.stream_source] at he
  rw [List.mem_singleton.1 he]
  exact Shows.showsSome (t := d.root) ⟨rfl, rfl⟩

end Selection

namespace Evaluator

open Selection

/-- Whether a segment brings in no text but a well-formed one. -/
def KeepsForm (ev : Evaluator) : Segment → Prop
  | .literal json => wellFormed none json = true
  | .transform .. => ev.options.transformers = false
  | _ => True

/-- Whether all segments of a list do. -/
def KeepForm (ev : Evaluator) (segments : List Segment) : Prop :=
  ∀ s ∈ segments, ev.KeepsForm s

theorem KeepForm.left {ev : Evaluator} {first second : List Segment}
    (h : ev.KeepForm (first ++ second)) : ev.KeepForm first :=
  fun s hs => h s (List.mem_append_left second hs)

theorem KeepForm.right {ev : Evaluator} {first second : List Segment}
    (h : ev.KeepForm (first ++ second)) : ev.KeepForm second :=
  fun s hs => h s (List.mem_append_right first hs)

mutual

/-- A path leads from values of the grammar to values of the grammar. -/
theorem resolve_showsSome (ev : Evaluator) :
    ∀ (path : Path), ev.KeepForm (Path.allSegments path) → ∀ {cur : Selection}, ShowsSome cur →
      ShowsSome (ev.resolve cur path)
  | [], _, cur, h => by
      rw [resolve]
      exact h
  | s :: rest, hpath, cur, h => by
      rw [Path.allSegments] at hpath
      have hs := hpath s List.mem_cons_self
      have hbelow : ev.KeepForm (s.inside ++ Path.allSegments rest) :=
        fun r hr => hpath r (List.mem_cons_of_mem s hr)
      rw [resolve]
      split
      · exact showsSome_missing
      · next hgo =>
          refine resolve_showsSome ev rest hbelow.right ?_
          cases hpresent : cur.isPresent with
          | true =>
              obtain ⟨t, ht⟩ := h.exists_shows hpresent
              exact step_showsSome ev s hs hbelow.left ht
          | false =>
              -- Only a literal goes on where nothing is selected, and it does not look there.
              cases s with
              | literal json =>
                  rw [step]
                  exact showsSome_ofText hs
              | _ => simp [hpresent, Segment.isLiteral] at hgo

/-- A segment leads from a value of the grammar to a value of the grammar. -/
theorem step_showsSome (ev : Evaluator) :
    ∀ (s : Segment), ev.KeepsForm s → ev.KeepForm s.inside → ∀ {cur : Selection} {t : Tree},
      cur.Shows t → ShowsSome (ev.step cur s)
  | .field name, _, _, cur, t, h => by
      rw [step]
      exact ShowsSome.derivedFrom ⟨_, agrees_field h name⟩ cur
  | .index n, _, _, cur, t, h => by
      rw [step]
      exact ShowsSome.derivedFrom ⟨_, agrees_item h n⟩ cur
  | .wildcard pattern, _, _, cur, t, h => by
      rw [step]
      exact ShowsSome.derivedFrom ⟨_, agrees_firstLike h pattern⟩ cur
  | .length, _, _, cur, t, h => by
      rw [step]
      exact ⟨_, agrees_count h⟩
  | .collect each, _, hinside, cur, t, h => by
      rw [Segment.inside] at hinside
      rw [step, isArray_of_shows h]
      split
      · next harray =>
          exact showsSome_gather (List.forall_mem_map.2 fun e he =>
            resolve_showsSome ev each hinside (showsSome_of_mem (forall₂_array h harray) he))
      · exact showsSome_missing
  | .query condition all each, _, hinside, cur, t, h => by
      have hviews : ∀ e ∈ cur.elementViews.filter fun e => ev.holds e condition, ShowsSome e :=
        fun e he => showsSome_of_mem (forall₂_elementViews h) (List.mem_filter.1 he).1
      rw [Segment.inside] at hinside
      rw [step]
      split
      · exact showsSome_missing
      · dsimp only
        split
        · exact showsSome_gather (List.forall_mem_map.2 fun e he =>
            resolve_showsSome ev each hinside.right (hviews e he))
        · refine ShowsSome.derivedFrom ?_ cur
          cases hfound : cur.elementViews.filter fun e => ev.holds e condition with
          | nil => exact showsSome_missing
          | cons e found => exact hviews e (hfound ▸ List.mem_cons_self)
  | .select asArray entries, _, hinside, cur, t, h => by
      rw [Segment.inside] at hinside
      rw [step]
      exact showsSome_assemble (resolveEntries_showsSome ev entries hinside h.showsSome) asArray
  | .literal json, hs, _, cur, t, _ => by
      rw [step]
      exact showsSome_ofText hs
  | .transform name argument source, hs, _, cur, t, h => by
      have hoff : ev.options.transformers = false := hs
      rw [step, applyTransformer, hoff]
      exact ShowsSome.derivedFrom ⟨_, agrees_field h source⟩ cur
  | .descend pattern each, _, hinside, cur, t, h => by
      rw [Segment.inside] at hinside
      rw [step]
      exact showsSome_gather (List.forall_mem_map.2 fun e he =>
        resolve_showsSome ev each hinside (showsSome_of_mem (forall₂_descendants h _ pattern) he))
  | .lines each, _, hinside, cur, t, h => by
      rw [Segment.inside] at hinside
      rw [step]
      exact showsSome_gather (List.forall_mem_map.2 fun e he =>
        resolve_showsSome ev each hinside (showsSome_of_mem_streamViews h.eq_document he))

/-- So do the paths of a selector. -/
theorem resolveEntries_showsSome (ev : Evaluator) :
    ∀ (entries : List (Text × Path)), ev.KeepForm (Path.insideEntries entries) →
      ∀ {cur : Selection}, ShowsSome cur → ∀ e ∈ ev.resolveEntries cur entries, ShowsSome e.2
  | [], _, _, _ => by
      rw [resolveEntries]
      nofun
  | (key, path) :: rest, hentries, cur, h => by
      rw [Path.insideEntries] at hentries
      rw [resolveEntries]
      intro e he
      rcases List.mem_cons.1 he with rfl | he
      · exact resolve_showsSome ev path hentries.left h
      · exact resolveEntries_showsSome ev rest hentries.right h e he

end

/-! ## Documents -/

/-- The values that a leading segment takes from all of the text. -/
theorem lines_showsSome (ev : Evaluator) (d : Document) {each : Path}
    (heach : ev.KeepForm (Path.allSegments each)) :
    ∀ r ∈ (wholeText d.source).streamViews.map fun e => ev.resolve e each, ShowsSome r :=
  List.forall_mem_map.2 fun _ he =>
    resolve_showsSome ev each heach (showsSome_of_mem_streamViews rfl he)

theorem eval_showsSome (ev : Evaluator) (d : Document) {path : Path}
    (hpath : ev.KeepForm (Path.allSegments path)) : ShowsSome (ev.eval d.source path) := by
  unfold eval
  split
  · next each rest =>
      have hbelow : ev.KeepForm (Path.allSegments each ++ Path.allSegments rest) :=
        fun r hr => hpath r (List.mem_cons_of_mem _ hr)
      refine resolve_showsSome ev rest hbelow.right ?_
      rw [step]
      exact showsSome_gather (ev.lines_showsSome d hbelow.left)
  · exact resolve_showsSome ev path hpath (shows_document d).showsSome

theorem showsSome_of_mem_items (ev : Evaluator) {cur : Selection} {t : Tree} (h : cur.Shows t)
    {s : Segment} (hinside : ev.KeepForm s.inside) {r : Selection} (hr : r ∈ ev.items cur s) :
    ShowsSome r := by
  have hderived : ∀ {found : List Selection}, (∀ e ∈ found, ShowsSome e) →
      r ∈ (present found).map cur.derivedFrom → ShowsSome r := by
    intro found hfound hr
    obtain ⟨e, he, rfl⟩ := List.mem_map.1 hr
    exact (hfound e (List.mem_filter.1 he).1).derivedFrom cur
  cases s with
  | collect each =>
      rw [Segment.inside] at hinside
      rw [items, isArray_of_shows h] at hr
      split at hr
      · next harray =>
          obtain ⟨e, he, rfl⟩ := List.mem_map.1 (List.mem_filter.1 hr).1
          exact resolve_showsSome ev each hinside (showsSome_of_mem (forall₂_array h harray) he)
      · cases hr
  | query condition all each =>
      cases all with
      | false => cases hr
      | true =>
          rw [Segment.inside] at hinside
          rw [items] at hr
          exact hderived (List.forall_mem_map.2 fun e he =>
            resolve_showsSome ev each hinside.right
              (showsSome_of_mem (forall₂_elementViews h) (List.mem_filter.1 he).1)) hr
  | descend pattern each =>
      rw [Segment.inside] at hinside
      rw [items] at hr
      exact hderived (List.forall_mem_map.2 fun e he =>
        resolve_showsSome ev each hinside
          (showsSome_of_mem (forall₂_descendants h _ pattern) he)) hr
  | lines each =>
      rw [Segment.inside] at hinside
      rw [items] at hr
      exact hderived (List.forall_mem_map.2 fun e he =>
        resolve_showsSome ev each hinside (showsSome_of_mem_streamViews h.eq_document he)) hr
  | _ => cases hr

theorem showsSome_of_mem_evalAll (ev : Evaluator) (d : Document) {path : Path}
    (hpath : ev.KeepForm (Path.allSegments path)) {r : Selection}
    (hr : r ∈ ev.evalAll d.source path) : ShowsSome r := by
  by_cases hgathers : path.getLast?.any Segment.gathers = true
  · cases hlast : path.getLast? with
    | none =>
        rw [hlast] at hgathers
        cases hgathers
    | some last =>
        obtain ⟨init, rfl⟩ := List.getLast?_eq_some_iff.1 hlast
        rw [hlast, Option.any_some] at hgathers
        rw [Path.allSegments_append] at hpath
        have hinside : ev.KeepForm last.inside := fun s hs =>
          hpath.right s (List.mem_cons_of_mem last (List.mem_append_left _ hs))
        by_cases hlines : ∀ each, init = [] → last ≠ .lines each
        · rw [ev.evalAll_concat d.source hgathers hlines] at hr
          split at hr
          · next hpresent =>
              obtain ⟨t, ht⟩ := (ev.eval_showsSome d hpath.left).exists_shows hpresent
              exact ev.showsSome_of_mem_items ht hinside hr
          · cases hr
        · obtain ⟨each, rfl, rfl⟩ : ∃ each, init = [] ∧ last = .lines each := by
            simpa using hlines
          obtain ⟨e, he, rfl⟩ := List.mem_map.1 hr
          exact (ev.lines_showsSome d hinside e (List.mem_filter.1 he).1).derivedFrom _
  · rw [ev.evalAll_of_not_gathers d.source (eq_false_of_ne_true hgathers), asResults] at hr
    split at hr
    · rw [List.mem_singleton.1 hr]
      exact ev.eval_showsSome d hpath
    · cases hr

/--
In a well-formed document, of whatever depth, every result is nothing or well formed, if all
literals of the path are well formed and no transformer is applied: either they are switched off, or
the path has none, at any level.
-/
theorem results_wellFormed (ev : Evaluator) (json path : Text) {segments : Path}
    (hjson : wellFormed none json = true) (hpath : Path.compile path = .ok segments)
    (hliterals : ∀ value, .literal value ∈ Path.allSegments segments →
      wellFormed none value = true)
    (htransformers : ev.options.transformers = false ∨
      ∀ name argument source, .transform name argument source ∉ Path.allSegments segments) :
    ∀ s ∈ ev.get json path :: ev.getAll json path,
      s = missing ∨ wellFormed none s.raw = true := by
  obtain ⟨d, rfl, -⟩ := wellFormed_iff.1 hjson
  have hget : ev.get d.source path = ev.eval d.source segments := by
    rw [get, hpath]
  have hall : ev.getAll d.source path = ev.evalAll d.source segments := by
    rw [getAll, hpath]
  have hkeep : ev.KeepForm (Path.allSegments segments) := by
    intro s hs
    cases s with
    | literal value => exact hliterals value hs
    | transform name argument source =>
        rcases htransformers with hoff | hnone
        · exact hoff
        · exact absurd hs (hnone name argument source)
    | _ => trivial
  intro s hs
  rw [hget, hall] at hs
  rcases List.mem_cons.1 hs with rfl | hs
  · exact (ev.eval_showsSome d hkeep).wellFormed
  · exact (ev.showsSome_of_mem_evalAll d hkeep hs).wellFormed

/-- A new array of an element and a literal. -/
theorem results_wellFormed_of_literal :
    Path.compile "[0,!true]".toList =
        .ok [.select true [(['0'], [.index 0]), ("!true".toList, [.literal "true".toList])]] ∧
      wellFormed none (Evaluator.get ⟨⟨true, 256⟩, fun _ => none⟩ "[7]".toList
        "[0,!true]".toList).raw = true := by
  have hjson : wellFormed none "[7]".toList = true := by decide +kernel
  have hliteral : wellFormed none "true".toList = true := by decide +kernel
  have hpath : Path.compile "[0,!true]".toList =
      .ok [.select true [(['0'], [.index 0]), ("!true".toList, [.literal "true".toList])]] := by
    with_unfolding_all rfl
  have hresults := results_wellFormed ⟨⟨true, 256⟩, fun _ => none⟩ "[7]".toList
    "[0,!true]".toList hjson hpath
    (by simpa [Path.allSegments, Segment.inside, Path.insideEntries] using hliteral)
    (.inr (by simp [Path.allSegments, Segment.inside, Path.insideEntries]))
    _ List.mem_cons_self
  have hpresent : Evaluator.get ⟨⟨true, 256⟩, fun _ => none⟩ "[7]".toList
      "[0,!true]".toList ≠ missing := by
    decide +kernel
  exact ⟨hpath, hresults.resolve_left hpresent⟩

end Evaluator

end DotPath
