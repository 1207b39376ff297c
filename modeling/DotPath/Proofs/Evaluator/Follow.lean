import DotPath.Evaluator.Basic
import DotPath.Proofs.Json.Tree
import DotPath.Proofs.Json.WellFormed
import Mathlib.Data.List.Forall2

/-!
# Paths on trees

The evaluator never builds a tree: every segment scans the text of the current value again. Here a
path is followed on the tree of a document instead, and the two are shown to agree. `Tree.follow` is
the reference. It says what a path selects in terms of elements and members only, and is undefined
where nothing is selected.

The agreement is a simulation. A selection shows a tree when it has the kind and the text of the
tree; each segment takes a selection that shows a tree to one that shows the tree that the reference
selects, or to nothing where the reference is undefined. Containers that a segment makes are trees
as well, so the argument goes on through them.

## Main results

* `Tree.follow`: what a path selects in a tree.
* `Evaluator.resolve_agrees`: the evaluator selects the same from any selection that shows a tree.
* `eval_agrees_on_wellFormed`: so it does in every well-formed document.
-/

namespace DotPath

open Json

/-! ## Paths without texts of their own -/

mutual

/-- Whether all segments of a path, those of paths inside included, only look at the document. -/
def Path.navigates : List Segment → Bool
  | [] => true
  | s :: rest => s.navigates && Path.navigates rest

/-- Whether a segment only looks at the document: it is no literal, transformer or stream. -/
def Segment.navigates : Segment → Bool
  | .field _ | .index _ | .wildcard _ | .length => true
  | .collect each | .descend _ each => Path.navigates each
  | .query condition _ each => condition.navigates && Path.navigates each
  | .select _ entries => Path.allNavigate entries
  | .literal _ | .transform .. | .lines _ => false

/-- Whether the paths of a condition only look at the document. -/
def Condition.navigates : Condition → Bool
  | .holds field | .compare field _ _ => Path.navigates field
  | .both left right | .either left right => left.navigates && right.navigates

/-- Whether the paths of a selector only look at the document. -/
def Path.allNavigate : List (Text × List Segment) → Bool
  | [] => true
  | (_, path) :: rest => Path.navigates path && Path.allNavigate rest

end

namespace Json.Tree

/-! ## The reference -/

/-- The value by itself, as a selection: for comparisons, which look at the value alone. -/
def alone (t : Tree) : Selection :=
  ⟨t.kind, t.source, false, none, []⟩

/-- The first member with a name. -/
def field (t : Tree) (name : Text) : Option Tree :=
  (t.members.find? fun m => m.1 == name).map (·.2)

/-- The element at a position; in an object the member named by the position. -/
def item (t : Tree) (n : Nat) : Option Tree :=
  if t.isArray then t.elements[n]? else t.field (Text.ofNat n)

/-- The first member whose name, or element whose text, matches a pattern. -/
def firstLike (t : Tree) (pattern : Text) : Option Tree :=
  if t.isObject then (t.members.find? fun m => Glob.isMatch pattern m.1).map (·.2)
  else t.elements.find? fun e => Glob.isMatch pattern e.alone.text

/-- The number of elements or members. -/
def count (t : Tree) : Option Tree :=
  if t.isArray then some (ofNat t.elements.length)
  else if t.isObject then some (ofNat t.members.length)
  else none

/-- The values directly inside a value, members with their names. -/
def children (t : Tree) : List (Option Text × Tree) :=
  if t.isObject then t.members.map fun m => (some m.1, m.2)
  else t.elements.map fun e => (none, e)

/-- The value and all values inside it down to a depth, each before those inside it. -/
def visits (depth : Nat) (name : Option Text) (t : Tree) : List (Option Text × Tree) :=
  match depth with
  | 0 => [(name, t)]
  | depth + 1 => (name, t) :: t.children.flatMap fun child => visits depth child.1 child.2

/-- The members at any depth, down to the limit, whose name matches a pattern. -/
def descendants (t : Tree) (depth : Nat) (pattern : Text) : List Tree :=
  (t.visits (max depth 1) none).filterMap fun visit =>
    if visit.1.any (Glob.isMatch pattern) then some visit.2 else none

/-- A new array or object from named values. -/
def assemble (asArray : Bool) (entries : List (Text × Tree)) : Tree :=
  if asArray then arrayOf (entries.map (·.2)) else objectOf entries

mutual

/-- The value that a path leads to from a value. Descents enter containers down to `depth`. -/
def follow (depth : Nat) (t : Tree) : List Segment → Option Tree
  | [] => some t
  | s :: rest =>
    match followStep depth t s with
    | some u => follow depth u rest
    | none => none

/-- The value that one segment leads to from a value. -/
def followStep (depth : Nat) (t : Tree) : Segment → Option Tree
  | .field name => t.field name
  | .index n => t.item n
  | .wildcard pattern => t.firstLike pattern
  | .length => t.count
  | .collect each =>
    if t.isArray then some (arrayOf (t.elements.filterMap fun e => follow depth e each)) else none
  | .query condition all each =>
    if t.isArray then
      let found := t.elements.filter fun e => satisfies depth e condition
      if all then some (arrayOf (found.filterMap fun e => follow depth e each)) else found.head?
    else none
  | .select asArray entries => some (assemble asArray (followEntries depth t entries))
  | .descend pattern each =>
    some (arrayOf ((t.descendants depth pattern).filterMap fun e => follow depth e each))
  | .literal _ | .transform .. | .lines _ => none

/-- Whether a value satisfies a condition. -/
def satisfies (depth : Nat) (t : Tree) : Condition → Bool
  | .holds field => (follow depth t field).isSome
  | .compare field operator operand =>
    ((follow depth t field).elim .missing alone).meets operator operand
  | .both left right => satisfies depth t left && satisfies depth t right
  | .either left right => satisfies depth t left || satisfies depth t right

/-- The values that the paths of a selector lead to, those left out that lead nowhere. -/
def followEntries (depth : Nat) (t : Tree) : List (Text × List Segment) → List (Text × Tree)
  | [] => []
  | (key, path) :: rest =>
    match follow depth t path with
    | some u => (key, u) :: followEntries depth t rest
    | none => followEntries depth t rest

end

end Json.Tree

namespace Selection

/-! ## Selections that show trees -/

/-- A selection shows a value: it has its kind and its text. -/
def Shows (s : Selection) (t : Tree) : Prop :=
  s.kind = t.kind ∧ s.raw = t.source

/-- A selection agrees with the reference: it shows the value, or nothing is selected. -/
def Agrees (s : Selection) : Option Tree → Prop
  | some t => s.Shows t
  | none => s = missing

variable {s r : Selection} {t : Tree} {o : Option Tree}

theorem Shows.isPresent (h : s.Shows t) : s.isPresent = true := by
  have := t.fills.ne_nil
  simpa [Selection.isPresent, h.2] using this

theorem Agrees.isPresent_eq (h : s.Agrees o) : s.isPresent = o.isSome := by
  cases o with
  | none =>
      obtain rfl : s = missing := h
      rfl
  | some t => exact Shows.isPresent h

/-- Whether a selection is a view makes no difference to what it shows. -/
theorem Agrees.derivedFrom (s : Selection) (h : r.Agrees o) : (s.derivedFrom r).Agrees o := by
  unfold Selection.derivedFrom
  split
  · exact h
  · cases o with
    | none =>
        obtain rfl : r = missing := h
        rfl
    | some t => exact h

/-- Comparisons look at nothing but the kind and the text of a value. -/
theorem Shows.text_eq (h : s.Shows t) : s.text = t.alone.text := by
  obtain ⟨kind, raw, isView, index, indexes⟩ := s
  obtain ⟨rfl, rfl⟩ := h
  rfl

theorem Agrees.meets_eq (h : s.Agrees o) (operator : Operator) (operand : Operand) :
    s.meets operator operand = (o.elim missing Tree.alone).meets operator operand := by
  cases o with
  | none =>
      obtain rfl : s = missing := h
      rfl
  | some t =>
      obtain ⟨kind, raw, isView, index, indexes⟩ := s
      obtain ⟨rfl, rfl⟩ := h
      rfl

/-! ## Lists of selections -/

section Lists

variable {α β : Type} {R : α → β → Prop} {as : List α} {bs : List β}

/-- Lists with equal images are related entry by entry. -/
theorem forall₂_of_map_eq {γ : Type} {f : α → γ} {g : β → γ} (h : as.map f = bs.map g) :
    List.Forall₂ (fun a b => f a = g b) as bs := by
  induction as generalizing bs with
  | nil =>
      cases bs with
      | nil => exact .nil
      | cons b bs => cases h
  | cons a as ih =>
      cases bs with
      | nil => cases h
      | cons b bs =>
          rw [List.map_cons, List.map_cons, List.cons.injEq] at h
          exact .cons h.1 (ih h.2)

theorem map_eq_of_forall₂ {γ : Type} {f : α → γ} {g : β → γ}
    (h : List.Forall₂ (fun a b => f a = g b) as bs) : as.map f = bs.map g := by
  induction h with
  | nil => rfl
  | cons hab _ ih => rw [List.map_cons, List.map_cons, hab, ih]

/-- The first entries that pass a test are related. -/
theorem rel_find? {p : α → Bool} {q : β → Bool} (h : List.Forall₂ R as bs)
    (hpq : ∀ a b, R a b → p a = q b) : Option.Rel R (as.find? p) (bs.find? q) := by
  induction h with
  | nil => exact .none
  | @cons a b as bs hab _ ih =>
      rw [List.find?_cons, List.find?_cons, hpq a b hab]
      cases q b with
      | true => exact .some hab
      | false => exact ih

theorem rel_getElem? (h : List.Forall₂ R as bs) (n : Nat) : Option.Rel R as[n]? bs[n]? := by
  induction h generalizing n with
  | nil => exact .none
  | cons hab _ ih =>
      cases n with
      | zero => exact .some hab
      | succ n => exact ih n

theorem forall₂_mapIdx {γ : Type} {S : γ → β → Prop} {f : Nat → α → γ}
    (h : List.Forall₂ R as bs) (hf : ∀ i a b, R a b → S (f i a) b) :
    List.Forall₂ S (as.mapIdx f) bs := by
  induction h generalizing f with
  | nil => exact .nil
  | @cons a b as bs hab _ ih =>
      rw [List.mapIdx_cons]
      exact .cons (hf 0 a b hab) (ih fun i => hf (i + 1))

/-- What agrees with the reference one by one agrees with it once nothing is left out. -/
theorem forall₂_present {f : α → Selection} {g : β → Option Tree} (h : List.Forall₂ R as bs)
    (hfg : ∀ a b, R a b → (f a).Agrees (g b)) :
    List.Forall₂ Shows (present (as.map f)) (bs.filterMap g) := by
  induction h with
  | nil => exact .nil
  | @cons a b as bs hab _ ih =>
      have hagrees := hfg a b hab
      have hpresent := hagrees.isPresent_eq
      rw [List.map_cons, present, List.filter_cons, hpresent]
      cases hb : g b with
      | none =>
          rw [List.filterMap_cons_none hb]
          exact ih
      | some t =>
          rw [List.filterMap_cons_some hb]
          rw [hb] at hagrees
          exact .cons hagrees ih

end Lists

/-- The array of what has been found shows the array of the values. -/
theorem shows_gather {found : List Selection} {ts : List Tree} (h : List.Forall₂ Shows found ts) :
    (gather found).Shows (.arrayOf ts) := by
  have hraw : found.map (·.raw) = ts.map Tree.source :=
    map_eq_of_forall₂ (h.imp fun s t hst => hst.2)
  constructor
  · cases ts <;> rfl
  · rw [Tree.source_arrayOf, ← hraw]
    rfl

/-- A text that a segment makes shows the tree that it is written as. -/
theorem shows_ofText (t : Tree) : (ofText t.source).Shows t := by
  rw [ofText, t.firstValue?_source]
  exact ⟨rfl, rfl⟩

theorem shows_ofNat (n : Nat) : (ofNat n).Shows (.ofNat n) :=
  ⟨rfl, rfl⟩

/-! ## What segments look at -/

section Parts

variable {s : Selection} {t : Tree}

/-- A value found by a scan shows a tree of its kind and text. -/
theorem shows_ofOccurrence {base : Option Nat} {v : Occurrence}
    (h : (v.kind, v.raw) = (t.kind, t.source)) : (ofOccurrence base v).Shows t := by
  rw [Prod.mk.injEq] at h
  exact h

theorem forall₂_elements (h : s.Shows t) :
    List.Forall₂ (fun v u => (v.kind, v.raw) = (u.kind, u.source)) (elements s.raw)
      t.elements := by
  rw [h.2]
  exact forall₂_of_map_eq t.elements_source

theorem forall₂_members (h : s.Shows t) :
    List.Forall₂ (fun (m : Member) (u : Text × Tree) =>
      (Quoted.text m.key.raw, m.value.kind, m.value.raw) = (u.1, u.2.kind, u.2.source))
        (Json.members s.raw) t.members := by
  rw [h.2]
  exact forall₂_of_map_eq t.members_source

theorem opensArray_of_shows (h : s.Shows t) : opensArray s.raw = t.isArray := by
  rw [h.2, t.opensArray_source]

theorem opensObject_of_shows (h : s.Shows t) : opensObject s.raw = t.isObject := by
  rw [h.2, t.opensObject_source]

theorem isArray_of_shows (h : s.Shows t) : s.isArray = t.isArray := by
  rw [isArray, opensArray_of_shows h, h.1]
  cases t with
  | scalar kind raw spelled => simp [Tree.isArray]
  | _ => rfl

theorem forall₂_elementViews (h : s.Shows t) :
    List.Forall₂ Shows s.elementViews t.elements := by
  refine List.forall₂_map_left_iff.2 ((forall₂_elements h).imp fun v u heq => ?_)
  exact shows_ofOccurrence heq

theorem forall₂_array (h : s.Shows t) (harray : t.isArray = true) :
    List.Forall₂ Shows s.array t.elements := by
  rw [Selection.array, h.isPresent, isArray_of_shows h, harray]
  refine List.forall₂_map_left_iff.2 ((forall₂_elements h).imp fun v u heq => ?_)
  have : (ofOccurrence s.base v).Agrees (some u) := shows_ofOccurrence heq
  exact this.derivedFrom s

/-- The member that the scan finds first shows the value of the member that comes first. -/
theorem agrees_find_member (h : s.Shows t) (p : Text → Bool) :
    (match (Json.members s.raw).find? fun m : Member => p (Quoted.text m.key.raw) with
      | some m => ofOccurrence s.base m.value
      | none => missing).Agrees ((t.members.find? fun m : Text × Tree => p m.1).map Prod.snd) := by
  have hpq : ∀ (m : Member) (u : Text × Tree),
      (Quoted.text m.key.raw, m.value.kind, m.value.raw) = (u.1, u.2.kind, u.2.source) →
        p (Quoted.text m.key.raw) = p u.1 := by
    intro m u heq
    rw [Prod.mk.injEq] at heq
    rw [heq.1]
  have hrel := rel_find? (forall₂_members h) hpq
  generalize (Json.members s.raw).find? (fun m : Member => p (Quoted.text m.key.raw)) = found
    at hrel ⊢
  generalize t.members.find? (fun m : Text × Tree => p m.1) = reference at hrel ⊢
  cases hrel with
  | none => rfl
  | some heq =>
      rw [Prod.mk.injEq] at heq
      exact shows_ofOccurrence heq.2

theorem agrees_field (h : s.Shows t) (name : Text) : (s.field name).Agrees (t.field name) :=
  agrees_find_member h (· == name)

theorem agrees_item (h : s.Shows t) (n : Nat) : (s.item n).Agrees (t.item n) := by
  rw [item, Tree.item, opensArray_of_shows h]
  split
  · have hrel := rel_getElem? (forall₂_elementViews h) n
    rw [List.getD_eq_getElem?_getD]
    generalize s.elementViews[n]? = found at hrel ⊢
    generalize t.elements[n]? = reference at hrel ⊢
    cases hrel with
    | none => rfl
    | some hshows => exact hshows
  · exact agrees_field h _

theorem agrees_firstLike (h : s.Shows t) (pattern : Text) :
    (s.firstLike pattern).Agrees (t.firstLike pattern) := by
  rw [firstLike, Tree.firstLike, opensObject_of_shows h]
  split
  · exact agrees_find_member h (Glob.isMatch pattern)
  · have hrel := rel_find? (forall₂_elementViews h)
      (p := fun e => Glob.isMatch pattern e.text)
      (q := fun e => Glob.isMatch pattern e.alone.text) fun e u hshows => by
        rw [hshows.text_eq]
    generalize s.elementViews.find? (fun e => Glob.isMatch pattern e.text) = found at hrel ⊢
    generalize t.elements.find? (fun e => Glob.isMatch pattern e.alone.text) = reference
      at hrel ⊢
    cases hrel with
    | none => rfl
    | some hshows => exact hshows

theorem agrees_count (h : s.Shows t) : s.count.Agrees t.count := by
  rw [count, Tree.count, opensArray_of_shows h, opensObject_of_shows h]
  split
  · rw [(forall₂_elements h).length_eq]
    exact shows_ofNat _
  · split
    · rw [(forall₂_members h).length_eq]
      exact shows_ofNat _
    · rfl

/-! ### Walks -/

/-- The name of the member that a trail leads to, if it leads to a member. -/
def lastName (trail : Trail) : Option Text :=
  match trail.getLast? with
  | some (.key name) => some name
  | _ => none

/-- A visit of a walk shows a visit of the reference. -/
def VisitShows (visit : Visit) (reference : Option Text × Tree) : Prop :=
  lastName visit.trail = reference.1 ∧
    (visit.value.kind, visit.value.raw) = (reference.2.kind, reference.2.source)

theorem forall₂_children {v : Occurrence} (h : (v.kind, v.raw) = (t.kind, t.source))
    (trail : Trail) :
    List.Forall₂ (fun child reference => VisitShows ⟨trail ++ [child.1], child.2⟩ reference)
      v.children t.children := by
  have hshows : (ofOccurrence none v).Shows t := shows_ofOccurrence h
  have hobject : opensObject v.raw = t.isObject := opensObject_of_shows hshows
  rw [Occurrence.children, Tree.children, hobject]
  split
  · refine List.forall₂_map_left_iff.2 (List.forall₂_map_right_iff.2 ?_)
    refine (forall₂_members hshows).imp fun m u heq => ?_
    rw [Prod.mk.injEq] at heq
    refine ⟨?_, heq.2⟩
    simp [lastName, heq.1]
  · refine List.forall₂_map_right_iff.2 (forall₂_mapIdx (forall₂_elements hshows) ?_)
    intro i e u heq
    exact ⟨by simp [lastName], heq⟩

theorem forall₂_walkFrom {depth : Nat} {trail : Trail} {v : Occurrence}
    (h : (v.kind, v.raw) = (t.kind, t.source)) :
    List.Forall₂ VisitShows (walkFrom depth trail v) (t.visits depth (lastName trail)) := by
  induction depth generalizing trail v t with
  | zero => exact .cons ⟨rfl, h⟩ .nil
  | succ depth ih =>
      refine .cons ⟨rfl, h⟩ (List.rel_flatMap (forall₂_children h trail) ?_)
      rintro ⟨step, child⟩ ⟨name, u⟩ ⟨hname, hchild⟩
      dsimp only at hname hchild ⊢
      rw [← hname]
      exact ih hchild

/-- The descendants with a matching name are found, in the order of the text. -/
theorem forall₂_descendants (h : s.Shows t) (depth : Nat) (pattern : Text) :
    List.Forall₂ Shows (s.descendants depth pattern) (t.descendants depth pattern) := by
  have hroot : firstValue? s.raw = some ⟨t.kind, 0, t.source⟩ := by
    rw [h.2, t.firstValue?_source]
  have hwalk : walk depth s.raw = walkFrom (max depth 1) [] ⟨t.kind, 0, t.source⟩ := by
    rw [walk, hroot]
  rw [descendants, hwalk]
  refine List.rel_filterMap ?_ (forall₂_walkFrom rfl)
  rintro visit ⟨name, u⟩ ⟨hname, hvalue⟩
  obtain rfl : lastName visit.trail = name := hname
  dsimp only [lastName]
  cases visit.trail.getLast? with
  | none => exact .none
  | some step =>
      cases step with
      | index n => exact .none
      | key name =>
          dsimp only [Option.any_some]
          split
          · exact .some (shows_ofOccurrence hvalue)
          · exact .none

end Parts

/-- What a selector makes of entries shows what the reference makes of them. -/
theorem shows_assemble {entries : List (Text × Selection)} {named : List (Text × Tree)}
    (h : List.Forall₂ (fun e m => e.1 = m.1 ∧ e.2.Shows m.2)
      (entries.filter (·.2.isPresent)) named) (asArray : Bool) :
    (assemble asArray entries).Shows (Tree.assemble asArray named) := by
  have hraws : (entries.filter (·.2.isPresent)).map (·.2.raw) = named.map (·.2.source) :=
    map_eq_of_forall₂ (h.imp fun e m hm => hm.2.2)
  have hpairs : (entries.filter (·.2.isPresent)).map (fun e => (e.1, e.2.raw)) =
      named.map fun m => (m.1, m.2.source) :=
    map_eq_of_forall₂ (h.imp fun e m hm => Prod.ext hm.1 hm.2.2)
  cases asArray with
  | true =>
      have hsource : (Tree.assemble true named).source =
          composeArray ((entries.filter (·.2.isPresent)).map (·.2.raw)) := by
        rw [hraws, Tree.assemble, if_pos rfl, Tree.source_arrayOf, List.map_map]
        rfl
      have hshows := shows_ofText (Tree.assemble true named)
      rw [hsource] at hshows
      exact hshows
  | false =>
      have hsource : (Tree.assemble false named).source =
          composeObject ((entries.filter (·.2.isPresent)).map fun e => (e.1, e.2.raw)) := by
        rw [hpairs, Tree.assemble, if_neg Bool.false_ne_true, Tree.source_objectOf]
      have hshows := shows_ofText (Tree.assemble false named)
      rw [hsource] at hshows
      exact hshows

end Selection

namespace Evaluator

open Selection

/-! ## Paths -/

/-- A path that only looks at the document has no literal. -/
theorem isLiteral_of_navigates {path : Path} (hpath : Path.navigates path = true) {s : Segment}
    (hs : s ∈ path) : s.isLiteral = false := by
  induction path with
  | nil => cases hs
  | cons r path ih =>
      rw [Path.navigates, Bool.and_eq_true] at hpath
      rcases List.mem_cons.1 hs with rfl | hs
      · cases s with
        | literal json => cases hpath.1
        | _ => rfl
      · exact ih hpath.2 hs

mutual

/-- The evaluator agrees with the reference on every path, from any selection that shows a tree. -/
theorem resolve_agrees (ev : Evaluator) :
    ∀ (path : Path), Path.navigates path = true → ∀ {cur : Selection} {t : Tree}, cur.Shows t →
      (ev.resolve cur path).Agrees (t.follow ev.options.maxDepth path)
  | [], _, _, _, h => by
      rw [resolve, Tree.follow]
      exact h
  | s :: rest, hpath, cur, t, h => by
      rw [Path.navigates, Bool.and_eq_true] at hpath
      have hstep := step_agrees ev s hpath.1 h
      rw [resolve, Tree.follow, h.isPresent]
      cases hu : t.followStep ev.options.maxDepth s with
      | none =>
          rw [hu] at hstep
          have hmissing : ev.step cur s = missing := hstep
          have hrest : ∀ s' ∈ rest.head?, s'.isLiteral = false :=
            fun s' hs' => isLiteral_of_navigates hpath.2 (List.mem_of_head? hs')
          rw [hmissing, ev.resolve_missing hrest, ite_self]
          rfl
      | some u =>
          rw [hu] at hstep
          exact resolve_agrees ev rest hpath.2 hstep

/-- The evaluator agrees with the reference on every segment. -/
theorem step_agrees (ev : Evaluator) :
    ∀ (s : Segment), s.navigates = true → ∀ {cur : Selection} {t : Tree}, cur.Shows t →
      (ev.step cur s).Agrees (t.followStep ev.options.maxDepth s)
  | .field name, _, cur, t, h => by
      rw [step, Tree.followStep]
      exact (agrees_field h name).derivedFrom cur
  | .index n, _, cur, t, h => by
      rw [step, Tree.followStep]
      exact (agrees_item h n).derivedFrom cur
  | .wildcard pattern, _, cur, t, h => by
      rw [step, Tree.followStep]
      exact (agrees_firstLike h pattern).derivedFrom cur
  | .length, _, cur, t, h => by
      rw [step, Tree.followStep]
      exact agrees_count h
  | .collect each, hs, cur, t, h => by
      rw [Segment.navigates] at hs
      rw [step, Tree.followStep, isArray_of_shows h]
      split
      · next harray =>
          exact shows_gather (forall₂_present (forall₂_array h harray) fun e u he =>
            resolve_agrees ev each hs he)
      · rfl
  | .query condition all each, hs, cur, t, h => by
      rw [Segment.navigates, Bool.and_eq_true] at hs
      have hfound : List.Forall₂ Shows
          (cur.elementViews.filter fun e => holds ev e condition)
          (t.elements.filter fun e => e.satisfies ev.options.maxDepth condition) :=
        List.rel_filter (fun e u he => by
          show ev.holds e condition = true ↔ _
          rw [holds_eq_satisfies ev condition hs.1 he]) (forall₂_elementViews h)
      rw [step, Tree.followStep, opensArray_of_shows h]
      cases t.isArray with
      | false => rfl
      | true =>
          simp only [Bool.not_true, Bool.false_eq_true, if_false, if_true]
          split
          · exact shows_gather (forall₂_present hfound fun e u he =>
              resolve_agrees ev each hs.2 he)
          · refine Agrees.derivedFrom cur ?_
            rw [List.headD_eq_head?_getD]
            revert hfound
            generalize cur.elementViews.filter (fun e => holds ev e condition) = found
            generalize t.elements.filter
              (fun e => e.satisfies ev.options.maxDepth condition) = reference
            intro hfound
            cases hfound with
            | nil => rfl
            | cons he _ => exact he
  | .select asArray entries, hs, cur, t, h => by
      rw [Segment.navigates] at hs
      rw [step, Tree.followStep]
      exact shows_assemble (resolveEntries_agrees ev entries hs h) asArray
  | .descend pattern each, hs, cur, t, h => by
      rw [Segment.navigates] at hs
      rw [step, Tree.followStep]
      exact shows_gather (forall₂_present (forall₂_descendants h _ pattern) fun e u he =>
        resolve_agrees ev each hs he)
  | .literal _, hs, _, _, _ => by cases hs
  | .transform _ _ _, hs, _, _, _ => by cases hs
  | .lines _, hs, _, _, _ => by cases hs

/-- A condition holds of an element exactly when the value that it shows satisfies it. -/
theorem holds_eq_satisfies (ev : Evaluator) :
    ∀ (c : Condition), c.navigates = true → ∀ {e : Selection} {t : Tree}, e.Shows t →
      ev.holds e c = t.satisfies ev.options.maxDepth c
  | .holds field, hc, e, t, h => by
      rw [Condition.navigates] at hc
      rw [holds, Tree.satisfies]
      exact (resolve_agrees ev field hc h).isPresent_eq
  | .compare field operator operand, hc, e, t, h => by
      rw [Condition.navigates] at hc
      rw [holds, Tree.satisfies]
      exact (resolve_agrees ev field hc h).meets_eq operator operand
  | .both left right, hc, e, t, h => by
      rw [Condition.navigates, Bool.and_eq_true] at hc
      rw [holds, Tree.satisfies, holds_eq_satisfies ev left hc.1 h,
        holds_eq_satisfies ev right hc.2 h]
  | .either left right, hc, e, t, h => by
      rw [Condition.navigates, Bool.and_eq_true] at hc
      rw [holds, Tree.satisfies, holds_eq_satisfies ev left hc.1 h,
        holds_eq_satisfies ev right hc.2 h]

/-- The entries of a selector that select something are those of the reference. -/
theorem resolveEntries_agrees (ev : Evaluator) :
    ∀ (entries : List (Text × Path)), Path.allNavigate entries = true →
      ∀ {cur : Selection} {t : Tree}, cur.Shows t →
        List.Forall₂ (fun e m => e.1 = m.1 ∧ e.2.Shows m.2)
          ((ev.resolveEntries cur entries).filter (·.2.isPresent))
          (t.followEntries ev.options.maxDepth entries)
  | [], _, _, _, _ => by
      rw [resolveEntries, Tree.followEntries]
      exact .nil
  | (key, path) :: rest, hentries, cur, t, h => by
      rw [Path.allNavigate, Bool.and_eq_true] at hentries
      have hfirst := resolve_agrees ev path hentries.1 h
      have hrest := resolveEntries_agrees ev rest hentries.2 h
      have hpresent := hfirst.isPresent_eq
      rw [resolveEntries, Tree.followEntries, List.filter_cons]
      dsimp only
      rw [hpresent]
      cases hu : t.follow ev.options.maxDepth path with
      | none => exact hrest
      | some u =>
          rw [hu] at hfirst
          exact .cons ⟨rfl, hfirst⟩ hrest

end

/-! ## Documents -/

theorem shows_document (d : Document) : (document d.source).Shows d.root := by
  rw [document, d.firstValue?_source]
  exact ⟨rfl, rfl⟩

theorem eval_agrees (ev : Evaluator) (d : Document) {path : Path}
    (hpath : Path.navigates path = true) :
    (ev.eval d.source path).Agrees (d.root.follow ev.options.maxDepth path) := by
  have hagrees := resolve_agrees ev path hpath (shows_document d)
  unfold eval
  split
  · cases hpath
  · exact hagrees

/--
In a well-formed document, of whatever depth, a path selects what it leads to in the tree of the
document: nothing exactly where it leads nowhere, and otherwise the kind and the text of the value
that it leads to. The document has such a tree, and this holds for any.
-/
theorem eval_agrees_on_wellFormed (ev : Evaluator) (json : Text) (limit : Option Nat)
    (hwf : wellFormed limit json = true) :
    (∃ d : Document, d.source = json) ∧
      ∀ d : Document, d.source = json → ∀ path : Path, Path.navigates path = true →
        (ev.eval json path = missing ↔ d.root.follow ev.options.maxDepth path = none) ∧
          ∀ t, d.root.follow ev.options.maxDepth path = some t →
            (ev.eval json path).kind = t.kind ∧ (ev.eval json path).raw = t.source := by
  constructor
  · obtain ⟨d, hd, -⟩ := wellFormed_iff.1 hwf
    exact ⟨d, hd⟩
  · rintro d rfl path hpath
    have hagrees := eval_agrees ev d hpath
    cases hfollow : d.root.follow ev.options.maxDepth path with
    | none =>
        rw [hfollow] at hagrees
        exact ⟨⟨fun _ => rfl, fun _ => hagrees⟩, nofun⟩
    | some t =>
        rw [hfollow] at hagrees
        refine ⟨⟨fun hmissing => ?_, nofun⟩, ?_⟩
        · rw [hmissing] at hagrees
          cases Shows.isPresent hagrees
        · rintro u ⟨⟩
          exact hagrees

/-- Three records below a key, two of them with the key `on`. -/
def recordTree : Tree :=
  .objectOf [("items".toList, .arrayOf [
    .objectOf [("id".toList, .ofNat 1), ("on".toList, .ofNat 0)],
    .objectOf [("id".toList, .ofNat 2)],
    .objectOf [("on".toList, .arrayOf []), ("id".toList, .ofNat 30)]])]

/-- The records that have the key, as a condition on one of them. -/
def isOn : Condition :=
  .holds [.field "on".toList]

/-- An object of what queries and a descent find, and of a name that no record has. -/
def summary : Path :=
  [.select false [
    ("ids".toList, [.field "items".toList, .query isOn true [.field "id".toList]]),
    ("name".toList, [.field "items".toList, .query isOn false [], .field "name".toList]),
    ("all".toList, [.descend "i?".toList [], .length])]]

/-- The missing name is left out of the object, and alone it is nothing. -/
theorem eval_summary_of_records :
    recordTree.source = ("\x7b\"items\":[\x7b\"id\":1,\"on\":0\x7d,\x7b\"id\":2\x7d," ++
        "\x7b\"on\":[],\"id\":30\x7d]\x7d").toList ∧
      wellFormed none recordTree.source = true ∧
      (Evaluator.eval ⟨⟨true, 256⟩, fun _ => none⟩ recordTree.source summary).raw =
        "\x7b\"ids\":[1,30],\"all\":3\x7d".toList ∧
      Evaluator.eval ⟨⟨true, 256⟩, fun _ => none⟩ recordTree.source
        [.field "items".toList, .query isOn false [], .field "name".toList] = missing := by
  let d : Document := ⟨.none, recordTree, .none⟩
  have hsource : d.source = recordTree.source := by rfl
  have hwf : wellFormed none recordTree.source = true := by decide +kernel
  have hagrees :=
    (eval_agrees_on_wellFormed ⟨⟨true, 256⟩, fun _ => none⟩ recordTree.source none hwf).2 d hsource
  have hfollow : recordTree.follow 256 summary = some (.objectOf
      [("ids".toList, .arrayOf [.ofNat 1, .ofNat 30]), ("all".toList, .ofNat 3)]) := by
    rfl
  exact ⟨rfl, hwf, ((hagrees summary rfl).2 _ hfollow).2, (hagrees _ rfl).1.2 rfl⟩

end Evaluator

end DotPath
