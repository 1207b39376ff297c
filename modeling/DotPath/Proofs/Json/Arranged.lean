import DotPath.Proofs.Json.Canonical
import DotPath.Proofs.StableSort
import DotPath.Proofs.Text.Order

/-!
# The layout in lines

The layout in lines takes a document apart with the scans and puts it together again as a text. That
text is the text of a tree too, `Tree.arrange`: the members of an object may be in another order, a
line begins in front of every item, and below a certain depth there is no space at all. It depends
on the tree of the document but not on the space in it. So it makes no difference whether a document
is laid out as it is, from its compact layout, or from a layout in lines; and if members stay in
their order, the compact layout of the layout in lines is that of the document.

## Main definitions

* `Tree.laid`: a tree laid out in lines.
* `Tree.arrange`: the tree that the layout in lines writes.

## Main results

* `laid_of_isArray`, `laid_of_isObject`: the layout in lines by the parts of a tree.
* `laid_eq_source_arrange`: the layout in lines is the text of the tree `Tree.arrange`.
* `arrange_compact`, `arrange_arrange`, `compact_arrange`: what becomes of it when laid out again.
* `layout_round_trip`: the two layouts after each other.
-/

namespace DotPath.Json

/-! ## Items on lines of their own -/

section CloseLast

variable {α β γ : Type} {place : Spaces → α → β} {close : Spaces}

/-- Items that are placed without space behind them, but for the last one. -/
def closeLast (place : Spaces → α → β) (close : Spaces) : List α → List β
  | [] => []
  | [a] => [place close a]
  | a :: rest => place .none a :: closeLast place close rest

theorem closeLast_cons_cons (a b : α) (as : List α) :
    closeLast place close (a :: b :: as) = place .none a :: closeLast place close (b :: as) :=
  rfl

theorem closeLast_ne_nil {as : List α} (h : as ≠ []) : closeLast place close as ≠ [] := by
  cases as with
  | nil => exact absurd rfl h
  | cons a as => cases as <;> exact List.cons_ne_nil _ _

theorem map_closeLast {f : α → γ} {g : β → γ} (h : ∀ s a, g (place s a) = f a) (as : List α) :
    (closeLast place close as).map g = as.map f := by
  induction as with
  | nil => rfl
  | cons a as ih =>
      cases as with
      | nil => rw [closeLast, List.map_singleton, List.map_singleton, h]
      | cons b as => rw [closeLast_cons_cons, List.map_cons, ih, h, List.map_cons (a := a)]

/-- The space that closes the last item comes after the items. -/
theorem intercalate_closeLast {write : β → Text} {body : α → Text}
    (h : ∀ s a, write (place s a) = body a ++ s.1) {as : List α} (hne : as ≠ []) :
    List.intercalate [','] ((closeLast place close as).map write) =
      List.intercalate [','] (as.map body) ++ close.1 := by
  induction as with
  | nil => exact absurd rfl hne
  | cons a as ih =>
      cases as with
      | nil => rw [closeLast, List.map_singleton, List.map_singleton, h,
          List.intercalate_singleton, List.intercalate_singleton]
      | cons b as =>
          have htail : (closeLast place close (b :: as)).map write ≠ [] := by
            rw [ne_eq, List.map_eq_nil_iff]
            exact closeLast_ne_nil (List.cons_ne_nil b as)
          have hbody : (b :: as).map body ≠ [] := List.cons_ne_nil _ _
          rw [closeLast_cons_cons, List.map_cons, List.intercalate_cons_of_ne_nil htail,
            ih (List.cons_ne_nil b as), h, List.map_cons (a := a),
            List.intercalate_cons_of_ne_nil hbody]
          simp [Spaces.none]

end CloseLast

/-! ## Lines -/

/-- The lines begin with space only. -/
def LineOptions.IsSpace (options : LineOptions) : Prop :=
  (∀ c ∈ options.indent, isSpace c) ∧ ∀ c ∈ options.margin, isSpace c

/-- The decoded name that a key stands for. -/
def Key.name (k : Key) : Text :=
  Quoted.text k.source

namespace LineOptions

variable {options : LineOptions}

theorem isSpace_newLine (h : options.IsSpace) (level : Nat) :
    ∀ c ∈ options.newLine level, Json.isSpace c := by
  intro c hc
  rcases List.mem_cons.1 hc with rfl | hc
  · rfl
  · rcases List.mem_append.1 hc with hc | hc
    · exact h.2 c hc
    · obtain ⟨indent, hindent, hc⟩ := List.mem_flatten.1 hc
      rw [List.eq_of_mem_replicate hindent] at hc
      exact h.1 c hc

/-- The beginning of a line as space. -/
def line (h : options.IsSpace) (level : Nat) : Spaces :=
  ⟨options.newLine level, isSpace_newLine h level⟩

/-- Values under keys, in the order in which the layout writes them. -/
def inOrder {α : Type} (options : LineOptions) (entries : List (Key × α)) : List (Key × α) :=
  if options.sortKeys then entries.mergeSort fun a b => Text.order a.1.name b.1.name != .gt
  else entries

theorem inOrder_map {α β : Type} (f : α → β) (entries : List (Key × α)) :
    options.inOrder (entries.map fun e => (e.1, f e.2)) =
      (options.inOrder entries).map fun e => (e.1, f e.2) := by
  unfold inOrder
  split
  · exact (List.map_mergeSort (f := fun e : Key × α => (e.1, f e.2)) fun _ _ _ _ => rfl).symm
  · rfl

theorem inOrder_nil {α : Type} : options.inOrder ([] : List (Key × α)) = [] := by
  unfold inOrder
  split
  · exact List.mergeSort_nil
  · rfl

theorem inOrder_of_sortKeys {α : Type} (h : options.sortKeys = false)
    (entries : List (Key × α)) : options.inOrder entries = entries := by
  rw [inOrder, h, if_neg Bool.false_ne_true]

/-- What is in order stays in order. -/
theorem inOrder_inOrder {α : Type} (entries : List (Key × α)) :
    options.inOrder (options.inOrder entries) = options.inOrder entries := by
  unfold inOrder
  split
  · -- A sort leaves a sorted list as it is.
    exact List.mergeSort_of_pairwise (List.pairwise_mergeSort not_gt_trans not_gt_total entries)
  · rfl

end LineOptions

open LineOptions

namespace Tree

/-! ## The layout of a tree -/

section Laid

variable {options : LineOptions} {depth level : Nat} {t : Tree}

/-- The members that the scan finds, in the order in which the layout writes them. -/
theorem inOrder_source (t : Tree) :
    (if options.sortKeys then sortMembers (Json.members t.source) else Json.members t.source).map
        (fun m => (m.key.raw, m.value.kind, m.value.raw)) =
      (options.inOrder t.entries).map fun e => (e.1.source, e.2.kind, e.2.source) := by
  unfold inOrder
  split
  · -- Both are sorted by the name that the spelled key stands for.
    let le := fun a b : Text × Kind × Text =>
      Text.order (Quoted.text a.1) (Quoted.text b.1) != .gt
    have hscan := List.map_mergeSort (l := Json.members t.source) (s := le)
      (r := fun a b => Text.order a.name b.name != .gt)
      (f := fun m => (m.key.raw, m.value.kind, m.value.raw)) fun _ _ _ _ => rfl
    have htree := List.map_mergeSort (l := t.entries) (s := le)
      (r := fun a b => Text.order a.1.name b.1.name != .gt)
      (f := fun e => (e.1.source, e.2.kind, e.2.source)) fun _ _ _ _ => rfl
    rw [sortMembers, hscan, t.entries_source, htree]
  · exact t.entries_source

/-- What depends on the kind and the text of the elements only. -/
theorem map_elements_source {α : Type} {f : Occurrence → α} {g : Tree → α}
    (hfg : ∀ v u, v.kind = u.kind → v.raw = u.source → f v = g u) (t : Tree) :
    (Json.elements t.source).map f = t.elements.map g :=
  map_eq_map_of t.elements_source fun v _ u hvu => hfg v u (Prod.mk.inj hvu).1 (Prod.mk.inj hvu).2

/-- A member on its line depends on the layout of its value only. -/
theorem map_inOrder_source {f : Occurrence → Text} {g : Tree → Text}
    (hfg : ∀ v u, v.kind = u.kind → v.raw = u.source → f v = g u) (t : Tree) :
    (if options.sortKeys then sortMembers (Json.members t.source) else Json.members t.source).map
        (fun m => m.key.raw ++ ':' :: ' ' :: f m.value) =
      (options.inOrder t.entries).map fun e => e.1.source ++ ':' :: ' ' :: g e.2 := by
  refine map_eq_map_of (inOrder_source t) fun m _ e hme => ?_
  obtain ⟨hkey, hvalue⟩ := Prod.mk.inj hme
  rw [hkey, hfg m.value e.2 (Prod.mk.inj hvalue).1 (Prod.mk.inj hvalue).2]

theorem kind_eq_container_iff : t.kind = .container ↔ t.isArray = true ∨ t.isObject = true := by
  cases t with
  | scalar kind raw spelled =>
      have hkind : kind ≠ .container := by
        rintro rfl
        cases spelled
      simpa [Tree.kind, isArray, isObject] using hkind
  | _ => simp [Tree.kind, isArray, isObject]

/-- A value laid out in lines, for `depth` levels of containers. -/
def laid (options : LineOptions) (depth level : Nat) (t : Tree) : Text :=
  options.lay depth level ⟨t.kind, 0, t.source⟩

/-- The layout looks at the kind and the text of a value only. -/
theorem lay_eq_laid {v : Occurrence} (hkind : v.kind = t.kind) (hraw : v.raw = t.source) :
    options.lay depth level v = t.laid options depth level := by
  rw [laid, lay.eq_def, lay.eq_def options depth level ⟨t.kind, 0, t.source⟩, hkind, hraw]

theorem laid_of_scalar (ha : t.isArray = false) (ho : t.isObject = false) :
    t.laid options depth level = t.source := by
  have hkind : t.kind ≠ .container := by
    rw [ne_eq, kind_eq_container_iff, ha, ho]
    decide
  rw [laid, lay.eq_def, if_pos hkind]

/-- Below the last level there is no space. -/
theorem laid_zero : t.laid options 0 level = t.compact.source := by
  rw [laid, lay]
  split
  · next hkind =>
      obtain ⟨ha, ho⟩ := not_or.1 (mt kind_eq_container_iff.2 hkind)
      rw [compact_of_scalar (Bool.eq_false_iff.2 ha) (Bool.eq_false_iff.2 ho)]
  · exact compactFrom_source t

/-- An array is laid out by its elements. -/
theorem laid_of_isArray (ha : t.isArray = true) :
    t.laid options (depth + 1) level =
      options.enclose level '[' ']' (t.elements.map (laid options depth (level + 1))) := by
  have hkind : ¬ t.kind ≠ .container := not_not.2 (kind_eq_container_iff.2 (.inl ha))
  have ho : ¬ t.isObject = true := by
    intro ho
    rw [isArray_of_isObject ho] at ha
    cases ha
  rw [laid, lay, if_neg hkind, opensObject_source, if_neg ho]
  exact congrArg (options.enclose level '[' ']') (map_elements_source (fun v u => lay_eq_laid) t)

/-- An object is laid out by its members, in order. -/
theorem laid_of_isObject (ho : t.isObject = true) :
    t.laid options (depth + 1) level =
      options.enclose level '\x7b' '\x7d'
        ((options.inOrder t.entries).map fun e =>
          e.1.source ++ ':' :: ' ' :: e.2.laid options depth (level + 1)) := by
  have hkind : ¬ t.kind ≠ .container := not_not.2 (kind_eq_container_iff.2 (.inr ho))
  rw [laid, lay, if_neg hkind, opensObject_source, if_pos ho]
  exact congrArg (options.enclose level '\x7b' '\x7d')
    (map_inOrder_source (fun v u => lay_eq_laid) t)

end Laid

/-! ## The tree of the layout -/

section Arrange

variable {options : LineOptions} (h : options.IsSpace)

/-- An element on a line of its own. -/
def onLine (line after : Spaces) (t : Tree) : Item Tree :=
  ⟨line, t, after⟩

theorem isSpace_behind_colon : ∀ c ∈ [' '], isSpace c := by
  simp [isSpace]

/-- A member on a line of its own. -/
def memberOnLine (line after : Spaces) (e : Key × Tree) : Entry Tree :=
  ⟨line, e.1, .none, ⟨⟨[' '], isSpace_behind_colon⟩, e.2, after⟩⟩

theorem elements_lines (line close : Spaces) (us : List Tree) :
    (ofItems (closeLast (onLine line) close us)).elements = us := by
  have hvalues : ∀ s u, (onLine line s u).value = id u := fun _ _ => rfl
  rw [elements_ofItems, map_closeLast hvalues, List.map_id]

theorem entries_lines (line close : Spaces) (es : List (Key × Tree)) :
    (ofEntries (closeLast (memberOnLine line) close es)).entries = es := by
  have hvalues : ∀ s e, ((memberOnLine line s e).key, (memberOnLine line s e).item.value) = id e :=
    fun _ _ => rfl
  rw [entries_ofEntries, map_closeLast hvalues, List.map_id]

/-- The tree that the layout in lines writes, for `depth` levels of containers. -/
def arrange : Nat → Nat → Tree → Tree
  | 0, _, t => t.compact
  | depth + 1, level, t =>
    if t.isArray then
      ofItems <| closeLast (onLine (line h (level + 1))) (line h level) <|
        t.elements.map (arrange depth (level + 1))
    else if t.isObject then
      ofEntries <| closeLast (memberOnLine (line h (level + 1))) (line h level) <|
        (options.inOrder t.entries).map fun e => (e.1, arrange depth (level + 1) e.2)
    else t

variable {depth level : Nat} {t : Tree}

theorem arrange_of_isArray (ha : t.isArray = true) :
    t.arrange h (depth + 1) level =
      ofItems (closeLast (onLine (line h (level + 1))) (line h level)
        (t.elements.map (arrange h depth (level + 1)))) := by
  rw [arrange, if_pos ha]

theorem arrange_of_isObject (ho : t.isObject = true) :
    t.arrange h (depth + 1) level =
      ofEntries (closeLast (memberOnLine (line h (level + 1))) (line h level)
        ((options.inOrder t.entries).map fun e => (e.1, arrange h depth (level + 1) e.2))) := by
  have ha : t.isArray ≠ true := by
    rw [isArray_of_isObject ho]
    exact Bool.false_ne_true
  rw [arrange, if_neg ha, if_pos ho]

theorem arrange_of_scalar (ha : t.isArray = false) (ho : t.isObject = false) :
    t.arrange h depth level = t := by
  cases depth with
  | zero => exact compact_of_scalar ha ho
  | succ depth => rw [arrange, ha, ho, if_neg Bool.false_ne_true, if_neg Bool.false_ne_true]

theorem isArray_arrange (t : Tree) : (t.arrange h depth level).isArray = t.isArray := by
  cases depth with
  | zero => exact t.isArray_compact
  | succ depth =>
      cases ha : t.isArray with
      | true => rw [arrange_of_isArray h ha, isArray_ofItems]
      | false =>
          cases ho : t.isObject with
          | true => rw [arrange_of_isObject h ho, isArray_ofEntries]
          | false => rw [arrange_of_scalar h ha ho, ha]

theorem isObject_arrange (t : Tree) : (t.arrange h depth level).isObject = t.isObject := by
  cases depth with
  | zero => exact t.isObject_compact
  | succ depth =>
      cases ho : t.isObject with
      | true => rw [arrange_of_isObject h ho, isObject_ofEntries]
      | false =>
          cases ha : t.isArray with
          | true => rw [arrange_of_isArray h ha, isObject_ofItems]
          | false => rw [arrange_of_scalar h ha ho, ho]

theorem elements_arrange (t : Tree) :
    (t.arrange h (depth + 1) level).elements = t.elements.map (arrange h depth (level + 1)) := by
  cases ha : t.isArray with
  | true =>
      rw [arrange_of_isArray h ha, elements_lines]
  | false =>
      rw [elements_eq_nil ha, elements_eq_nil ((isArray_arrange h t).trans ha), List.map_nil]

theorem entries_arrange (t : Tree) :
    (t.arrange h (depth + 1) level).entries =
      (options.inOrder t.entries).map fun e => (e.1, arrange h depth (level + 1) e.2) := by
  cases ho : t.isObject with
  | true =>
      rw [arrange_of_isObject h ho, entries_lines]
  | false =>
      rw [entries_eq_nil ho, entries_eq_nil ((isObject_arrange h t).trans ho), inOrder_nil,
        List.map_nil]

/-- The parts of a container determine how it is laid out. -/
theorem arrange_congr {u : Tree} (ha : t.isArray = u.isArray) (ho : t.isObject = u.isObject)
    (helements : t.elements.map (arrange h depth (level + 1)) =
      u.elements.map (arrange h depth (level + 1)))
    (hentries : (options.inOrder t.entries).map (fun e => (e.1, arrange h depth (level + 1) e.2)) =
      (options.inOrder u.entries).map fun e => (e.1, arrange h depth (level + 1) e.2))
    (hscalar : u.isArray = false → u.isObject = false → t = u) :
    t.arrange h (depth + 1) level = u.arrange h (depth + 1) level := by
  cases harray : u.isArray with
  | true =>
      rw [arrange_of_isArray h (ha.trans harray), arrange_of_isArray h harray, helements]
  | false =>
      cases hobject : u.isObject with
      | true =>
          rw [arrange_of_isObject h (ho.trans hobject), arrange_of_isObject h hobject, hentries]
      | false => rw [hscalar harray hobject]

/-- Space makes no difference to the layout. -/
theorem arrange_compact (t : Tree) : t.compact.arrange h depth level = t.arrange h depth level := by
  induction depth generalizing level t with
  | zero => exact t.compact_compact
  | succ depth ih =>
      refine arrange_congr h t.isArray_compact t.isObject_compact ?_ ?_ compact_of_scalar
      · rw [elements_compact, List.map_map]
        exact List.map_congr_left fun u _ => ih u
      · rw [entries_compact, inOrder_map, List.map_map]
        exact List.map_congr_left fun e _ => congrArg (Prod.mk e.1) (ih e.2)

/-- Nor does it make a difference that a value is laid out already. -/
theorem arrange_arrange (t : Tree) :
    (t.arrange h depth level).arrange h depth level = t.arrange h depth level := by
  induction depth generalizing level t with
  | zero => exact t.compact_compact
  | succ depth ih =>
      refine arrange_congr h (isArray_arrange h t) (isObject_arrange h t) ?_ ?_
        (arrange_of_scalar h)
      · rw [elements_arrange, List.map_map]
        exact List.map_congr_left fun u _ => ih u
      · rw [entries_arrange, inOrder_map, inOrder_inOrder, List.map_map]
        exact List.map_congr_left fun e _ => congrArg (Prod.mk e.1) (ih e.2)

/-- If members stay in their order, the layout adds space only. -/
theorem compact_arrange (hsort : options.sortKeys = false) (t : Tree) :
    (t.arrange h depth level).compact = t.compact := by
  induction depth generalizing level t with
  | zero => exact t.compact_compact
  | succ depth ih =>
      cases ha : t.isArray with
      | true =>
          rw [compact_of_isArray ((isArray_arrange h t).trans ha), compact_of_isArray ha,
            elements_arrange, List.map_map]
          exact congrArg ofItems (List.map_congr_left fun u _ => congrArg Item.bare (ih u))
      | false =>
          cases ho : t.isObject with
          | true =>
              rw [compact_of_isObject ((isObject_arrange h t).trans ho), compact_of_isObject ho,
                entries_arrange, inOrder_of_sortKeys hsort, List.map_map]
              exact congrArg ofEntries (List.map_congr_left fun e _ =>
                congrArg (fun u => bareEntry (e.1, u)) (ih e.2))
          | false => rw [arrange_of_scalar h ha ho]

/-! ### The text of the tree -/

/-- Items on lines of their own are written by the lines between the brackets. -/
theorem enclose_eq {α β : Type} {place : Spaces → α → β} {write : β → Text} {body : α → Text}
    (hplace : ∀ s a, write (place s a) = (options.newLine (level + 1) ++ body a) ++ s.1)
    (opening closing : Char) (as : List α) :
    options.enclose level opening closing (as.map body) =
      opening :: (List.intercalate [','] ((closeLast place (line h level) as).map write) ++
        [closing]) := by
  cases as with
  | nil => rfl
  | cons a as =>
      rw [intercalate_closeLast hplace (List.cons_ne_nil a as), enclose, List.map_map,
        if_neg (by simp)]
      rfl

theorem source_lines (us : List Tree) :
    (ofItems (closeLast (onLine (line h (level + 1))) (line h level) us)).source =
      options.enclose level '[' ']' (us.map source) := by
  rw [source_ofItems, enclose_eq h]
  intro s u
  simp [onLine, Item.source, line]

theorem source_memberLines (es : List (Key × Tree)) :
    (ofEntries (closeLast (memberOnLine (line h (level + 1))) (line h level) es)).source =
      options.enclose level '\x7b' '\x7d'
        (es.map fun e => e.1.source ++ ':' :: ' ' :: e.2.source) := by
  rw [source_ofEntries, enclose_eq h]
  intro s e
  simp [memberOnLine, Entry.source, Item.source, Spaces.none, line]

/-- The layout in lines is the text of the tree. -/
theorem laid_eq_source_arrange (t : Tree) :
    t.laid options depth level = (t.arrange h depth level).source := by
  induction depth generalizing level t with
  | zero => exact laid_zero
  | succ depth ih =>
      -- The parts are laid out one level deeper, so the induction is for every level.
      cases ha : t.isArray with
      | true =>
          rw [laid_of_isArray ha, arrange_of_isArray h ha, source_lines, List.map_map]
          exact congrArg (options.enclose level '[' ']') (List.map_congr_left fun u _ => ih u)
      | false =>
          cases ho : t.isObject with
          | true =>
              rw [laid_of_isObject ho, arrange_of_isObject h ho, source_memberLines, List.map_map]
              exact congrArg (options.enclose level '\x7b' '\x7d')
                (List.map_congr_left fun e _ => congrArg (e.1.source ++ ':' :: ' ' :: ·) (ih e.2))
          | false => rw [laid_of_scalar ha ho, arrange_of_scalar h ha ho]

end Arrange

end Tree

/-! ## Documents in lines -/

theorem prettyWithin_eq_laid (options : LineOptions) (depth : Nat) (d : Document) :
    prettyWithin options depth d.source = options.margin ++ d.root.laid options depth 0 := by
  have hlay : options.lay depth 0 ⟨d.root.kind, Text.byteLength d.before.1, d.root.source⟩ =
      d.root.laid options depth 0 :=
    Tree.lay_eq_laid rfl rfl
  rw [prettyWithin, document?_source, ← hlay]

theorem prettyWithin_source {options : LineOptions} (h : options.IsSpace) (depth : Nat)
    (d : Document) : prettyWithin options depth d.source =
      Document.source ⟨⟨options.margin, h.2⟩, d.root.arrange h depth 0, .none⟩ := by
  rw [prettyWithin_eq_laid, Tree.laid_eq_source_arrange h]
  simp [Document.source, Spaces.none]

theorem prettyWithin_of_not_isDocument {t : Text} (h : ¬ IsDocument t) (options : LineOptions)
    (depth : Nat) : prettyWithin options depth t = t := by
  rw [isDocument_iff, Bool.not_eq_true] at h
  rw [prettyWithin, document?, h]
  rfl

/-- A document laid out in lines is a document. -/
theorem isDocument_pretty {options : LineOptions} (h : options.IsSpace) {t : Text}
    (ht : IsDocument t) : IsDocument (pretty options t) := by
  obtain ⟨d, rfl⟩ := ht
  exact ⟨_, (prettyWithin_source h defaultDepth d).symm⟩

/--
The layout in lines and the compact layout after each other, for lines that begin with space. The
compact layout undoes the layout in lines if members stay in their order. The layout in lines comes
out the same for a document, for its compact layout, and for what is laid out already. And a text
that is not one well-formed value is left alone by both.
-/
theorem layout_round_trip (options : LineOptions) (depth : Nat) :
    (options.IsSpace →
      (options.sortKeys = false → ∀ t, minify (prettyWithin options depth t) = minify t) ∧
      ∀ t, wellFormed none t = true →
        prettyWithin options depth (minify t) = prettyWithin options depth t ∧
        prettyWithin options depth (prettyWithin options depth t) =
          prettyWithin options depth t) ∧
    ∀ t, wellFormed none t = false → prettyWithin options depth t = t ∧ minify t = t := by
  refine ⟨fun h => ⟨fun hsort t => ?_, fun t ht => ?_⟩, fun t ht => ?_⟩
  · by_cases ht : IsDocument t
    · obtain ⟨d, rfl⟩ := ht
      rw [prettyWithin_source h, minify_source, minify_source, Tree.compact_arrange h hsort]
    · rw [prettyWithin_of_not_isDocument ht]
  · obtain ⟨d, rfl⟩ := isDocument_iff.2 ht
    have hbare : d.root.compact.source = Document.source ⟨.none, d.root.compact, .none⟩ := by
      simp [Document.source, Spaces.none]
    constructor
    · rw [minify_source, hbare, prettyWithin_source h, prettyWithin_source h, Tree.arrange_compact]
    · rw [prettyWithin_source h, prettyWithin_source h, Tree.arrange_arrange]
  · have hdoc : ¬ IsDocument t := by
      rw [isDocument_iff, ht]
      exact Bool.false_ne_true
    exact ⟨prettyWithin_of_not_isDocument hdoc options depth, minify_of_not_isDocument hdoc⟩

/-- A tab per level and a space in front of every line. -/
def tabs (sortKeys : Bool) : LineOptions :=
  ⟨['\t'], [' '], sortKeys⟩

def unarranged : Text :=
  "\x7b\"b\" :[1, 2],\"a\":\" \" \x7d\n".toList

def arrangedInTabs : Text :=
  " \x7b\n \t\"b\": [1,2],\n \t\"a\": \" \"\n \x7d".toList

theorem layout_round_trip_in_tabs :
    (tabs false).IsSpace ∧ (tabs true).IsSpace ∧ wellFormed none unarranged = true ∧
      wellFormed none ['[', ','] = false ∧
      prettyWithin (tabs false) 1 unarranged = arrangedInTabs ∧
      minify arrangedInTabs = minify unarranged ∧
      prettyWithin (tabs false) 1 (minify unarranged) = arrangedInTabs ∧
      prettyWithin (tabs false) 1 arrangedInTabs = arrangedInTabs ∧
      prettyWithin (tabs true) 1 (minify unarranged) = prettyWithin (tabs true) 1 unarranged ∧
      prettyWithin (tabs true) 1 ['[', ','] = ['[', ','] := by
  have hspace : ∀ sortKeys, (tabs sortKeys).IsSpace := by
    intro sortKeys
    simp [LineOptions.IsSpace, tabs, isSpace]
  have hwell : wellFormed none unarranged = true := by decide +kernel
  have hill : wellFormed none ['[', ','] = false := by decide +kernel
  have hlaid : prettyWithin (tabs false) 1 unarranged = arrangedInTabs := by decide +kernel
  obtain ⟨hkept, hsame⟩ := (layout_round_trip (tabs false) 1).1 (hspace false)
  have hminify := hkept rfl unarranged
  obtain ⟨hcompact, htwice⟩ := hsame unarranged hwell
  rw [hlaid] at hminify hcompact htwice
  obtain ⟨hlines, hrest⟩ := layout_round_trip (tabs true) 1
  have hsorted := ((hlines (hspace true)).2 unarranged hwell).1
  exact ⟨hspace false, hspace true, hwell, hill, hlaid, hminify, hcompact, htwice, hsorted,
    (hrest _ hill).1⟩

end DotPath.Json
