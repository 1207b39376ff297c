import DotPath.Proofs.Json.Arranged

/-!
# Sorted layouts

If the layout in lines sorts, the order of the members in the document makes no difference, as long
as no two members of an object have the same name. This holds at all levels at once: a member stays
with its name, so that a rearrangement inside its value is not seen from outside. Where names occur
twice, the order of the members with one name is kept; so what the layout writes for an object is a
stable sort of its members by their decoded names. Below the last level nothing is sorted.

## Main definitions

* `Tree.Rearranged`: the same value but for the order of members, and for space.
* `Tree.NamesDistinct`: no object has two members with one name.
* `Tree.LaidOut`: the texts that a value may be laid out as, with members sorted stably.

## Main results

* `laid_eq_of_rearranged`: rearranged values are laid out the same.
* `laidOut_laid`: members are sorted stably wherever they have lines of their own.
* `pretty_sorted`: what the sorted layout makes of documents.
-/

namespace DotPath.Json

open LineOptions

/-- Members under keys, compared by the names that the keys stand for. -/
def byName {α : Type} (a b : Key × α) : Ordering :=
  Text.order a.1.name b.1.name

namespace Tree

/--
The same value but for the order of members in objects, at any level, and for space. Keys and
scalars are spelled the same.
-/
inductive Rearranged : Tree → Tree → Prop where
  | scalar {t : Tree} : t.isArray = false → t.isObject = false → Rearranged t t
  | array {t u : Tree} (pairs : List (Tree × Tree)) :
      t.isArray = true → u.isArray = true →
        pairs.map (·.1) = t.elements → pairs.map (·.2) = u.elements →
          (∀ p ∈ pairs, Rearranged p.1 p.2) → Rearranged t u
  | object {t u : Tree} (pairs : List (Key × Tree × Tree)) :
      t.isObject = true → u.isObject = true →
        pairs.map (fun p => (p.1, p.2.1)) = t.entries →
          (pairs.map fun p => (p.1, p.2.2)).Perm u.entries →
            (∀ p ∈ pairs, Rearranged p.2.1 p.2.2) → Rearranged t u

/-- No object in the value has two members whose keys stand for one name. -/
inductive NamesDistinct : Tree → Prop where
  | mk {t : Tree} : (t.entries.map (·.1.name)).Nodup → (∀ u ∈ t.elements, NamesDistinct u) →
      (∀ e ∈ t.entries, NamesDistinct e.2) → NamesDistinct t

/--
A text that a value is laid out as for `depth` levels of containers. Items stand on lines of their
own, the members of an object in a stable sort; below the last level there is no space.
-/
inductive LaidOut (options : LineOptions) : Nat → Nat → Tree → Text → Prop where
  | scalar {depth level : Nat} {t : Tree} : t.isArray = false → t.isObject = false →
      LaidOut options depth level t t.source
  | compact {level : Nat} {t : Tree} : LaidOut options 0 level t t.compact.source
  | array {depth level : Nat} {t : Tree} (parts : List (Tree × Text)) : t.isArray = true →
      parts.map (·.1) = t.elements →
        (∀ p ∈ parts, LaidOut options depth (level + 1) p.1 p.2) →
          LaidOut options (depth + 1) level t (options.enclose level '[' ']' (parts.map (·.2)))
  | object {depth level : Nat} {t : Tree} (parts : List (Key × Tree × Text)) : t.isObject = true →
      IsStableSort byName t.entries (parts.map fun p => (p.1, p.2.1)) →
        (∀ p ∈ parts, LaidOut options depth (level + 1) p.2.1 p.2.2) →
          LaidOut options (depth + 1) level t
            (options.enclose level '\x7b' '\x7d'
              (parts.map fun p => p.1.source ++ ':' :: ' ' :: p.2.2))

variable {options : LineOptions} {depth level : Nat} {t u : Tree}

/-! ## Heights -/

theorem height_le_itemsHeight {items : List (Item Tree)} {i : Item Tree} (hi : i ∈ items) :
    i.value.height ≤ itemsHeight items := by
  induction items with
  | nil => cases hi
  | cons j items ih =>
      rw [itemsHeight]
      rcases List.mem_cons.1 hi with rfl | hi
      · exact Nat.le_max_left _ _
      · exact (ih hi).trans (Nat.le_max_right _ _)

theorem height_le_entriesHeight {entries : List (Entry Tree)} {e : Entry Tree}
    (he : e ∈ entries) : e.item.value.height ≤ entriesHeight entries := by
  induction entries with
  | nil => cases he
  | cons f entries ih =>
      rw [entriesHeight]
      rcases List.mem_cons.1 he with rfl | he
      · exact Nat.le_max_left _ _
      · exact (ih he).trans (Nat.le_max_right _ _)

theorem height_lt_of_mem_elements (hu : u ∈ t.elements) : u.height < t.height := by
  cases t with
  | array first rest =>
      rw [height, Nat.lt_succ_iff]
      rcases List.mem_cons.1 hu with rfl | hu
      · exact Nat.le_max_left _ _
      · obtain ⟨i, hi, rfl⟩ := List.mem_map.1 hu
        exact (height_le_itemsHeight hi).trans (Nat.le_max_right _ _)
  | _ => cases hu

theorem height_lt_of_mem_entries {e : Key × Tree} (he : e ∈ t.entries) : e.2.height < t.height := by
  cases t with
  | object first rest =>
      rw [height, Nat.lt_succ_iff]
      rcases List.mem_cons.1 he with rfl | he
      · exact Nat.le_max_left _ _
      · obtain ⟨f, hf, rfl⟩ := List.mem_map.1 he
        exact (height_le_entriesHeight hf).trans (Nat.le_max_right _ _)
  | _ => cases he

theorem elements_eq_nil_of_height (h : t.height = 0) : t.elements = [] := by
  refine List.eq_nil_iff_forall_not_mem.2 fun u hu => ?_
  have := height_lt_of_mem_elements hu
  omega

theorem entries_eq_nil_of_height (h : t.height = 0) : t.entries = [] := by
  refine List.eq_nil_iff_forall_not_mem.2 fun e he => ?_
  have := height_lt_of_mem_entries he
  omega

/-! ## Members in order -/

section InOrder

variable {α : Type} {es es' : List (Key × α)}

theorem mem_inOrder {e : Key × α} : e ∈ options.inOrder es ↔ e ∈ es := by
  unfold inOrder
  split
  · exact List.mem_mergeSort
  · rfl

/-- Members in another order are written in the same order, if their names differ. -/
theorem inOrder_eq_of_perm (hsort : options.sortKeys = true) (h : es.Perm es')
    (hdistinct : (es.map (·.1.name)).Nodup) : options.inOrder es = options.inOrder es' := by
  rw [inOrder, inOrder, if_pos hsort, if_pos hsort]
  exact mergeSort_eq_of_perm Text.order (fun e => e.1.name) h hdistinct

/-- Members are written in a stable sort, whatever their names are. -/
theorem isStableSort_inOrder (hsort : options.sortKeys = true) (es : List (Key × α)) :
    IsStableSort byName es (options.inOrder es) := by
  rw [inOrder, if_pos hsort]
  exact isStableSort_mergeSort Text.order (fun e => e.1.name) es

end InOrder

/-! ## Rearranged values -/

/-- Where nothing is inside, nothing is rearranged but space. -/
theorem compact_eq_of_rearranged (h : Rearranged t u) (hheight : t.height = 0) :
    t.compact = u.compact := by
  cases h with
  | scalar ha ho => rfl
  | array pairs ht hu hfst hsnd _ =>
      rw [elements_eq_nil_of_height hheight, List.map_eq_nil_iff] at hfst
      rw [compact_of_isArray ht, compact_of_isArray hu, elements_eq_nil_of_height hheight, ← hsnd,
        hfst]
      rfl
  | object pairs ht hu hfst hsnd _ =>
      rw [entries_eq_nil_of_height hheight, List.map_eq_nil_iff] at hfst
      rw [hfst, List.map_nil, List.nil_perm] at hsnd
      rw [compact_of_isObject ht, compact_of_isObject hu, entries_eq_nil_of_height hheight, hsnd]

/-- Rearranged values are laid out the same, if the names in them differ. -/
theorem laid_eq_of_rearranged (hsort : options.sortKeys = true) (h : Rearranged t u)
    (hdistinct : NamesDistinct t) (hheight : t.height ≤ depth) :
    t.laid options depth level = u.laid options depth level := by
  induction depth generalizing level t u with
  | zero => rw [laid_zero, laid_zero, compact_eq_of_rearranged h (Nat.le_zero.1 hheight)]
  | succ depth ih =>
      obtain ⟨hnames, helements, hentries⟩ := hdistinct
      cases h with
      | scalar ha ho => rfl
      | array pairs ht hu hfst hsnd hpairs =>
          have hparts : ∀ p ∈ pairs, p.1.laid options depth (level + 1) =
              p.2.laid options depth (level + 1) := by
            intro p hp
            have hmem : p.1 ∈ t.elements := hfst ▸ List.mem_map_of_mem hp
            have hlt := height_lt_of_mem_elements hmem
            exact ih (hpairs p hp) (helements p.1 hmem) (by omega)
          rw [laid_of_isArray ht, laid_of_isArray hu, ← hfst, ← hsnd, List.map_map, List.map_map]
          exact congrArg (options.enclose level '[' ']') (List.map_congr_left hparts)
      | object pairs ht hu hfst hsnd hpairs =>
          have hparts : ∀ p ∈ pairs, p.2.1.laid options depth (level + 1) =
              p.2.2.laid options depth (level + 1) := by
            intro p hp
            have hmem : (p.1, p.2.1) ∈ t.entries := hfst ▸ List.mem_map_of_mem hp
            have hlt : p.2.1.height < t.height := height_lt_of_mem_entries hmem
            exact ih (hpairs p hp) (hentries _ hmem) (by omega)
          -- The members are paired in the order of `t`; the pairs are sorted by their names.
          have hsame : (pairs.map fun p => (p.1, p.2.2)).map (·.1.name) =
              t.entries.map (·.1.name) := by
            rw [← hfst, List.map_map, List.map_map]
            rfl
          have horder := inOrder_eq_of_perm hsort hsnd (by rwa [hsame])
          rw [laid_of_isObject ht, laid_of_isObject hu, ← horder, ← hfst, inOrder_map Prod.fst,
            inOrder_map Prod.snd, List.map_map, List.map_map]
          refine congrArg (options.enclose level '\x7b' '\x7d') (List.map_congr_left fun p hp => ?_)
          exact congrArg (p.1.source ++ ':' :: ' ' :: ·) (hparts p (mem_inOrder.1 hp))

/-! ## Sorted members -/

/-- Wherever members have lines of their own, they are sorted stably. -/
theorem laidOut_laid (hsort : options.sortKeys = true) (depth level : Nat) (t : Tree) :
    LaidOut options depth level t (t.laid options depth level) := by
  induction depth generalizing level t with
  | zero =>
      rw [laid_zero]
      exact .compact
  | succ depth ih =>
      cases ha : t.isArray with
      | true =>
          have harray : LaidOut options (depth + 1) level t (options.enclose level '[' ']'
              ((t.elements.map fun u => (u, u.laid options depth (level + 1))).map (·.2))) := by
            refine .array _ ha ?_ (List.forall_mem_map.2 fun u _ => ih (level + 1) u)
            rw [List.map_map]
            exact List.map_id _
          rw [laid_of_isArray ha]
          rwa [List.map_map] at harray
      | false =>
          cases ho : t.isObject with
          | true =>
              have hobject : LaidOut options (depth + 1) level t
                  (options.enclose level '\x7b' '\x7d'
                    (((options.inOrder t.entries).map fun e =>
                      (e.1, e.2, e.2.laid options depth (level + 1))).map fun p =>
                        p.1.source ++ ':' :: ' ' :: p.2.2)) := by
                refine .object _ ho ?_ (List.forall_mem_map.2 fun e _ => ih (level + 1) e.2)
                rw [List.map_map]
                exact (List.map_id (options.inOrder t.entries)).symm ▸
                  isStableSort_inOrder hsort t.entries
              rw [laid_of_isObject ho]
              rwa [List.map_map] at hobject
          | false =>
              rw [laid_of_scalar ha ho]
              exact .scalar ha ho

end Tree

/-! ## Sorted documents -/

/--
The layout in lines with sorted members, whatever the lines begin with; `pretty` is this layout for
the default depth. Two well-formed documents that are the same but for space and for the order of
members, at any level, are laid out as the same text, provided that the names in every object differ
and that no more containers are open at once than are laid out in lines. And whatever the names in a
document are, the members of every object that is laid out in lines are a stable sort of its members
by their decoded names.
-/
theorem pretty_sorted (options : LineOptions) (hsort : options.sortKeys = true) (depth : Nat) :
    (∀ t, wellFormed none t = true ↔ ∃ d : Document, d.source = t) ∧
      (∀ d e : Document, d.root.Rearranged e.root → d.root.NamesDistinct →
        d.root.height ≤ depth →
          prettyWithin options depth d.source = prettyWithin options depth e.source) ∧
      ∀ d : Document, ∃ text, prettyWithin options depth d.source = options.margin ++ text ∧
        Tree.LaidOut options depth 0 d.root text := by
  refine ⟨fun t => isDocument_iff.symm, fun d e h hdistinct hheight => ?_, fun d => ?_⟩
  · rw [prettyWithin_eq_laid, prettyWithin_eq_laid,
      Tree.laid_eq_of_rearranged hsort h hdistinct hheight]
  · exact ⟨_, prettyWithin_eq_laid options depth d, Tree.laidOut_laid hsort depth 0 d.root⟩

/-- A key that is not spelled like the name that it stands for. -/
def escapedKey : Key :=
  ⟨"\\u0063".toList, .unicode rfl rfl rfl rfl .nil⟩

/-- An object inside an object, with the members of both in the order of neither names nor keys. -/
def unsortedMembers : Document :=
  ⟨.none, .ofEntries [Tree.bareEntry (escapedKey,
    .objectOf [(['y'], .ofNat 1), (['x'], .ofNat 2)]),
    Tree.bareEntry (.ofName ['b'], .emptyArray .none)], .none⟩

/-- The same members in the order of their names. -/
def sortedMembers : Document :=
  ⟨.none, .ofEntries [Tree.bareEntry (.ofName ['b'], .emptyArray .none),
    Tree.bareEntry (escapedKey, .objectOf [(['x'], .ofNat 2), (['y'], .ofNat 1)])], .none⟩

theorem rearranged_sortedMembers : unsortedMembers.root.Rearranged sortedMembers.root := by
  have hinside : Tree.Rearranged (.objectOf [(['y'], .ofNat 1), (['x'], .ofNat 2)])
      (.objectOf [(['x'], .ofNat 2), (['y'], .ofNat 1)]) := by
    refine .object [(.ofName ['y'], .ofNat 1, .ofNat 1), (.ofName ['x'], .ofNat 2, .ofNat 2)]
      rfl rfl rfl (.swap _ _ _) ?_
    simp only [List.forall_mem_cons]
    exact ⟨.scalar rfl rfl, .scalar rfl rfl, nofun⟩
  have hempty : Tree.Rearranged (.emptyArray .none) (.emptyArray .none) :=
    .array [] rfl rfl rfl rfl nofun
  refine .object [(escapedKey, _, _), (.ofName ['b'], _, _)] rfl rfl rfl (.swap _ _ _) ?_
  simp only [List.forall_mem_cons]
  exact ⟨hinside, hempty, nofun⟩

theorem namesDistinct_unsortedMembers : unsortedMembers.root.NamesDistinct := by
  have hscalar : ∀ n, (Tree.ofNat n).NamesDistinct := fun n => .mk .nil nofun nofun
  have hinside : (Tree.objectOf [(['y'], .ofNat 1), (['x'], .ofNat 2)]).NamesDistinct := by
    refine .mk (by decide +kernel) nofun (List.forall_mem_cons.2 ⟨hscalar 1, ?_⟩)
    exact List.forall_mem_cons.2 ⟨hscalar 2, nofun⟩
  refine .mk (by decide +kernel) nofun (List.forall_mem_cons.2 ⟨hinside, ?_⟩)
  exact List.forall_mem_cons.2 ⟨.mk .nil nofun nofun, nofun⟩

theorem pretty_sorted_at_two_levels :
    (tabs true).sortKeys = true ∧ unsortedMembers.root.height ≤ 2 ∧
      prettyWithin (tabs true) 2 unsortedMembers.source =
        prettyWithin (tabs true) 2 sortedMembers.source ∧
      (∃ text, prettyWithin (tabs true) 2 unsortedMembers.source = ' ' :: text ∧
        Tree.LaidOut (tabs true) 2 0 unsortedMembers.root text) ∧
      wellFormed none unsortedMembers.source = true := by
  have hheight : unsortedMembers.root.height ≤ 2 := by decide
  obtain ⟨hdocuments, hsame, hstable⟩ := pretty_sorted (tabs true) rfl 2
  exact ⟨rfl, hheight, hsame _ _ rearranged_sortedMembers namesDistinct_unsortedMembers hheight,
    hstable unsortedMembers, (hdocuments _).2 ⟨unsortedMembers, rfl⟩⟩

end DotPath.Json
