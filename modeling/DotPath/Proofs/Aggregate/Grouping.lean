import DotPath.Proofs.Aggregate.Distinct
import Mathlib.Algebra.GroupWithZero.Nat

/-!
# Grouping by a field

Elements are put into groups one after the other: into the group of their key, or into a new one at
the end if there is none. What has been built after some elements is described by these elements
alone. There is a group for each element before which its key does not occur, in the order of these
elements, and it holds all elements with the key, in their order. One more element changes this by
one place, and so the description carries through all elements.

The key is the text of a field. An element without the field, or with null under it, has the empty
text for its key, and so has every element if the field is no path.

## Main definitions

* `groupsOf`: the groups that some elements make, by their keys.

## Main results

* `addToGroup_groupsOf`: what one more element changes.
* `foldl_addToGroup`: what all elements together make.
* `flatMap_groupsOf_perm`: the groups hold every element as often as it occurs.
* `groupBy_partitions`: the groups divide the elements, and keep their order.
-/

namespace DotPath.Aggregate

open Selection

/-! ## One more element -/

section Groups

variable {key : Selection → Text} {es : List Selection}

/-- The elements with a key, in their order. -/
def withKey (key : Selection → Text) (es : List Selection) (k : Text) : List Selection :=
  es.filter fun e => key e = k

/-- A group for each element before which its key does not occur: all elements with the key. -/
def groupsOf (key : Selection → Text) (es : List Selection) : List (Text × List Selection) :=
  (firstOfEach [] (withKeys key es)).map fun d => (key d, withKey key es (key d))

/-- The first elements of their keys have all the keys. -/
theorem mem_map_firstOfEach {k : Text} :
    k ∈ (firstOfEach [] (withKeys key es)).map key ↔ k ∈ es.map key := by
  constructor
  · intro h
    obtain ⟨d, hd, rfl⟩ := List.mem_map.1 h
    exact List.mem_map_of_mem (firstOfEach_sublist.subset hd)
  · intro h
    obtain ⟨e, he, rfl⟩ := List.mem_map.1 h
    have hnew : key e ∉ [] := List.not_mem_nil
    obtain ⟨d, hd, hfind⟩ := exists_find?_of_mem he hnew
    have hkey := List.find?_some hfind
    exact List.mem_map.2 ⟨d, hd, beq_iff_eq.1 hkey⟩

theorem withKey_concat (e : Selection) (k : Text) :
    withKey key (es ++ [e]) k =
      if key e = k then withKey key es k ++ [e] else withKey key es k := by
  rw [withKey, List.filter_append, ← withKey]
  by_cases hk : key e = k
  · rw [if_pos hk, List.filter_cons_of_pos (by simpa using hk), List.filter_nil]
  · rw [if_neg hk, List.filter_cons_of_neg (by simpa using hk), List.filter_nil, List.append_nil]

theorem withKey_eq_nil {k : Text} (h : k ∉ es.map key) : withKey key es k = [] := by
  refine List.filter_eq_nil_iff.2 fun e he heq => h ?_
  exact List.mem_map.2 ⟨e, he, of_decide_eq_true heq⟩

/-- One more element is the first of its key if no element before it has the key. -/
theorem firstOfEach_concat {seen : List Text} (e : Selection) :
    firstOfEach seen (withKeys key (es ++ [e])) =
      firstOfEach seen (withKeys key es) ++
        if key e ∈ seen ∨ key e ∈ es.map key then [] else [e] := by
  induction es generalizing seen with
  | nil =>
      rw [List.nil_append, firstOfEach_cons]
      simp [withKeys, firstOfEach]
  | cons d es ih =>
      rw [List.cons_append, firstOfEach_cons, firstOfEach_cons, List.map_cons]
      by_cases hd : key d ∈ seen
      · have hiff : (key e ∈ seen ∨ key e ∈ key d :: es.map key) ↔
            (key e ∈ seen ∨ key e ∈ es.map key) := by
          rw [List.mem_cons]
          constructor
          · rintro (h | h | h)
            · exact .inl h
            · exact .inl (h ▸ hd)
            · exact .inr h
          · exact Or.imp_right .inr
        rw [if_pos hd, if_pos hd, ih]
        simp only [hiff]
      · have hiff : (key e ∈ key d :: seen ∨ key e ∈ es.map key) ↔
            (key e ∈ seen ∨ key e ∈ key d :: es.map key) := by
          rw [List.mem_cons, List.mem_cons, or_assoc, or_left_comm]
        rw [if_neg hd, if_neg hd, ih, List.cons_append]
        simp only [hiff]

/-- A selection goes to the end of the group of its key, or into a new group at the end. -/
theorem addToGroup_map {ds : List Selection} (k : Text) (s : Selection)
    (f : Selection → List Selection) (hnodup : (ds.map key).Nodup) :
    addToGroup k s (ds.map fun d => (key d, f d)) =
      (ds.map fun d => (key d, if k = key d then f d ++ [s] else f d)) ++
        if k ∈ ds.map key then [] else [(k, [s])] := by
  induction ds with
  | nil => rfl
  | cons d ds ih =>
      obtain ⟨hd, hnodup⟩ := List.nodup_cons.1 hnodup
      rw [List.map_cons, List.map_cons, List.map_cons, addToGroup]
      by_cases hk : k = key d
      · subst hk
        -- No other group has the key, so that the rest stays as it is.
        have hrest : (ds.map fun c => (key c, if key d = key c then f c ++ [s] else f c)) =
            ds.map fun c => (key c, f c) := by
          refine List.map_congr_left fun c hc => ?_
          rw [if_neg fun heq => hd (List.mem_map.2 ⟨c, hc, heq.symm⟩)]
        rw [if_pos (beq_self_eq_true _), if_pos rfl, if_pos List.mem_cons_self, hrest,
          List.append_nil]
      · have hmem : k ∈ key d :: ds.map key ↔ k ∈ ds.map key := by
          rw [List.mem_cons]
          exact or_iff_right hk
        rw [if_neg fun heq => hk (beq_iff_eq.1 heq).symm, if_neg hk, ih hnodup, List.cons_append]
        simp only [hmem]

/-- One more element makes the groups that all elements with it make. -/
theorem addToGroup_groupsOf (e : Selection) :
    addToGroup (key e) e (groupsOf key es) = groupsOf key (es ++ [e]) := by
  have hfirst : firstOfEach [] (withKeys key (es ++ [e])) =
      firstOfEach [] (withKeys key es) ++
        if key e ∈ [] ∨ key e ∈ es.map key then [] else [e] := firstOfEach_concat e
  rw [groupsOf, addToGroup_map _ _ _ nodup_map_firstOfEach, groupsOf, hfirst, List.map_append]
  simp only [withKey_concat, mem_map_firstOfEach, List.not_mem_nil, false_or]
  congr 1
  by_cases hmem : key e ∈ es.map key
  · rw [if_pos hmem, if_pos hmem]
    rfl
  · rw [if_neg hmem, if_neg hmem, List.map_singleton, if_pos rfl, withKey_eq_nil hmem]
    rfl

/-- All elements, put into groups one after the other. -/
theorem foldl_addToGroup (key : Selection → Text) (es : List Selection) :
    es.foldl (fun groups e => addToGroup (key e) e groups) [] = groupsOf key es := by
  induction es using List.reverseRecOn with
  | nil => rfl
  | append_singleton es e ih =>
      rw [List.foldl_append, List.foldl_cons, List.foldl_nil, ih, addToGroup_groupsOf]

/-! ## What is in the groups -/

/-- The groups by the positions of the elements that start them. -/
theorem groupsOf_eq_filter :
    groupsOf key es =
      ((es.zipIdx.filter fun e => key e.1 ∉ (es.take e.2).map key).map (·.1)).map fun d =>
        (key d, withKey key es (key d)) := by
  exact congrArg (List.map fun d => (key d, withKey key es (key d)))
    (firstOfEach_eq_filter [] fun _ => Iff.rfl)

theorem map_fst_groupsOf :
    (groupsOf key es).map (·.1) = (firstOfEach [] (withKeys key es)).map key := by
  rw [groupsOf, List.map_map]
  rfl

/-- A group holds the elements with its key, and there are some. -/
theorem eq_withKey_of_mem_groupsOf {g : Text × List Selection} (hg : g ∈ groupsOf key es) :
    g.2 = withKey key es g.1 ∧ g.2 ≠ [] := by
  obtain ⟨d, hd, rfl⟩ := List.mem_map.1 hg
  refine ⟨rfl, List.ne_nil_of_mem (a := d) ?_⟩
  exact List.mem_filter.2 ⟨firstOfEach_sublist.subset hd, decide_eq_true rfl⟩

/-- An element is in the group of its key and in no other. -/
theorem existsUnique_mem_groupsOf {e : Selection} (he : e ∈ es) :
    ∃ g ∈ groupsOf key es, g.1 = key e ∧ e ∈ g.2 ∧
      ∀ h ∈ groupsOf key es, e ∈ h.2 → h = g := by
  have hmem : key e ∈ es.map key := List.mem_map_of_mem he
  obtain ⟨d, hd, hkey⟩ := List.mem_map.1 (mem_map_firstOfEach.2 hmem)
  refine ⟨(key d, withKey key es (key d)), List.mem_map_of_mem hd, hkey,
    List.mem_filter.2 ⟨he, decide_eq_true hkey.symm⟩, fun h hh hmem => ?_⟩
  have hgroup := (eq_withKey_of_mem_groupsOf hh).1
  have hsame : h.1 = key d := by
    rw [hgroup] at hmem
    exact (of_decide_eq_true (List.mem_filter.1 hmem).2).symm.trans hkey.symm
  exact Prod.ext hsame (by rw [hgroup, hsame])

/-- A selection that is added to a group is added to all that are grouped. -/
theorem flatMap_addToGroup_perm (k : Text) (s : Selection)
    (groups : List (Text × List Selection)) :
    ((addToGroup k s groups).flatMap (·.2)).Perm (groups.flatMap (·.2) ++ [s]) := by
  induction groups with
  | nil => exact .refl _
  | cons g groups ih =>
      obtain ⟨l, group⟩ := g
      rw [addToGroup]
      split
      · rw [List.flatMap_cons, List.flatMap_cons, List.append_assoc, List.append_assoc]
        exact (List.perm_append_comm).append_left group
      · rw [List.flatMap_cons, List.flatMap_cons, List.append_assoc]
        exact ih.append_left group

/-- Together, the groups hold every element as often as it occurs. -/
theorem flatMap_groupsOf_perm : ((groupsOf key es).flatMap (·.2)).Perm es := by
  induction es using List.reverseRecOn with
  | nil => exact .refl _
  | append_singleton es e ih =>
      rw [← addToGroup_groupsOf]
      exact (flatMap_addToGroup_perm _ _ _).trans (ih.append_right [e])

end Groups

/-! ## Groups by a field -/

/-- What an element is grouped by: the text of the field. -/
def groupKey (env : Environment) (field : Text) (e : Selection) : Text :=
  (env.getFrom e field).text

theorem groupBy_eq (env : Environment) (json path field : Text) :
    groupBy env json path field = groupsOf (groupKey env field) (elements env json path) :=
  foldl_addToGroup _ _

/-- What has no value, or null, has the empty text. -/
theorem text_of_absent {s : Selection} (hs : Located s)
    (h : s.isPresent = false ∨ s.kind = .null) : s.text = [] := by
  have hkind : s.kind = .null := h.elim hs.nullIfAbsent id
  rw [text, hkind]

/-- What a field leads to from an element is nothing or one value. -/
theorem located_field (env : Environment) {json path : Text} (field : Text) {e : Selection}
    (he : e ∈ elements env json path) : Located (env.getFrom e field) := by
  have hlocated : Located e := .inr (fills_of_mem_elements env json path e he)
  exact env.shared.getFrom_located hlocated field

/--
The groups are one for each element before which its key does not occur, in the order of these
elements; the group holds all elements with the key, in their order. So no two groups have the same
key, no group is empty, every element is in the group of its key and in no other, and the groups
together hold each element as often as it occurs, so that their sizes add up to the number of
elements. The key of an element is the empty text if the field is missing or null.
-/
theorem groupBy_partitions (env : Environment) (json path field : Text) :
    groupBy env json path field =
        (((elements env json path).zipIdx.filter fun e =>
          groupKey env field e.1 ∉
            ((elements env json path).take e.2).map (groupKey env field)).map (·.1)).map
          (fun d => (groupKey env field d, (elements env json path).filter fun e =>
            groupKey env field e = groupKey env field d)) ∧
      ((groupBy env json path field).map (·.1)).Nodup ∧
      (∀ g ∈ groupBy env json path field, g.2 ≠ []) ∧
      (∀ e ∈ elements env json path, ∃ g ∈ groupBy env json path field,
        g.1 = groupKey env field e ∧ e ∈ g.2 ∧
          ∀ h ∈ groupBy env json path field, e ∈ h.2 → h = g) ∧
      ((groupBy env json path field).flatMap (·.2)).Perm (elements env json path) ∧
      ((groupBy env json path field).map (·.2.length)).sum = count env json path ∧
      ∀ e ∈ elements env json path,
        (env.getFrom e field).isPresent = false ∨ (env.getFrom e field).kind = .null →
          groupKey env field e = [] := by
  have hperm : ((groupsOf (groupKey env field) (elements env json path)).flatMap (·.2)).Perm
      (elements env json path) := flatMap_groupsOf_perm
  rw [groupBy_eq]
  refine ⟨?_, ?_, fun g hg => (eq_withKey_of_mem_groupsOf hg).2,
    fun e he => existsUnique_mem_groupsOf he, hperm, ?_,
    fun e he => text_of_absent (located_field env field he)⟩
  · exact groupsOf_eq_filter
  · rw [map_fst_groupsOf]
    exact nodup_map_firstOfEach
  · rw [← List.length_flatMap]
    exact hperm.length_eq

end DotPath.Aggregate
