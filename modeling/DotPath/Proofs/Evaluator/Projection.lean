import DotPath.Proofs.Evaluator.Fusion
import DotPath.Proofs.Json.Nodes
import DotPath.Proofs.Json.Quoted

/-!
# Selectors put together what their paths lead to

A selector writes a new text: the keys are quoted, the texts that its paths lead to are put behind
them or between brackets, and the whole is scanned like any document. What is read back are the keys
and the values that went in. Keys are decoded to what they were, whatever characters they have, and
a value is read back as it is because it is one value from its first character to its last, even if
it is malformed inside.

Entries whose path leads nowhere are left out. If the keys are distinct, each of them leads to the
value of its own entry, and to nothing if that was left out.

## Main definitions

* `Evaluator.projected`: the entries that lead somewhere, with what they lead to.

## Main results

* `HasMembers.members`, `HasMembers.field`: the members of an object by their names.
* `Evaluator.select_projects`: what objects and arrays of entries consist of.
-/

namespace DotPath

open Json

namespace Selection

theorem ofText_of_fills {kind : Kind} {t : Text} (h : Fills kind t) :
    ofText t = ⟨kind, t, false, none, []⟩ := by
  rw [ofText, h.firstValue?]

/-! ## Members of an object with distinct names -/

variable {s : Selection} {named : List (Text × Selection)}

/-- The members are these values, by their names. -/
def HasMembers (s : Selection) (named : List (Text × Selection)) : Prop :=
  (Json.members s.raw).map (fun m => (Quoted.text m.key.raw, m.value.kind, m.value.raw)) =
    named.map fun e => (e.1, e.2.kind, e.2.raw)

theorem HasMembers.members (h : s.HasMembers named) (hobject : s.isObject = true)
    (hnodup : (named.map (·.1)).Nodup) :
    s.members.map (fun m => (m.1, m.2.kind, m.2.raw)) =
      named.map fun e => (e.1, e.2.kind, e.2.raw) := by
  have hdistinct : (Json.names (named.map fun e => (e.1, e.2.kind, e.2.raw))).Nodup := by
    rwa [Json.names, List.map_map]
  rw [map_members hobject, h, firstMembers_of_nodup hdistinct]

/-- A field is the first of the values with its name. -/
theorem HasMembers.field (h : s.HasMembers named) (name : Text) :
    (s.field name).Alike (((named.find? (·.1 == name)).map (·.2)).getD missing) := by
  have hrel : Option.Rel (fun (m : Member) (e : Text × Selection) =>
      (Quoted.text m.key.raw, m.value.kind, m.value.raw) = (e.1, e.2.kind, e.2.raw))
      ((Json.members s.raw).find? fun m => Quoted.text m.key.raw == name)
      (named.find? (·.1 == name)) :=
    rel_find? (forall₂_of_map_eq h) fun m e hme => by rw [(Prod.mk.inj hme).1]
  rw [Selection.field]
  generalize (Json.members s.raw).find? (fun m => Quoted.text m.key.raw == name) = member
    at hrel ⊢
  generalize named.find? (·.1 == name) = entry at hrel ⊢
  cases hrel with
  | none => exact .refl missing
  | some hme =>
      obtain ⟨hkind, hraw⟩ := Prod.mk.inj (Prod.mk.inj hme).2
      exact ⟨hkind, hraw⟩

end Selection

open Selection

namespace Evaluator

/-- The entries of a selector that lead somewhere, each with what it leads to. -/
def projected (ev : Evaluator) (cur : Selection) (entries : List (Text × Path)) :
    List (Text × Selection) :=
  (entries.map fun e => (e.1, ev.resolve cur e.2)).filter (·.2.isPresent)

section Projected

variable {cur : Selection} {entries : List (Text × Path)}

theorem resolveEntries_eq_map (ev : Evaluator) (cur : Selection) (entries : List (Text × Path)) :
    ev.resolveEntries cur entries = entries.map fun e => (e.1, ev.resolve cur e.2) := by
  induction entries with
  | nil => rw [resolveEntries, List.map_nil]
  | cons e rest ih => rw [resolveEntries, ih, List.map_cons]

theorem fills_of_mem_projected (ev : Evaluator) (hcur : Located cur) :
    ∀ e ∈ ev.projected cur entries, Fills e.2.kind e.2.raw := by
  intro e he
  obtain ⟨hmem, hpresent⟩ := List.mem_filter.1 he
  obtain ⟨entry, -, rfl⟩ := List.mem_map.1 hmem
  exact (ev.resolve_located hcur entry.2).fills hpresent

theorem keys_pairs (ev : Evaluator) (cur : Selection) (entries : List (Text × Path)) :
    (entries.map fun e => (e.1, ev.resolve cur e.2)).map (·.1) = entries.map (·.1) := by
  rw [List.map_map]
  rfl

theorem nodup_projected (ev : Evaluator) (hkeys : (entries.map (·.1)).Nodup) :
    ((ev.projected cur entries).map (·.1)).Nodup := by
  rw [← ev.keys_pairs cur] at hkeys
  exact hkeys.sublist (List.filter_sublist.map _)

/-- By its key, every entry is found with what it leads to, or not at all. -/
theorem find?_projected (ev : Evaluator) (hcur : Located cur)
    (hkeys : (entries.map (·.1)).Nodup) {e : Text × Path} (he : e ∈ entries) :
    ((((ev.projected cur entries).find? (·.1 == e.1)).map (·.2)).getD missing).Alike
      (ev.resolve cur e.2) := by
  have hpair : (e.1, ev.resolve cur e.2) ∈ entries.map fun e => (e.1, ev.resolve cur e.2) :=
    List.mem_map_of_mem he
  cases hpresent : (ev.resolve cur e.2).isPresent with
  | true =>
      have hmem : (e.1, ev.resolve cur e.2) ∈ ev.projected cur entries :=
        List.mem_filter.2 ⟨hpair, hpresent⟩
      rw [find?_of_nodup_map (ev.nodup_projected hkeys) hmem]
      exact .refl _
  | false =>
      have hnone : (ev.projected cur entries).find? (·.1 == e.1) = none := by
        refine List.find?_eq_none.2 fun other hother hsame => ?_
        obtain ⟨hmem, hother⟩ := List.mem_filter.1 hother
        rw [← ev.keys_pairs cur] at hkeys
        rw [List.inj_on_of_nodup_map hkeys hmem hpair (beq_iff_eq.1 hsame), hpresent] at hother
        cases hother
      rw [hnone]
      exact ((ev.resolve_located hcur e.2).alike_missing hpresent).symm

/-- What a selector makes is the text that is put together, taken as a value of its own. -/
theorem resolve_select (ev : Evaluator) (hcur : Located cur) (hpresent : cur.isPresent = true)
    (entries : List (Text × Path)) :
    ev.resolve cur [.select false entries] = ⟨.container,
        composeObject ((ev.projected cur entries).map fun e => (e.1, e.2.raw)),
        false, none, []⟩ ∧
      ev.resolve cur [.select true entries] = ⟨.container,
        composeArray ((ev.projected cur entries).map (·.2.raw)), false, none, []⟩ := by
  have hstep : ∀ asArray, ev.resolve cur [.select asArray entries] =
      ofText (if asArray then composeArray ((ev.projected cur entries).map (·.2.raw))
        else composeObject ((ev.projected cur entries).map fun e => (e.1, e.2.raw))) := by
    intro asArray
    rw [resolve, hpresent, Bool.not_true, Bool.false_and, if_neg Bool.false_ne_true, resolve, step,
      assemble, ev.resolveEntries_eq_map, projected]
  have hfills : ∀ e ∈ ev.projected cur entries, Fills e.2.kind e.2.raw :=
    ev.fills_of_mem_projected hcur
  rw [hstep, hstep]
  exact ⟨ofText_of_fills (fills_composeObject hfills), ofText_of_fills (fills_composeArray hfills)⟩

/--
From every selection that is one value, a selector with distinct keys makes an object whose members
are, in order, the entries whose path leads somewhere: the decoded key is the key of the entry,
whatever characters it has, and the value has the kind and the text that the path leads to. Each key
leads from the object to the same kind and text as the path of its entry leads to from the
selection; to nothing, if that is nothing. The selector for an array makes an array whose elements
have the kinds and texts that the paths lead to, in order, those left out that lead nowhere.

All results of paths are one value, or nothing, and so are their elements and members.
-/
theorem select_projects (ev : Evaluator) (hcur : Located cur) (hpresent : cur.isPresent = true)
    (hkeys : (entries.map (·.1)).Nodup) :
    ((ev.resolve cur [.select false entries]).isObject = true ∧
      (Json.members (ev.resolve cur [.select false entries]).raw).map
          (fun m => (Quoted.text m.key.raw, m.value.kind, m.value.raw)) =
        (ev.projected cur entries).map (fun e => (e.1, e.2.kind, e.2.raw)) ∧
      (ev.resolve cur [.select false entries]).members.map (fun m => (m.1, m.2.kind, m.2.raw)) =
        (ev.projected cur entries).map (fun e => (e.1, e.2.kind, e.2.raw)) ∧
      ∀ e ∈ entries, Alike (ev.resolve (ev.resolve cur [.select false entries]) [.field e.1])
        (ev.resolve cur e.2)) ∧
      (ev.resolve cur [.select true entries]).isArray = true ∧
      (ev.resolve cur [.select true entries]).array.map (fun e => (e.kind, e.raw)) =
        (ev.projected cur entries).map (fun e => (e.2.kind, e.2.raw)) := by
  have hfills : ∀ e ∈ ev.projected cur entries, Fills e.2.kind e.2.raw :=
    ev.fills_of_mem_projected hcur
  obtain ⟨hobject, harray⟩ := ev.resolve_select hcur hpresent entries
  have hmembers : (ev.resolve cur [.select false entries]).HasMembers
      (ev.projected cur entries) := by
    rw [HasMembers, hobject]
    exact members_composeObject hfills
  have hisObject : (ev.resolve cur [.select false entries]).isObject = true := by
    rw [hobject]
    rfl
  have hisArray : (ev.resolve cur [.select true entries]).isArray = true := by
    rw [harray]
    rfl
  refine ⟨⟨hisObject, hmembers, hmembers.members hisObject (ev.nodup_projected hkeys),
    fun e he => ?_⟩, hisArray, ?_⟩
  · have hfield : (ev.resolve (ev.resolve cur [.select false entries]) [.field e.1]).Alike
        ((ev.resolve cur [.select false entries]).field e.1) := by
      have hnone : (ev.resolve cur [.select false entries]).isPresent = true := by
        rw [hobject]
        rfl
      rw [resolve, hnone, Bool.not_true, Bool.false_and, if_neg Bool.false_ne_true, resolve, step]
      exact alike_derivedFrom _ _
    exact (hfield.trans (hmembers.field e.1)).trans (ev.find?_projected hcur hkeys he)
  · rw [map_array hisArray, harray]
    exact elements_composeArray hfills

/-- A key that has to be escaped, one that is empty, and an entry that leads nowhere. -/
theorem select_projects_of_three_entries :
    Located (document "\x7b\"a\":[1 ],\"b\":null\x7d".toList) ∧
      (document "\x7b\"a\":[1 ],\"b\":null\x7d".toList).isPresent = true ∧
      ([("\"é\n".toList, [.field ['a']]), (['x'], [.field ['c']]), ([], [.field ['b']])].map
        (fun e : Text × Path => e.1)).Nodup ∧
      (Evaluator.resolve ⟨⟨true, 256⟩, fun _ => none⟩
        (document "\x7b\"a\":[1 ],\"b\":null\x7d".toList)
        [.select false [("\"é\n".toList, [.field ['a']]), (['x'], [.field ['c']]),
          ([], [.field ['b']])]]).members.map (fun m => (m.1, m.2.raw)) =
        [("\"é\n".toList, "[1 ]".toList), ([], "null".toList)] := by
  have hpresent : (document "\x7b\"a\":[1 ],\"b\":null\x7d".toList).isPresent = true := by
    decide +kernel
  have hkeys : ([("\"é\n".toList, [.field ['a']]), (['x'], [.field ['c']]),
      ([], [.field ['b']])].map (fun e : Text × Path => e.1)).Nodup := by
    decide +kernel
  have h := (select_projects ⟨⟨true, 256⟩, fun _ => none⟩ (located_document _) hpresent hkeys).1
  have hmembers := congrArg (List.map fun m => (m.1, m.2.2)) h.2.2.1
  rw [List.map_map, List.map_map] at hmembers
  refine ⟨located_document _, hpresent, hkeys, hmembers.trans ?_⟩
  decide +kernel

end Projected

end Evaluator

end DotPath
