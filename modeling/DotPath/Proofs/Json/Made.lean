import DotPath.Proofs.Json.Quoted
import DotPath.Proofs.Json.Tree

/-!
# What is in a tree that is made anew

An array of values has these values as its elements. An object of named values has these values as
its members: the names are quoted, and the quoted names are decoded to what they were. Where the
keys are taken over as they are spelled, they are spelled the same in the new object.

## Main definitions

* `Tree.objectOfKeys`: an object of values under keys as they are spelled.

## Main results

* `Tree.elements_arrayOf`, `Tree.members_objectOf`, `Tree.entries_objectOfKeys`: what the trees
  consist of.
* `raws_elements_source`, `named_members_source`, `spelled_members_source`: what a scan of their
  texts finds.
-/

namespace DotPath.Json

/-- A value as a document without space around it. -/
def Document.bare (t : Tree) : Document :=
  ⟨.none, t, .none⟩

theorem Document.source_bare (t : Tree) : (Document.bare t).source = t.source := by
  simp [Document.bare, Document.source, Spaces.none]

namespace Tree

/-! ## Arrays -/

theorem elements_arrayOf (ts : List Tree) : (arrayOf ts).elements = ts := by
  rw [arrayOf_eq, elements_ofItems, List.map_map]
  exact List.map_id ts

theorem isArray_arrayOf (ts : List Tree) : (arrayOf ts).isArray = true := by
  rw [arrayOf_eq]
  exact isArray_ofItems _

/-! ## Objects -/

theorem members_objectOf (ms : List (Text × Tree)) : (objectOf ms).members = ms := by
  rw [members_eq, objectOf_eq, entries_ofEntries, List.map_map, List.map_map]
  have hself : ∀ m ∈ ms, (Quoted.text (Key.ofName m.1).source, m.2) = m := by
    intro m _
    rw [Key.source_ofName, Quoted.text_encode]
  exact (List.map_congr_left hself).trans (List.map_id ms)

theorem isObject_objectOf (ms : List (Text × Tree)) : (objectOf ms).isObject = true := by
  rw [objectOf_eq]
  exact isObject_ofEntries _

/-- An object of values under keys as they are spelled, written without space. -/
def objectOfKeys (ms : List (Key × Tree)) : Tree :=
  ofEntries (ms.map bareEntry)

theorem entries_objectOfKeys (ms : List (Key × Tree)) : (objectOfKeys ms).entries = ms := by
  rw [objectOfKeys, entries_ofEntries, List.map_map]
  exact List.map_id ms

theorem isObject_objectOfKeys (ms : List (Key × Tree)) : (objectOfKeys ms).isObject = true :=
  isObject_ofEntries _

/-- Keys are written as they are spelled. -/
theorem source_objectOfKeys (ms : List (Key × Tree)) :
    (objectOfKeys ms).source = composeMembers (ms.map fun m => (m.1.source, m.2.source)) := by
  have hentries : ((ms.map bareEntry).map fun e => e.source source) =
      ms.map fun m => m.1.source ++ ':' :: m.2.source := by
    rw [List.map_map]
    refine List.map_congr_left fun m _ => ?_
    simp [bareEntry, Entry.source, Item.source, Item.bare, Spaces.none]
  rw [objectOfKeys, source_ofEntries, hentries, composeMembers, List.map_map]
  rfl

/-! ## What a scan finds -/

/-- The texts of the elements that a scan finds. -/
theorem raws_elements_source (t : Tree) :
    (Json.elements t.source).map (·.raw) = t.elements.map source := by
  have hraws := congrArg (List.map (·.2)) t.elements_source
  rwa [List.map_map, List.map_map] at hraws

/-- The decoded names and the texts of the members that a scan finds. -/
theorem named_members_source (t : Tree) :
    (Json.members t.source).map (fun m => (Quoted.text m.key.raw, m.value.raw)) =
      t.members.map fun m => (m.1, m.2.source) := by
  have hnamed := congrArg (List.map fun m => (m.1, m.2.2)) t.members_source
  rwa [List.map_map, List.map_map] at hnamed

/-- The keys, as they are spelled, and the texts of the members that a scan finds. -/
theorem spelled_members_source (t : Tree) :
    (Json.members t.source).map (fun m => (m.key.raw, m.value.raw)) =
      t.entries.map fun e => (e.1.source, e.2.source) := by
  have hspelled := congrArg (List.map fun m => (m.1, m.2.2)) t.entries_source
  rwa [List.map_map, List.map_map] at hspelled

end Tree

end DotPath.Json
