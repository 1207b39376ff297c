import DotPath.Proofs.Transformer.Reading

/-!
# Objects that are joined

The objects in an array are joined into one. The members of all of them are taken in the order of
the text, as if they stood in one object, and the elements that are no objects have none. If all are
to be kept, they are put into the new object as they are spelled. Otherwise a name is put there
once: where it occurs first, and with the text of the value that it has last. It makes no difference
whether a name is repeated in one object or in several, and names are the same if they are decoded
to the same text, however they are spelled.

## Main definitions

* `Json.Tree.objectEntries`: the members of all objects in an array.
* `Transformer.MergesLast`: an object in which the last of several members gives the value.

## Main results

* `joinObjects_source`: what the transformer makes of the tree of a document.
* `joinObjects_merges`: what the new object consists of.
-/

namespace DotPath

open Json Selection

/-- The members of all objects in an array, with their keys as they are spelled. -/
def Json.Tree.objectEntries (t : Tree) : List (Key × Tree) :=
  (t.elements.filter (·.isObject)).flatMap entries

/-- The name that a key is decoded to, and the value under it. -/
def Json.decodedEntry (e : Key × Tree) : Text × Tree :=
  (Quoted.text e.1.source, e.2)

namespace Transformer

/-! ## What is joined -/

theorem objectMembers_of_shows {s : Selection} {t : Tree} (h : s.Shows t)
    (harray : t.isArray = true) :
    objectMembers s = t.objectEntries.map fun e => (e.1.source, e.2.source) := by
  have hobjects : List.Forall₂ Shows (s.array.filter (·.isObject))
      (t.elements.filter (·.isObject)) :=
    forall₂_filter (forall₂_array h harray) fun o e ho => isObject_of_shows ho
  have hspelled : List.Forall₂ (fun o e => spelledMembers o.raw =
      e.entries.map fun e => (e.1.source, e.2.source)) (s.array.filter (·.isObject))
      (t.elements.filter (·.isObject)) := by
    refine hobjects.imp fun o e ho => ?_
    rw [ho.2]
    exact spelledMembers_source e
  rw [objectMembers, Tree.objectEntries, List.flatMap_def, List.flatMap_def,
    map_eq_of_forall₂ hspelled, List.map_flatten, List.map_map]
  rfl

theorem joinObjects_eq (follow : Follow) (json argument : Text) :
    joinObjects follow json argument =
      match Argument.flag? "preserve".toList argument with
      | none => json
      | some preserve =>
        if !(document json).isArray then json
        else if preserve then composeMembers (objectMembers (document json))
        else composeObject
          (mergeMembers ((objectMembers (document json)).map fun m => (Quoted.text m.1, m.2))) :=
  rfl

/-- A document that is an array is joined into an object, which is a tree again. -/
theorem joinObjects_source (follow : Follow) {d : Document} (harray : d.root.isArray = true)
    {argument : Text} {preserve : Bool}
    (hargument : Argument.flag? "preserve".toList argument = some preserve) :
    joinObjects follow d.source argument =
      (if preserve then Tree.objectOfKeys d.root.objectEntries
        else Tree.objectOf (mergeMembers (d.root.objectEntries.map decodedEntry))).source := by
  have hshows := Evaluator.shows_document d
  rw [joinObjects_eq, hargument]
  dsimp only
  rw [isArray_of_shows hshows, harray, objectMembers_of_shows hshows harray]
  cases preserve with
  | true => exact (Tree.source_objectOfKeys _).symm
  | false =>
      rw [if_neg (by simp), if_neg (by simp), if_neg (by simp), Tree.source_objectOf,
        ← mergeMembers_map Tree.source, List.map_map, List.map_map]
      rfl

/-! ## What the new object consists of -/

/--
An object with each name of some members once: in the order in which the names occur first, and each
with the text of the value under its last occurrence.
-/
structure MergesLast (entries : List (Key × Tree)) (out : Text) : Prop where
  /-- It is an object of the grammar, written without space. -/
  composed : ∃ ms : List (Text × Tree), out = (Tree.objectOf ms).source
  names : (Json.members out).map (fun m => Quoted.text m.key.raw) =
    (entries.map fun e => Quoted.text e.1.source).eraseDups
  last : ∀ m ∈ Json.members out, ∃ before e after, entries = before ++ e :: after ∧
    Quoted.text e.1.source = Quoted.text m.key.raw ∧ e.2.source = m.value.raw ∧
      ∀ later ∈ after, Quoted.text later.1.source ≠ Quoted.text m.key.raw

/-- The value under a name is that of the last member with the name. -/
theorem exists_last_of_mem_mergeMembers {entries : List (Key × Tree)} {m : Text × Tree}
    (hm : m ∈ mergeMembers (entries.map decodedEntry)) :
    ∃ before e after, entries = before ++ e :: after ∧ decodedEntry e = m ∧
      ∀ later ∈ after, Quoted.text later.1.source ≠ m.1 := by
  have hlookup := lookup_of_mem (nodup_mergeMembers _) hm
  rw [lookup_mergeMembers] at hlookup
  obtain ⟨before, after, hentries, hafter⟩ := lookup_reverse_eq_some_iff.1 hlookup
  obtain ⟨front, back, rfl, rfl, hback⟩ := List.map_eq_append_iff.1 hentries
  obtain ⟨e, rest, rfl, he, rfl⟩ := List.map_eq_cons_iff.1 hback
  refine ⟨front, e, rest, rfl, he, fun later hlater hsame => hafter ?_⟩
  rw [names, List.map_map]
  exact List.mem_map.2 ⟨later, hlater, hsame⟩

theorem mergesLast_objectOf (entries : List (Key × Tree)) :
    MergesLast entries (Tree.objectOf (mergeMembers (entries.map decodedEntry))).source := by
  have hscan := (Tree.objectOf (mergeMembers (entries.map decodedEntry))).named_members_source
  rw [Tree.members_objectOf] at hscan
  refine ⟨⟨_, rfl⟩, ?_, fun m hm => ?_⟩
  · have hnames := congrArg (List.map (·.1)) hscan
    rw [List.map_map, List.map_map] at hnames
    refine hnames.trans ((names_mergeMembers _).trans ?_)
    rw [Json.names, List.map_map]
    rfl
  · have hmem := List.mem_map_of_mem (f := fun m => (Quoted.text m.key.raw, m.value.raw)) hm
    rw [hscan] at hmem
    obtain ⟨named, hnamed, heq⟩ := List.mem_map.1 hmem
    obtain ⟨hname, hvalue⟩ := Prod.mk.inj heq
    obtain ⟨before, e, after, hentries, rfl, hlast⟩ := exists_last_of_mem_mergeMembers hnamed
    refine ⟨before, e, after, hentries, hname, hvalue, fun later hlater => ?_⟩
    rw [← hname]
    exact hlast later hlater

/--
In a well-formed document that is an array, the objects among the elements are joined into one
object, and the other elements have no part in it. If the argument does not ask to keep all members,
the new object has each of their decoded names once, in the order in which they occur first, and
under each name the text of the value that has it last, in whichever object. If it does, the new
object has all their members, spelled as they are, in order.
-/
theorem joinObjects_merges (follow : Follow) {json : Text}
    (hjson : wellFormed none json = true) :
    (∃ d : Document, d.source = json) ∧
      ∀ d : Document, d.source = json → d.root.isArray = true → ∀ argument,
        (Argument.flag? "preserve".toList argument = some false →
          MergesLast d.root.objectEntries (joinObjects follow json argument)) ∧
        (Argument.flag? "preserve".toList argument = some true →
          joinObjects follow json argument =
              composeMembers (d.root.objectEntries.map fun e => (e.1.source, e.2.source)) ∧
            (Json.members (joinObjects follow json argument)).map
                (fun m => (m.key.raw, m.value.raw)) =
              d.root.objectEntries.map fun e => (e.1.source, e.2.source)) := by
  obtain ⟨root, hroot, -⟩ := wellFormed_iff.1 hjson
  refine ⟨⟨root, hroot⟩, ?_⟩
  rintro d rfl harray argument
  constructor
  · intro hargument
    rw [joinObjects_source follow harray hargument, if_neg Bool.false_ne_true]
    exact mergesLast_objectOf _
  · intro hargument
    rw [joinObjects_source follow harray hargument, if_pos rfl, Tree.spelled_members_source,
      Tree.entries_objectOfKeys]
    exact ⟨Tree.source_objectOfKeys _, rfl⟩

/-- The name `a`, spelled with an escape. -/
def escapedName : Key :=
  ⟨"\\u0061".toList, .unicode rfl rfl rfl rfl .nil⟩

/-- Two objects and a number in an array. One name is repeated in an object and in both objects. -/
def repeatedNames : Document :=
  .bare (.arrayOf [.objectOf [(['a'], .ofNat 1), (['b'], .ofNat 2)], .ofNat 7,
    .objectOfKeys [(escapedName, .ofNat 3), (.ofName ['c'], .ofNat 4), (.ofName ['a'], .ofNat 5)]])

/-- The repeated name is there once with the value that is last, or as often as it is spelled. -/
theorem joinObjects_merges_of_repeated :
    wellFormed none repeatedNames.source = true ∧ repeatedNames.root.isArray = true ∧
      Argument.flag? "preserve".toList [] = some false ∧
      Argument.flag? "preserve".toList "[true]".toList = some true ∧
      (Json.members (joinObjects (fun _ => .error .empty) repeatedNames.source [])).map
          (fun m => Quoted.text m.key.raw) = [['a'], ['b'], ['c']] ∧
      joinObjects (fun _ => .error .empty) repeatedNames.source "[true]".toList =
        "\x7b\"a\":1,\"b\":2,\"\\u0061\":3,\"c\":4,\"a\":5\x7d".toList := by
  have hwf : wellFormed none repeatedNames.source = true := by decide +kernel
  have hlast : Argument.flag? "preserve".toList [] = some false := by decide +kernel
  have hall : Argument.flag? "preserve".toList "[true]".toList = some true := by decide +kernel
  have hjoined := (joinObjects_merges (fun _ => .error .empty) hwf).2 repeatedNames rfl rfl
  refine ⟨hwf, rfl, hlast, hall, ((hjoined []).1 hlast).names.trans ?_,
    ((hjoined "[true]".toList).2 hall).1.trans ?_⟩
  · decide +kernel
  · decide +kernel

end Transformer

end DotPath
