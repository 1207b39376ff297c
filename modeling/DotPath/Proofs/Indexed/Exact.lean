import DotPath.Proofs.Indexed.Contained
import DotPath.Proofs.Json.Made
import DotPath.Proofs.Json.Reached
import DotPath.Proofs.Octets

/-!
# What the scans find in a document

The scan for extents counts brackets and skips strings, and does not check what it goes over. In a
well-formed document it need not: it stops where the value ends, whatever comes before the value and
behind it, and the scans for items find the values that the grammar has there.

A tree remembers how it is written, so that the indices of all its values and keys can be told from
it by adding up the octets in front of them. `elementSpans` and `memberSpans` do so for what is
directly inside a value. The scans are compared with these, for every value that is reached from the
root of a document.

## Main definitions

* `Span.ofTree`: a value of the grammar that begins at an index.
* `elementSpans`, `memberSpans`: the elements of an array, the keys and values of an object.

## Main results

* `elements_ofTree`, `members_ofTree`: at a value that has been found, the scans find its items.
* `locate_of_reaches`: every value of a document is found at its index.
* `document_scanned_exactly`: so it is in all octets that are well formed.
-/

namespace DotPath.Indexed

open Json

/-! ## Indices that a tree has -/

/-- A value that begins at an index. -/
def Span.ofTree (k : Nat) (t : Tree) : Span :=
  ⟨t.kind, k, k + Text.byteLength t.source⟩

/-- The key of a member, with the quotes, if the member is written from an index on. -/
def Span.ofKey (k : Nat) (e : Entry Tree) : Span :=
  ⟨.string, k + Text.byteLength e.before.1,
    k + Text.byteLength e.before.1 + Text.byteLength e.key.source⟩

/-- The value of a member: behind the key there is space, a colon, and space again. -/
def Span.ofEntry (k : Nat) (e : Entry Tree) : Span :=
  .ofTree ((Span.ofKey k e).stop + Text.byteLength e.gap.1 + 1 + Text.byteLength e.item.before.1)
    e.item.value

/-- The values of items that are written from an index on, with a comma between them. -/
def itemSpans (k : Nat) : List (Item Tree) → List Span
  | [] => []
  | i :: rest =>
    .ofTree (k + Text.byteLength i.before.1) i.value ::
      itemSpans (k + Text.byteLength (i.source Tree.source) + 1) rest

/-- The keys and values of members that are written from an index on, with a comma between them. -/
def entrySpans (k : Nat) : List (Entry Tree) → List (Span × Span)
  | [] => []
  | e :: rest =>
    (.ofKey k e, .ofEntry k e) :: entrySpans (k + Text.byteLength (e.source Tree.source) + 1) rest

/-- The elements of an array that begins at an index; none for any other value. -/
def elementSpans (k : Nat) : Tree → List Span
  | .array first rest => itemSpans (k + 1) (first :: rest)
  | _ => []

/-- The keys and values of an object that begins at an index; none for any other value. -/
def memberSpans (k : Nat) : Tree → List (Span × Span)
  | .object first rest => entrySpans (k + 1) (first :: rest)
  | _ => []

/-! ### What is directly inside a value -/

theorem map_ofTree_itemParts (i k : Nat) (items : List (Item Tree)) :
    (Tree.laidOut Tree.itemPart (Item.source Tree.source) i k items).map
        (fun p => Span.ofTree p.offset p.value) = itemSpans k items := by
  induction items generalizing i k with
  | nil => rfl
  | cons item rest ih =>
      rw [Tree.laidOut, List.map_cons, ih]
      rfl

theorem map_ofTree_entryParts (i k : Nat) (entries : List (Entry Tree)) :
    (Tree.laidOut Tree.entryPart (Entry.source Tree.source) i k entries).map
        (fun p => Span.ofTree p.offset p.value) = (entrySpans k entries).map Prod.snd := by
  induction entries generalizing i k with
  | nil => rfl
  | cons e rest ih =>
      rw [Tree.laidOut, List.map_cons, ih]
      rfl

/-- The parts of a value are its elements, or the values of its members. -/
theorem map_ofTree_parts (t : Tree) (k : Nat) :
    (t.parts k).map (fun p => Span.ofTree p.offset p.value) =
      elementSpans k t ++ (memberSpans k t).map Prod.snd := by
  cases t with
  | array first rest =>
      show _ = elementSpans k (.array first rest) ++ []
      rw [List.append_nil]
      exact map_ofTree_itemParts 0 (k + 1) (first :: rest)
  | object first rest => exact map_ofTree_entryParts 0 (k + 1) (first :: rest)
  | scalar | emptyArray | emptyObject => rfl

/-! ## Items of a tree are what the scans find -/

theorem map_of_itemOccurrences (j k : Nat) (items : List (Item Tree)) :
    (itemOccurrences Tree.kind Tree.source j items).map (fun e => Span.of (e.shift k)) =
      itemSpans (k + j) items := by
  induction items generalizing j with
  | nil => rfl
  | cons i rest ih =>
      rw [itemOccurrences, List.map_cons, ih, itemSpans]
      simp only [Span.of, Span.ofTree, Occurrence.shift, Nat.add_assoc]

theorem map_spans_entryOccurrences (j k : Nat) (entries : List (Entry Tree)) :
    (entryOccurrences Tree.kind Tree.source j entries).map (fun m => spans (m.shift k)) =
      entrySpans (k + j) entries := by
  induction entries generalizing j with
  | nil => rfl
  | cons e rest ih =>
      rw [entryOccurrences, List.map_cons, ih, entrySpans]
      simp only [spans, Span.of, Span.ofKey, Span.ofEntry, Span.ofTree, Member.shift,
        Occurrence.shift, Entry.occurrence, Nat.add_assoc]

/-- The elements that are found in the text of a value stand where the tree has them. -/
theorem map_of_elements_source (t : Tree) (k : Nat) :
    (Json.elements t.source).map (fun e => Span.of (e.shift k)) = elementSpans k t := by
  cases t with
  | array first rest =>
      have hfills : ∀ i ∈ first :: rest, Fills i.value.kind i.value.source :=
        fun i _ => i.value.fills
      rw [Tree.source_array, Tree.itemsSource_eq, elements_layout [] hfills]
      exact map_of_itemOccurrences 1 k (first :: rest)
  | emptyArray inside =>
      have helements : Json.elements (Tree.emptyArray inside).source = [] :=
        elements_empty inside []
      rw [helements]
      rfl
  | scalar kind raw spelled =>
      rw [Json.elements, Tree.opensArray_source]
      rfl
  | emptyObject inside => rfl
  | object first rest => rfl

/-- So do the members. -/
theorem map_spans_members_source (t : Tree) (k : Nat) :
    (Json.members t.source).map (fun m => spans (m.shift k)) = memberSpans k t := by
  cases t with
  | object first rest =>
      have hfills : ∀ e ∈ first :: rest, Fills e.item.value.kind e.item.value.source :=
        fun e _ => e.item.value.fills
      rw [Tree.source_object, Tree.entriesSource_eq, members_layout [] hfills]
      exact map_spans_entryOccurrences 1 k (first :: rest)
  | emptyObject inside =>
      have hmembers : Json.members (Tree.emptyObject inside).source = [] :=
        members_empty inside []
      rw [hmembers]
      rfl
  | scalar kind raw spelled =>
      have hopens := (Tree.scalar kind raw spelled).opensObject_source
      rw [Json.members, membersAt, Place.start, hopens]
      rfl
  | emptyArray inside => rfl
  | array first rest => rfl

section Value

variable {data : Text} {p q : Place} {t : Tree} {k : Nat}

/-- At a value that has been found, the scan for elements finds those of the tree. -/
theorem elements_ofTree (h : Ends data p.offset p.rest)
    (hv : p.value? = some (t.occurrence k, q)) :
    elements data k = .some (elementSpans k t) := by
  cases t with
  | scalar kind raw spelled =>
      -- No bracket is at the index where a scalar begins, so that the scan does not start.
      obtain ⟨-, hoffset, hrest, -⟩ := Place.eq_of_value? hv
      have hk : k = p.offset := hoffset
      have hrest : p.rest = raw ++ q.rest := hrest
      have hopens : opensArray p.rest = false := by
        obtain ⟨c, s, rfl, -⟩ := spelled.head
        rw [hrest]
        exact Tree.opensArray_source (.scalar kind (c :: s) spelled)
      rw [hk, elements_place h, hopens]
      rfl
  | _ =>
      have helements := (elements_of_value? h hv rfl).1
      exact helements.trans (congrArg Part.some (map_of_elements_source _ k))

/-- The scan for members finds those of the tree. -/
theorem members_ofTree (h : Ends data p.offset p.rest)
    (hv : p.value? = some (t.occurrence k, q)) :
    members data k = .some (memberSpans k t) := by
  obtain ⟨-, hoffset, -, -⟩ := Place.eq_of_value? hv
  have hk : k = p.offset := hoffset
  rw [← map_spans_members_source, hk, members_place h, membersAt_eq hv, List.map_map, ← hk]
  rfl

/-- What the tree has directly inside the value is found at its own index. -/
theorem locate_of_mem_parts (h : Ends data p.offset p.rest)
    (hv : p.value? = some (t.occurrence k, q)) {part : Part} (hpart : part ∈ t.parts k) :
    locate data part.offset = .some (some (.ofTree part.offset part.value)) := by
  have hkind : t.kind = .container := by
    cases t with
    | scalar kind raw spelled => cases hpart
    | _ => rfl
  have hspan : Span.ofTree part.offset part.value ∈
      elementSpans k t ++ (memberSpans k t).map Prod.snd := by
    rw [← map_ofTree_parts]
    exact List.mem_map_of_mem hpart
  rcases List.mem_append.1 hspan with hspan | hspan
  · have hlaid := (elements_of_value? h hv hkind).2
    apply hlaid.located (.ofTree part.offset part.value)
    rw [← map_of_elements_source] at hspan
    exact hspan
  · have hlaid := (members_of_value? h hv hkind).2
    obtain ⟨m, hm, hvalue⟩ := List.mem_map.1 hspan
    apply hlaid.located (.ofTree part.offset part.value)
    rw [← map_spans_members_source] at hm
    exact List.mem_flatMap.2 ⟨m, hm, by simp [hvalue]⟩

end Value

/-! ## Values of a document -/

/-- A value that is located where it stands is read there. -/
theorem exists_place_of_locate {t : Text} {v : Occurrence} (hv : StandsAt t v.raw v.offset)
    (h : locate t.asOctets v.offset = .some (some (.of v))) :
    ∃ p q : Place, Ends t.asOctets p.offset p.rest ∧ p.value? = some (v, q) := by
  obtain ⟨before, after, ht, hbefore⟩ := hv
  have hends : Ends t.asOctets v.offset (v.raw ++ after) :=
    ends_of_liesIn (p := ⟨v.offset, v.raw ++ after⟩) ⟨before, ht, hbefore⟩
  have hlocate := (locate_eq (p := ⟨v.offset, v.raw ++ after⟩) hends).symm.trans h
  obtain ⟨⟨w, q⟩, hw, hof⟩ := Option.map_eq_some_iff.1 (Part.some_injective hlocate)
  obtain ⟨-, -, hrest, -⟩ := Place.eq_of_value? hw
  -- Both are what stands in the same number of octets from the same index on.
  have hkind : w.kind = v.kind := congrArg Span.kind hof
  have hoffset : w.offset = v.offset := congrArg Span.start hof
  have hstop : w.offset + Text.byteLength w.raw = v.offset + Text.byteLength v.raw :=
    congrArg Span.stop hof
  have hlength : Text.byteLength w.raw = Text.byteLength v.raw := by omega
  have hw' := splitAt?_eq_some_iff.2 ⟨hrest, hlength⟩
  have hv' := splitAt?_eq_some_iff.2 ⟨Eq.refl (v.raw ++ after), Eq.refl (Text.byteLength v.raw)⟩
  have hraw : v.raw = w.raw := congrArg Prod.fst (Option.some.inj (hv'.symm.trans hw'))
  refine ⟨⟨v.offset, v.raw ++ after⟩, q, hends, ?_⟩
  rw [hw]
  obtain ⟨kind, offset, raw⟩ := w
  subst hkind hoffset hraw
  rfl

section Document

variable {d : Document} {n : Node}

theorem standsAt_of_reaches (h : d.rootNode.Reaches n) :
    StandsAt d.source n.value.source n.offset := by
  have hn : n ∈ d.nodes n.trail.length := Document.mem_nodes_iff.2 ⟨h, Nat.le_max_left _ _⟩
  exact Document.standsAt_of_mem_nodes hn

theorem locate_root (d : Document) :
    locate d.source.asOctets d.rootNode.offset =
      .some (some (.ofTree d.rootNode.offset d.rootNode.value)) := by
  obtain ⟨⟨v, q⟩, hv, hroot⟩ := Option.map_eq_some_iff.1 d.firstValue?_source
  have hlocate := locate_eq (ends_skipSpace (ends_start d.source))
  obtain ⟨-, hoffset, -, -⟩ := Place.eq_of_value? hv
  have hv' : v = d.root.occurrence d.rootNode.offset := hroot
  rw [hv, ← hoffset, hv'] at hlocate
  exact hlocate

/-- Every value of a document is located where the tree has it. -/
theorem locate_of_reaches (h : d.rootNode.Reaches n) :
    locate d.source.asOctets n.offset = .some (some (.ofTree n.offset n.value)) := by
  induction h with
  | refl => exact locate_root d
  | @step n part hn hpart ih =>
      obtain ⟨p, q, hends, hv⟩ :=
        exists_place_of_locate (v := n.value.occurrence n.offset) (standsAt_of_reaches hn) ih
      exact locate_of_mem_parts hends hv hpart

end Document

/-! ### What stands there -/

section Octets

variable {json : Text} {t : Tree} {k : Nat}

/-- The octets of the elements are those of the texts that the tree has for them. -/
theorem octets_elementSpans (h : StandsAt json t.source k) :
    (elementSpans k t).map (·.octets json.asOctets) =
      t.elements.map fun u => u.source.asOctets := by
  have hraw : ∀ e ∈ Json.elements t.source,
      (Span.of (e.shift k)).octets json.asOctets = e.raw.asOctets := fun e he =>
    octets_of (v := e.shift k) (h.trans (isIn_of_mem_elements he).1)
  have hsource := congrArg (List.map Text.asOctets) t.raws_elements_source
  rw [List.map_map, List.map_map] at hsource
  rw [← map_of_elements_source, List.map_map]
  exact (List.map_congr_left hraw).trans hsource

/-- The octets of the keys are those that the keys are spelled with, and so for the values. -/
theorem octets_memberSpans (h : StandsAt json t.source k) :
    (memberSpans k t).map (Prod.map (·.octets json.asOctets) (·.octets json.asOctets)) =
      t.entries.map fun e => (e.1.source.asOctets, e.2.source.asOctets) := by
  have hraw : ∀ m ∈ Json.members t.source,
      Prod.map (·.octets json.asOctets) (·.octets json.asOctets) (spans (m.shift k)) =
        (m.key.raw.asOctets, m.value.raw.asOctets) := fun m hm =>
    Prod.ext (octets_of (v := m.key.shift k) (h.trans (key_of_mem_members hm).1.1))
      (octets_of (v := m.value.shift k) (h.trans (isIn_of_mem_members hm).1))
  have hsource := congrArg (List.map (Prod.map Text.asOctets Text.asOctets))
    t.spelled_members_source
  rw [List.map_map, List.map_map] at hsource
  rw [← map_spans_members_source, List.map_map]
  exact (List.map_congr_left hraw).trans hsource

end Octets

/--
Octets that are well formed are those of a document, and whichever document they are written as, the
scans are exact at every value that is reached from its root, however deep: the scan for extents
finds the kind of the value and just the octets that the value is written with, the scan for
elements finds the elements, and the scan for members the keys and values, all of them, in order and
where the document has them. Of a value that is no array there are no elements to find, and of a
value that is no object no members.
-/
theorem document_scanned_exactly {limit : Option Nat} {octets : ByteArray}
    (h : Octets.wellFormed limit octets = true) :
    (∃ d : Document, d.source.utf8Encode = octets) ∧
      ∀ d : Document, d.source.utf8Encode = octets → ∀ n, d.rootNode.Reaches n →
        locate (Text.ofOctets octets) n.offset = .some (some (.ofTree n.offset n.value)) ∧
          elements (Text.ofOctets octets) n.offset = .some (elementSpans n.offset n.value) ∧
          members (Text.ofOctets octets) n.offset = .some (memberSpans n.offset n.value) ∧
          (Span.ofTree n.offset n.value).octets (Text.ofOctets octets) =
            n.value.source.asOctets ∧
          (elementSpans n.offset n.value).map (·.octets (Text.ofOctets octets)) =
            n.value.elements.map (fun u => u.source.asOctets) ∧
          (memberSpans n.offset n.value).map
              (Prod.map (·.octets (Text.ofOctets octets)) (·.octets (Text.ofOctets octets))) =
            n.value.entries.map fun e => (e.1.source.asOctets, e.2.source.asOctets) := by
  constructor
  · rw [Octets.wellFormed_eq_any, Option.any_eq_true] at h
    obtain ⟨t, ht, hwf⟩ := h
    obtain ⟨d, rfl, -⟩ := wellFormed_iff.1 hwf
    exact ⟨d, Text.ofUtf8?_eq_some_iff.1 ht⟩
  · intro d hd n hn
    have hstands := standsAt_of_reaches hn
    have hlocate := locate_of_reaches hn
    obtain ⟨p, q, hends, hv⟩ :=
      exists_place_of_locate (v := n.value.occurrence n.offset) hstands hlocate
    rw [← Text.asOctets_eq_ofOctets_iff.2 hd]
    exact ⟨hlocate, elements_ofTree hends hv, members_ofTree hends hv,
      octets_of (v := n.value.occurrence n.offset) hstands, octets_elementSpans hstands,
      octets_memberSpans hstands⟩

/-- A member with space all over, a bracket and an escaped quote in its key, and two elements. -/
def spacedMember : Document :=
  ⟨.newline, .object ⟨.newline, .ofName "]\"é".toList, .newline,
    ⟨.newline, .arrayOf [.ofNat 7, .emptyObject .newline], .none⟩⟩ [], .none⟩

/-- The member is found at the root, and the elements at its value. -/
theorem document_scanned_exactly_of_spaced :
    Octets.wellFormed (some 2) spacedMember.source.utf8Encode = true ∧
      spacedMember.source = "\n\x7b\n\"]\\\"é\"\n:\n[7,\x7b\n\x7d]\x7d".toList ∧
      locate spacedMember.source.asOctets 1 = .some (some ⟨.container, 1, 21⟩) ∧
      members spacedMember.source.asOctets 1 =
        .some [(⟨.string, 3, 10⟩, ⟨.container, 13, 20⟩)] ∧
      elements spacedMember.source.asOctets 13 =
        .some [⟨.number, 14, 15⟩, ⟨.container, 16, 19⟩] := by
  have hsource : spacedMember.source =
      "\n\x7b\n\"]\\\"é\"\n:\n[7,\x7b\n\x7d]\x7d".toList := by
    decide +kernel
  have hwf : Octets.wellFormed (some 2) spacedMember.source.utf8Encode = true := by
    decide +kernel
  have hpart : ∃ step, ⟨step, 13, .arrayOf [.ofNat 7, .emptyObject .newline]⟩ ∈
      spacedMember.rootNode.value.parts spacedMember.rootNode.offset :=
    ⟨_, List.mem_cons_self⟩
  obtain ⟨step, hpart⟩ := hpart
  obtain ⟨-, hexact⟩ := document_scanned_exactly hwf
  obtain ⟨hlocate, -, hmembers, -⟩ := hexact spacedMember rfl _ .refl
  obtain ⟨-, helements, -⟩ := hexact spacedMember rfl _ (.step .refl hpart)
  rw [← Text.asOctets_eq_ofOctets_iff.2 rfl] at hlocate hmembers helements
  exact ⟨hwf, hsource, hlocate, hmembers, helements⟩

end DotPath.Indexed
