import DotPath.Json.Value
import DotPath.Proofs.Json.Tree
import DotPath.Proofs.Json.WellFormed
import DotPath.Proofs.Number.Notation

/-!
# Documents made of documents

A text is a document when it is written as a tree with space around it. An array that is composed of
documents is a document, and so is an object that is composed of them under keys of the grammar; and
the parts that the scans find in a value are values again. So a text that is put together from such
parts, to whatever depth, is a document.

## Main results

* `isDocument_iff`: the check for well-formed texts, without a limit, accepts the documents.
* `isDocument_composeArray`, `isDocument_composeObject`: containers that are composed.
* `isValue_of_mem_elements`, `isValue_of_mem_members`: the parts of a value.
* `Value.isValue_encode`: a decoded value is written as a value.
-/

namespace DotPath.Json

/-- A text that is a value of the strict grammar, without space around it. -/
def IsValue (t : Text) : Prop :=
  ∃ u : Tree, u.source = t

/-- A text that is a value of the strict grammar, with space around it. -/
def IsDocument (t : Text) : Prop :=
  ∃ d : Document, d.source = t

/-- A text that is the key of a member, quotes included. -/
def IsKey (t : Text) : Prop :=
  ∃ k : Key, k.source = t

theorem isDocument_iff {t : Text} : IsDocument t ↔ wellFormed none t = true := by
  rw [wellFormed_iff]
  constructor
  · rintro ⟨d, rfl⟩
    exact ⟨d, rfl, nofun⟩
  · rintro ⟨d, rfl, -⟩
    exact ⟨d, rfl⟩

theorem IsValue.isDocument {t : Text} (h : IsValue t) : IsDocument t := by
  obtain ⟨u, rfl⟩ := h
  exact ⟨⟨.none, u, .none⟩, by simp [Document.source, Spaces.none]⟩

/-! ## Scalars -/

theorem IsScalar.isValue {kind : Kind} {t : Text} (h : IsScalar kind t) : IsValue t :=
  ⟨.scalar kind t h, rfl⟩

theorem IsScalar.isDocument {kind : Kind} {t : Text} (h : IsScalar kind t) : IsDocument t :=
  h.isValue.isDocument

theorem isDocument_ofNat (n : Nat) : IsDocument (Text.ofNat n) :=
  (IsScalar.number (isNumber_ofNat n)).isDocument

/-- Any text at all, once it is quoted, is a string. -/
theorem isDocument_quoted (t : Text) : IsDocument (Quoted.encode t) :=
  (IsScalar.string (isBody_flatMap_escape t)).isDocument

theorem isKey_quoted (t : Text) : IsKey (Quoted.encode t) :=
  ⟨.ofName t, rfl⟩

/-! ## Containers -/

/-- Texts that are all written by one function are the image of a list. -/
theorem exists_map_eq {α : Type} {write : α → Text} {texts : List Text}
    (h : ∀ t ∈ texts, ∃ a, write a = t) : ∃ as : List α, as.map write = texts := by
  induction texts with
  | nil => exact ⟨[], rfl⟩
  | cons t texts ih =>
      obtain ⟨a, ha⟩ := h t List.mem_cons_self
      obtain ⟨as, has⟩ := ih fun u hu => h u (List.mem_cons_of_mem t hu)
      exact ⟨a :: as, by rw [List.map_cons, ha, has]⟩

/-- A text that is an item of an array is a document. -/
theorem IsDocument.exists_item {t : Text} (h : IsDocument t) :
    ∃ i : Item Tree, i.source Tree.source = t := by
  obtain ⟨⟨before, u, after⟩, rfl⟩ := h
  exact ⟨⟨before, u, after⟩, rfl⟩

/-- An array that is composed of documents is a value. -/
theorem isValue_composeArray {items : List Text} (h : ∀ t ∈ items, IsDocument t) :
    IsValue (composeArray items) := by
  obtain ⟨is, rfl⟩ := exists_map_eq fun t ht => (h t ht).exists_item
  exact ⟨.ofItems is, Tree.source_ofItems is⟩

theorem isDocument_composeArray {items : List Text} (h : ∀ t ∈ items, IsDocument t) :
    IsDocument (composeArray items) :=
  (isValue_composeArray h).isDocument

/-- A text that is a member of an object, with space around it. -/
def IsEntry (t : Text) : Prop :=
  ∃ e : Entry Tree, e.source Tree.source = t

/-- A key, a colon and a document are a member. -/
theorem isEntry_colon {key value : Text} (hkey : IsKey key) (hvalue : IsDocument value) :
    IsEntry (key ++ ':' :: value) := by
  obtain ⟨k, rfl⟩ := hkey
  obtain ⟨i, rfl⟩ := hvalue.exists_item
  exact ⟨⟨.none, k, .none, i⟩, by simp [Entry.source, Spaces.none]⟩

/-- An object of members is a value. -/
theorem isValue_object {members : List Text} (h : ∀ t ∈ members, IsEntry t) :
    IsValue ('\x7b' :: List.intercalate [','] members ++ ['\x7d']) := by
  obtain ⟨es, rfl⟩ := exists_map_eq h
  exact ⟨.ofEntries es, Tree.source_ofEntries es⟩

/-- An object that is composed of documents under keys is a document. -/
theorem isDocument_composeMembers {members : List (Text × Text)}
    (h : ∀ m ∈ members, IsKey m.1 ∧ IsDocument m.2) : IsDocument (composeMembers members) := by
  have hentries : ∀ t ∈ members.map (fun m => m.1 ++ ':' :: m.2), IsEntry t := by
    intro t ht
    obtain ⟨m, hm, rfl⟩ := List.mem_map.1 ht
    exact isEntry_colon (h m hm).1 (h m hm).2
  exact (isValue_object hentries).isDocument

/-- An object that is composed of documents under names is a document, whatever the names. -/
theorem isDocument_composeObject {members : List (Text × Text)}
    (h : ∀ m ∈ members, IsDocument m.2) : IsDocument (composeObject members) := by
  refine isDocument_composeMembers fun m hm => ?_
  obtain ⟨n, hn, rfl⟩ := List.mem_map.1 hm
  exact ⟨isKey_quoted n.1, h n hn⟩

/-! ## Parts -/

/-- The value that a document begins with is a value. -/
theorem IsDocument.firstValue? {t : Text} (h : IsDocument t) :
    ∃ v, firstValue? t = some v ∧ IsValue v.raw := by
  obtain ⟨d, rfl⟩ := h
  exact ⟨_, d.firstValue?_source, d.root, rfl⟩

/-- The elements of a value are values. -/
theorem isValue_of_mem_elements {t : Text} (h : IsValue t) {v : Occurrence}
    (hv : v ∈ elements t) : IsValue v.raw := by
  obtain ⟨u, rfl⟩ := h
  have hmem := List.mem_map_of_mem (f := fun v : Occurrence => (v.kind, v.raw)) hv
  rw [u.elements_source] at hmem
  obtain ⟨w, -, heq⟩ := List.mem_map.1 hmem
  rw [Prod.mk.injEq] at heq
  exact ⟨w, heq.2⟩

/-- The members of a value have keys, and their values are values. -/
theorem isValue_of_mem_members {t : Text} (h : IsValue t) {m : Member} (hm : m ∈ members t) :
    IsKey m.key.raw ∧ IsValue m.value.raw := by
  obtain ⟨u, rfl⟩ := h
  have hmem := List.mem_map_of_mem
    (f := fun m : Member => (m.key.raw, m.value.kind, m.value.raw)) hm
  rw [u.entries_source] at hmem
  obtain ⟨e, -, heq⟩ := List.mem_map.1 hmem
  simp only [Prod.mk.injEq] at heq
  exact ⟨⟨e.1, heq.1⟩, e.2, heq.2.2⟩

/-! ## Decoded values -/

mutual

/-- A decoded value as it is written, without space. -/
def Value.tree : Value → Tree
  | .null => .scalar .null _ .nullWord
  | .bool true => .scalar .true _ .trueWord
  | .bool false => .scalar .false _ .falseWord
  | .integer n => .scalar .number _ (.number (Number.isNumber_ofInt n))
  | .float x => .scalar .number _ (.number (Number.valueLayout.isNumber_write x))
  | .string t => .scalar .string _ (.string (isBody_flatMap_escape t))
  | .array items => .arrayOf (itemTrees items)
  | .object members => .objectOf (memberTrees members)

/-- The elements of an array as they are written. -/
def itemTrees : List Value → List Tree
  | [] => []
  | v :: rest => v.tree :: itemTrees rest

/-- The members of an object as they are written. -/
def memberTrees : List (Text × Value) → List (Text × Tree)
  | [] => []
  | (name, v) :: rest => (name, v.tree) :: memberTrees rest

end

mutual

theorem Value.source_tree (v : Value) : v.tree.source = v.encode := by
  cases v with
  | bool b => cases b <;> rfl
  | array items =>
      rw [Value.tree, Tree.source_arrayOf, source_itemTrees]
      rfl
  | object members =>
      rw [Value.tree, Tree.source_objectOf, Value.encode, ← source_memberTrees, composeObject,
        composeMembers, List.map_map, List.map_map]
      rfl
  | _ => rfl

theorem source_itemTrees (items : List Value) :
    (itemTrees items).map Tree.source = encodeItems items := by
  cases items with
  | nil => rfl
  | cons v rest => rw [itemTrees, List.map_cons, v.source_tree, source_itemTrees rest, encodeItems]

theorem source_memberTrees (members : List (Text × Value)) :
    (memberTrees members).map (fun m => Quoted.encode m.1 ++ ':' :: m.2.source) =
      encodeMembers members := by
  cases members with
  | nil => rfl
  | cons m rest =>
      rw [memberTrees, List.map_cons, m.2.source_tree, source_memberTrees rest, encodeMembers]

end

/-- A decoded value is written as a value, without space around it. -/
theorem Value.isValue_encode (v : Value) : IsValue v.encode :=
  ⟨v.tree, v.source_tree⟩

end DotPath.Json
