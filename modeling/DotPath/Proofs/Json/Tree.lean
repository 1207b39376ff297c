import DotPath.Proofs.Json.Composed

/-!
# Trees are what the scans find

On the text of a tree of the strict grammar the scans find that tree: its extent, its elements, its
members under their decoded names. Trees can also be made anew, from a count, from a list of trees
and from named trees, and then they are written without space.

## Main results

* `Tree.fills`: the text of a tree is one value.
* `Tree.elements_source`, `Tree.entries_source`, `Tree.members_source`: the items that the scans
  find are those of the tree.
* `Document.firstValue?_source`: the value that a document begins with is its root.
* `Tree.source_arrayOf`, `Tree.source_objectOf`: trees that are made anew are written like the
  containers that are composed.
-/

namespace DotPath.Json.Tree

/-! ## Items -/

theorem itemsSource_eq (items : List (Item Tree)) :
    itemsSource items = tailSource source items := by
  induction items with
  | nil => rfl
  | cons i items ih => rw [itemsSource_cons, tailSource, ih]

theorem entriesSource_eq (entries : List (Entry Tree)) :
    entriesSource entries = entryTailSource source entries := by
  induction entries with
  | nil => rfl
  | cons e entries ih => rw [entriesSource_cons, entryTailSource, ih]

/-- The elements of an array; none for any other value. -/
def elements : Tree → List Tree
  | .array first rest => first.value :: rest.map (·.value)
  | _ => []

/-- The members of an object under their decoded names; none for any other value. -/
def members : Tree → List (Text × Tree)
  | .object first rest =>
    (first :: rest).map fun e => (Quoted.text e.key.source, e.item.value)
  | _ => []

/-- The members of an object under their keys as they are spelled; none for any other value. -/
def entries : Tree → List (Key × Tree)
  | .object first rest => (first :: rest).map fun e => (e.key, e.item.value)
  | _ => []

theorem members_eq (t : Tree) :
    t.members = t.entries.map fun e => (Quoted.text e.1.source, e.2) := by
  cases t with
  | object first rest =>
      rw [members, entries, List.map_map]
      rfl
  | _ => rfl

/-- Whether a value is an array. -/
def isArray : Tree → Bool
  | .emptyArray _ | .array .. => true
  | _ => false

/-- Whether a value is an object. -/
def isObject : Tree → Bool
  | .emptyObject _ | .object .. => true
  | _ => false

/-! ## Scanning -/

/-- The text of a value is found whole by the scan for extents. -/
theorem fills (t : Tree) : Fills t.kind t.source := by
  induction t with
  | scalar kind raw h => exact h.fills
  | emptyArray inside => exact fills_container rfl rfl (passes_spaces inside.2)
  | emptyObject inside => exact fills_container rfl rfl (passes_spaces inside.2)
  | array first rest hfirst hrest =>
      have hitem := first.passes hfirst.passes
      have htail := passes_tailSource fun i hi => (hrest i hi).passes
      rw [source_array, itemsSource_eq, ← List.append_assoc]
      exact fills_container rfl rfl (hitem.append htail)
  | object first rest hfirst hrest =>
      have hentry := first.passes hfirst.passes
      have htail := passes_entryTailSource fun e he => (hrest e he).passes
      rw [source_object, entriesSource_eq, ← List.append_assoc]
      exact fills_container rfl rfl (hentry.append htail)

/-- A scalar opens no bracket. -/
private theorem head_scalar {kind : Kind} {raw : Text} (h : IsScalar kind raw) :
    opensArray raw = false ∧ opensObject raw = false := by
  obtain ⟨c, s, rfl, -, harr, hobj⟩ := h.head
  simp [opensArray, opensObject, harr, hobj]

theorem opensArray_source (t : Tree) : opensArray t.source = t.isArray := by
  cases t with
  | scalar kind raw h => exact (head_scalar h).1
  | emptyArray inside => rfl
  | array first rest => rfl
  | emptyObject inside => rfl
  | object first rest => rfl

theorem opensObject_source (t : Tree) : opensObject t.source = t.isObject := by
  cases t with
  | scalar kind raw h => exact (head_scalar h).2
  | emptyArray inside => rfl
  | array first rest => rfl
  | emptyObject inside => rfl
  | object first rest => rfl

/-- The elements that are found in the text of a value are its elements. -/
theorem elements_source (t : Tree) :
    (Json.elements t.source).map (fun v => (v.kind, v.raw)) =
      t.elements.map fun u => (u.kind, u.source) := by
  cases t with
  | array first rest =>
      have hfills : ∀ i ∈ first :: rest, Fills i.value.kind i.value.source :=
        fun i _ => i.value.fills
      rw [source_array, itemsSource_eq, elements_layout [] hfills, map_itemOccurrences]
      simp [elements]
  | emptyArray inside =>
      show (Json.elements ('[' :: (inside.1 ++ [']']))).map _ = []
      rw [elements_empty inside []]
      rfl
  | scalar kind raw h =>
      rw [Json.elements, opensArray_source]
      rfl
  | emptyObject inside => rfl
  | object first rest => rfl

/-- The members that are found in the text of a value are its members, keys as they are spelled. -/
theorem entries_source (t : Tree) :
    (Json.members t.source).map (fun m => (m.key.raw, m.value.kind, m.value.raw)) =
      t.entries.map fun e => (e.1.source, e.2.kind, e.2.source) := by
  cases t with
  | object first rest =>
      have hfills : ∀ e ∈ first :: rest, Fills e.item.value.kind e.item.value.source :=
        fun e _ => e.item.value.fills
      rw [source_object, entriesSource_eq, members_layout [] hfills, map_entryOccurrences, entries,
        List.map_map]
      rfl
  | emptyObject inside =>
      show (Json.members ('\x7b' :: (inside.1 ++ ['\x7d']))).map _ = []
      rw [members_empty inside []]
      rfl
  | scalar kind raw h =>
      have hopen := opensObject_source (.scalar kind raw h)
      rw [Json.members, membersAt, if_neg (by simpa [Place.start, isObject] using hopen)]
      rfl
  | emptyArray inside => rfl
  | array first rest => rfl

/-- So they are under their decoded names. -/
theorem members_source (t : Tree) :
    (Json.members t.source).map (fun m => (Quoted.text m.key.raw, m.value.kind, m.value.raw)) =
      t.members.map fun m => (m.1, m.2.kind, m.2.source) := by
  have hnamed := congrArg (List.map fun m => (Quoted.text m.1, m.2)) t.entries_source
  rw [List.map_map, List.map_map] at hnamed
  rw [members_eq, List.map_map]
  exact hnamed

theorem firstValue?_source (t : Tree) : firstValue? t.source = some ⟨t.kind, 0, t.source⟩ :=
  t.fills.firstValue?

/-! ## Trees that are made anew -/

/-- A natural number as a value. -/
def ofNat (n : Nat) : Tree :=
  .scalar .number (Text.ofNat n) (.number (isNumber_ofNat n))

/-- An array of items with the space around them. -/
def ofItems : List (Item Tree) → Tree
  | [] => .emptyArray .none
  | i :: is => .array i is

/-- An object of members with the space around them. -/
def ofEntries : List (Entry Tree) → Tree
  | [] => .emptyObject .none
  | e :: es => .object e es

theorem isArray_ofItems (items : List (Item Tree)) : (ofItems items).isArray = true := by
  cases items <;> rfl

theorem isObject_ofItems (items : List (Item Tree)) : (ofItems items).isObject = false := by
  cases items <;> rfl

theorem isArray_ofEntries (members : List (Entry Tree)) : (ofEntries members).isArray = false := by
  cases members <;> rfl

theorem isObject_ofEntries (members : List (Entry Tree)) : (ofEntries members).isObject = true := by
  cases members <;> rfl

theorem elements_ofItems (items : List (Item Tree)) :
    (ofItems items).elements = items.map (·.value) := by
  cases items <;> rfl

theorem entries_ofEntries (members : List (Entry Tree)) :
    (ofEntries members).entries = members.map fun e => (e.key, e.item.value) := by
  cases members <;> rfl

theorem source_ofItems (items : List (Item Tree)) :
    (ofItems items).source =
      '[' :: (List.intercalate [','] (items.map (·.source source)) ++ [']']) := by
  cases items with
  | nil => rfl
  | cons i items =>
      rw [ofItems, source_array, itemsSource_eq, tailSource_eq_flatMap, intercalate_comma,
        List.append_assoc]

theorem source_ofEntries (members : List (Entry Tree)) :
    (ofEntries members).source =
      '\x7b' :: (List.intercalate [','] (members.map (·.source source)) ++ ['\x7d']) := by
  cases members with
  | nil => rfl
  | cons e members =>
      rw [ofEntries, source_object, entriesSource_eq, entryTailSource_eq_flatMap,
        intercalate_comma, List.append_assoc]

/-- A member without space in and around it. -/
def bareEntry (e : Key × Tree) : Entry Tree :=
  ⟨.none, e.1, .none, .bare e.2⟩

/-- An array of values, written without space. -/
def arrayOf : List Tree → Tree
  | [] => .emptyArray .none
  | t :: ts => .array (.bare t) (ts.map .bare)

/-- A member with a name, written without space. -/
def entryOf (m : Text × Tree) : Entry Tree :=
  ⟨.none, .ofName m.1, .none, .bare m.2⟩

/-- An object of named values, written without space. -/
def objectOf : List (Text × Tree) → Tree
  | [] => .emptyObject .none
  | m :: ms => .object (entryOf m) (ms.map entryOf)

theorem arrayOf_eq (ts : List Tree) : arrayOf ts = ofItems (ts.map .bare) := by
  cases ts <;> rfl

theorem objectOf_eq (ms : List (Text × Tree)) : objectOf ms = ofEntries (ms.map entryOf) := by
  cases ms <;> rfl

/-- An array of values is written as their texts with commas between them. -/
theorem source_arrayOf (ts : List Tree) : (arrayOf ts).source = composeArray (ts.map source) := by
  have hitems : ((ts.map Item.bare).map fun i => i.source source) = ts.map source := by
    rw [List.map_map]
    exact List.map_congr_left fun t _ => by simp [Item.source, Item.bare, Spaces.none]
  rw [arrayOf_eq, source_ofItems, hitems]
  rfl

/-- An object of named values is written as the quoted names and texts, with commas between them. -/
theorem source_objectOf (ms : List (Text × Tree)) :
    (objectOf ms).source = composeObject (ms.map fun m => (m.1, m.2.source)) := by
  have hentries : ((ms.map entryOf).map fun e => e.source source) =
      ms.map fun m => Quoted.encode m.1 ++ ':' :: m.2.source := by
    rw [List.map_map]
    exact List.map_congr_left fun m _ => by
      simp [entryOf, Entry.source, Item.source, Item.bare, Spaces.none, Key.source_ofName]
  rw [objectOf_eq, source_ofEntries, hentries, composeObject, composeMembers, List.map_map,
    List.map_map]
  rfl

end DotPath.Json.Tree

namespace DotPath.Json

/-- The value that a document begins with is its root. -/
theorem Document.firstValue?_source (d : Document) :
    firstValue? d.source = some ⟨d.root.kind, Text.byteLength d.before.1, d.root.source⟩ := by
  have hdelim := d.after.delimited (lacks_nil extendsNumber)
  rw [List.append_nil] at hdelim
  exact d.root.fills.firstValue?_append d.before hdelim

end DotPath.Json
