import DotPath.Proofs.Json.Tree
import DotPath.Proofs.Json.Walk
import Mathlib.Data.List.Nodup

/-!
# The values of a document and where they stand

A tree remembers how it is written, so that the place of every value in it can be told from the
tree alone: the steps that lead to the value, and the octets in front of it. `Tree.nodes` lists the
values down to a depth in this way, a container before what is inside. It is the reference for
walks, which find the values by scanning.

## Main results

* `Tree.children_occurrence`: the values that a scan finds directly inside a value are its parts.
* `Document.walk_source`: a walk lists the values of a document, each at its place.
* `Tree.pairwise_nodes`: the values begin one after another, no two at the same place.
-/

namespace DotPath

theorem Text.byteLength_pos {t : Text} (h : t ≠ []) : 0 < Text.byteLength t := by
  obtain ⟨c, rest, rfl⟩ := List.exists_cons_of_ne_nil h
  rw [byteLength_cons]
  have := c.utf8Size_pos
  omega

/-- Where no two entries give the same, an entry is found by what it gives. -/
theorem find?_of_nodup_map {α β : Type} [BEq β] [LawfulBEq β] {f : α → β} {as : List α} {a : α}
    (h : (as.map f).Nodup) (ha : a ∈ as) : as.find? (fun b => f b == f a) = some a := by
  cases hfound : as.find? fun b => f b == f a with
  | none => exact absurd (beq_self_eq_true (f a)) (List.find?_eq_none.1 hfound a ha)
  | some b =>
      have hsame : f b = f a := by simpa using List.find?_some hfound
      rw [List.inj_on_of_nodup_map h (List.mem_of_find?_eq_some hfound) ha hsame]

namespace Json

/-- A value of a document: the steps that lead to it, the octets in front of it, and itself. -/
structure Node where
  trail : Trail
  offset : Nat
  value : Tree

/-- A value directly inside another one: the step that leads to it, and where it stands. -/
structure Part where
  step : Step
  offset : Nat
  value : Tree

/-- The offset where a part ends. -/
def Part.finish (p : Part) : Nat :=
  p.offset + Text.byteLength p.value.source

namespace Tree

/-- A value as the scans report it where it begins at offset `k`. -/
def occurrence (t : Tree) (k : Nat) : Occurrence :=
  ⟨t.kind, k, t.source⟩

/-- An item as a part, at position `i` and laid out from offset `k` on. -/
def itemPart (i k : Nat) (item : Item Tree) : Part :=
  ⟨.index i, k + Text.byteLength item.before.1, item.value⟩

/-- A member as a part, laid out from offset `k` on. Its position has no part in the step. -/
def entryPart (_ k : Nat) (e : Entry Tree) : Part :=
  ⟨.key (Quoted.text e.key.source), (e.occurrence kind source k).value.offset, e.item.value⟩

/-- The parts that are laid out from offset `k` on, with a comma between them. -/
def laidOut {α : Type} (part : Nat → Nat → α → Part) (write : α → Text) (i k : Nat) :
    List α → List Part
  | [] => []
  | a :: rest =>
    part i k a :: laidOut part write (i + 1) (k + Text.byteLength (write a) + 1) rest

/-- The values directly inside a value that begins at offset `k`. -/
def parts (k : Nat) : Tree → List Part
  | .array first rest => laidOut itemPart (Item.source source) 0 (k + 1) (first :: rest)
  | .object first rest => laidOut entryPart (Entry.source source) 0 (k + 1) (first :: rest)
  | _ => []

/--
A value that begins at offset `k`, and the values inside it that are at most `depth` steps away, a
container before what is inside.
-/
def nodes (depth : Nat) (trail : Trail) (k : Nat) (t : Tree) : List Node :=
  match depth with
  | 0 => [⟨trail, k, t⟩]
  | depth + 1 =>
    ⟨trail, k, t⟩ ::
      (t.parts k).flatMap fun p => nodes depth (trail ++ [p.step]) p.offset p.value

/-! ## Parts are what the scans find -/

theorem mapIdx_itemOccurrences (i j k : Nat) (items : List (Item Tree)) :
    ((itemOccurrences kind source j items).mapIdx fun n e => (Step.index (n + i), e.shift k)) =
      (laidOut itemPart (Item.source source) i (k + j) items).map fun p =>
        (p.step, p.value.occurrence p.offset) := by
  induction items generalizing i j with
  | nil => rfl
  | cons item rest ih =>
      have hrest := ih (i + 1) (j + Text.byteLength (item.source source) + 1)
      simp only [itemOccurrences, laidOut, itemPart, List.mapIdx_cons, List.map_cons,
        Occurrence.shift, occurrence, Nat.zero_add, Nat.add_assoc, Nat.add_comm 1] at hrest ⊢
      rw [hrest]

theorem map_entryOccurrences_shift (i j k : Nat) (entries : List (Entry Tree)) :
    ((entryOccurrences kind source j entries).map fun m =>
        (Step.key (Quoted.text m.key.raw), m.value.shift k)) =
      (laidOut entryPart (Entry.source source) i (k + j) entries).map fun p =>
        (p.step, p.value.occurrence p.offset) := by
  induction entries generalizing i j with
  | nil => rfl
  | cons e rest ih =>
      have hrest := ih (i + 1) (j + Text.byteLength (e.source source) + 1)
      simp only [entryOccurrences, laidOut, entryPart, List.map_cons, Occurrence.shift,
        Entry.occurrence, occurrence, Nat.add_assoc] at hrest ⊢
      rw [hrest]

theorem children_of_isObject {t : Tree} (h : t.isObject = true) (k : Nat) :
    (t.occurrence k).children =
      (Json.members t.source).map fun m => (.key (Quoted.text m.key.raw), m.value.shift k) := by
  rw [Occurrence.children, occurrence, t.opensObject_source, h]
  rfl

theorem children_of_not_isObject {t : Tree} (h : t.isObject = false) (k : Nat) :
    (t.occurrence k).children =
      (Json.elements t.source).mapIdx fun i e => (.index i, e.shift k) := by
  rw [Occurrence.children, occurrence, t.opensObject_source, h]
  rfl

/-- The values that are found directly inside a value are its parts, each at its place. -/
theorem children_occurrence (t : Tree) (k : Nat) :
    (t.occurrence k).children =
      (t.parts k).map fun p => (p.step, p.value.occurrence p.offset) := by
  cases t with
  | array first rest =>
      have hfills : ∀ i ∈ first :: rest, Fills i.value.kind i.value.source :=
        fun i _ => i.value.fills
      rw [children_of_not_isObject rfl, source_array, itemsSource_eq, elements_layout [] hfills]
      exact mapIdx_itemOccurrences 0 1 k (first :: rest)
  | object first rest =>
      have hfills : ∀ e ∈ first :: rest, Fills e.item.value.kind e.item.value.source :=
        fun e _ => e.item.value.fills
      rw [children_of_isObject rfl, source_object, entriesSource_eq, members_layout [] hfills]
      exact map_entryOccurrences_shift 0 1 k (first :: rest)
  | emptyArray inside =>
      have helements : Json.elements (emptyArray inside).source = [] := elements_empty inside []
      rw [children_of_not_isObject rfl, helements]
      rfl
  | emptyObject inside =>
      have hmembers : Json.members (emptyObject inside).source = [] := members_empty inside []
      rw [children_of_isObject rfl, hmembers]
      rfl
  | scalar kind raw spelled =>
      rw [children_of_not_isObject rfl, Json.elements, opensArray_source]
      rfl

end Tree

/-! ## Walks -/

/-- A value as a walk lists it. -/
def Node.visit (n : Node) : Visit :=
  ⟨n.trail, n.value.occurrence n.offset⟩

theorem Tree.walkFrom_occurrence (depth : Nat) (trail : Trail) (t : Tree) (k : Nat) :
    walkFrom depth trail (t.occurrence k) = (t.nodes depth trail k).map Node.visit := by
  induction depth generalizing trail t k with
  | zero => rfl
  | succ depth ih =>
      rw [walkFrom, children_occurrence, nodes, List.map_cons, List.map_flatMap, List.flatMap_map]
      simp only [ih]
      rfl

/-- The values of a document down to a depth. The root is entered whatever the depth. -/
def Document.nodes (d : Document) (depth : Nat) : List Node :=
  d.root.nodes (max depth 1) [] (Text.byteLength d.before.1)

/-- A walk through a document lists its values down to the depth, each at its place. -/
theorem Document.walk_source (d : Document) (depth : Nat) :
    walk depth d.source = (d.nodes depth).map Node.visit := by
  rw [walk, d.firstValue?_source]
  exact d.root.walkFrom_occurrence (max depth 1) [] (Text.byteLength d.before.1)

/-! ## Places -/

namespace Tree

/-- A part begins and ends within what it is written as. -/
def Fit {α : Type} (part : Nat → Nat → α → Part) (write : α → Text) : Prop :=
  ∀ i k a, k ≤ (part i k a).offset ∧ (part i k a).finish ≤ k + Text.byteLength (write a)

theorem itemPart_fit : Fit itemPart (Item.source source) := by
  intro i k item
  simp only [Part.finish, itemPart, Item.source, Text.byteLength_append]
  omega

theorem entryPart_fit : Fit entryPart (Entry.source source) := by
  intro i k e
  have hcolon : ':'.utf8Size = 1 := rfl
  simp only [Part.finish, entryPart, Entry.occurrence, Entry.source, Item.source,
    Text.byteLength_append, Text.byteLength_cons, hcolon]
  omega

section LaidOut

variable {α : Type} {part : Nat → Nat → α → Part} {write : α → Text}

/-- Parts begin where the layout does or later, and end before it does with a comma for each. -/
theorem bounds_of_mem_laidOut (hfit : Fit part write) {i k : Nat} {as : List α} {p : Part}
    (h : p ∈ laidOut part write i k as) :
    k ≤ p.offset ∧ p.finish < k + Text.byteLength (as.flatMap fun a => ',' :: write a) := by
  induction as generalizing i k with
  | nil => cases h
  | cons a rest ih =>
      have hcomma : ','.utf8Size = 1 := rfl
      rw [List.flatMap_cons, Text.byteLength_append, Text.byteLength_cons]
      rcases List.mem_cons.1 h with rfl | h
      · have := hfit i k a
        omega
      · have := ih h
        omega

theorem pairwise_laidOut (hfit : Fit part write) (i k : Nat) (as : List α) :
    (laidOut part write i k as).Pairwise fun p q => p.finish ≤ q.offset := by
  induction as generalizing i k with
  | nil => exact .nil
  | cons a rest ih =>
      refine .cons (fun q hq => ?_) (ih _ _)
      have := hfit i k a
      have := bounds_of_mem_laidOut hfit hq
      omega

end LaidOut

/-- A part stands inside the container, behind the bracket that opens it. -/
theorem bounds_of_mem_parts {t : Tree} {k : Nat} {p : Part} (h : p ∈ t.parts k) :
    k < p.offset ∧ p.finish ≤ k + Text.byteLength t.source := by
  cases t with
  | array first rest =>
      have hbounds := bounds_of_mem_laidOut itemPart_fit h
      have hsizes : '['.utf8Size = 1 ∧ ','.utf8Size = 1 := ⟨rfl, rfl⟩
      rw [List.flatMap_cons, ← tailSource_eq_flatMap] at hbounds
      rw [source_array, itemsSource_eq]
      simp only [Text.byteLength_cons, Text.byteLength_append] at hbounds ⊢
      omega
  | object first rest =>
      have hbounds := bounds_of_mem_laidOut entryPart_fit h
      have hsizes : '\x7b'.utf8Size = 1 ∧ ','.utf8Size = 1 := ⟨rfl, rfl⟩
      rw [List.flatMap_cons, ← entryTailSource_eq_flatMap] at hbounds
      rw [source_object, entriesSource_eq]
      simp only [Text.byteLength_cons, Text.byteLength_append] at hbounds ⊢
      omega
  | scalar kind raw spelled => cases h
  | emptyArray inside => cases h
  | emptyObject inside => cases h

/-- The parts of a container stand one after another. -/
theorem pairwise_parts (t : Tree) (k : Nat) :
    (t.parts k).Pairwise fun p q => p.finish ≤ q.offset := by
  cases t with
  | array first rest => exact pairwise_laidOut itemPart_fit 0 (k + 1) (first :: rest)
  | object first rest => exact pairwise_laidOut entryPart_fit 0 (k + 1) (first :: rest)
  | scalar kind raw spelled => exact .nil
  | emptyArray inside => exact .nil
  | emptyObject inside => exact .nil

/-- The values inside a value stand inside its text. -/
theorem bounds_of_mem_nodes {depth : Nat} {trail : Trail} {k : Nat} {t : Tree} {n : Node}
    (h : n ∈ t.nodes depth trail k) :
    k ≤ n.offset ∧
      n.offset + Text.byteLength n.value.source ≤ k + Text.byteLength t.source := by
  induction depth generalizing trail k t with
  | zero =>
      obtain rfl := List.mem_singleton.1 h
      exact ⟨Nat.le_refl k, Nat.le_refl _⟩
  | succ depth ih =>
      rcases List.mem_cons.1 h with rfl | h
      · exact ⟨Nat.le_refl k, Nat.le_refl _⟩
      · obtain ⟨p, hp, hn⟩ := List.mem_flatMap.1 h
        have hpart := bounds_of_mem_parts hp
        have hinside := ih hn
        rw [Part.finish] at hpart
        omega

/-- The values inside a value begin one after another. -/
theorem pairwise_nodes (depth : Nat) (trail : Trail) (k : Nat) (t : Tree) :
    (t.nodes depth trail k).Pairwise fun m n => m.offset < n.offset := by
  induction depth generalizing trail k t with
  | zero => exact List.pairwise_singleton _ _
  | succ depth ih =>
      refine .cons (fun n hn => ?_) (List.pairwise_flatMap.2 ⟨fun p _ => ih _ _ _, ?_⟩)
      · obtain ⟨p, hp, hn⟩ := List.mem_flatMap.1 hn
        have := bounds_of_mem_parts hp
        have := bounds_of_mem_nodes hn
        show k < n.offset
        omega
      · refine (t.pairwise_parts k).imp fun {p q} hpq m hm n hn => ?_
        have hm' := bounds_of_mem_nodes hm
        have hn' := bounds_of_mem_nodes hn
        have := Text.byteLength_pos m.value.fills.ne_nil
        rw [Part.finish] at hpq
        omega

/-! ## The steps to the parts -/

section Steps

variable {t : Tree} {k : Nat} {p : Part}

theorem isArray_eq_false (h : t.isObject = true) : t.isArray = false := by
  cases t with
  | object first rest => rfl
  | emptyObject inside => rfl
  | _ => cases h

/-- Only containers have parts. -/
theorem isArray_or_isObject_of_mem_parts (hp : p ∈ t.parts k) :
    t.isArray = true ∨ t.isObject = true := by
  cases t with
  | array first rest => exact .inl rfl
  | object first rest => exact .inr rfl
  | _ => cases hp

theorem map_step_entryParts (i k : Nat) (entries : List (Entry Tree)) :
    (laidOut entryPart (Entry.source source) i k entries).map (·.step) =
      entries.map fun e => .key (Quoted.text e.key.source) := by
  induction entries generalizing i k with
  | nil => rfl
  | cons e rest ih => rw [laidOut, List.map_cons, List.map_cons, ih, entryPart]

/-- The steps to the members of an object are their names. -/
theorem map_step_parts (h : t.isObject = true) (k : Nat) :
    (t.parts k).map (·.step) = (t.members.map (·.1)).map .key := by
  cases t with
  | object first rest =>
      rw [parts, map_step_entryParts, members, List.map_map, List.map_map]
      rfl
  | emptyObject inside => rfl
  | _ => cases h

theorem getElem?_itemParts {i k : Nat} {items : List (Item Tree)} {n : Nat}
    (h : (laidOut itemPart (Item.source source) i k items)[n]? = some p) :
    p.step = .index (n + i) ∧ n + k ≤ p.offset := by
  induction items generalizing i k n with
  | nil => cases h
  | cons item rest ih =>
      cases n with
      | zero =>
          cases h
          rw [itemPart, Nat.zero_add, Nat.zero_add]
          exact ⟨rfl, Nat.le_add_right k _⟩
      | succ n =>
          obtain ⟨hstep, hoffset⟩ := ih (n := n) h
          refine ⟨?_, by omega⟩
          rw [hstep, Nat.add_assoc, Nat.add_comm 1]

/-- The step to an element is its position, of which there are fewer than octets in front of it. -/
theorem getElem?_parts_of_isArray (h : t.isArray = true) {n : Nat} (hn : (t.parts k)[n]? = some p) :
    p.step = .index n ∧ n < p.offset := by
  cases t with
  | array first rest =>
      obtain ⟨hstep, hoffset⟩ := getElem?_itemParts hn
      exact ⟨hstep, by omega⟩
  | emptyArray inside => cases hn
  | _ => cases h

end Steps

end Tree

end Json

end DotPath
