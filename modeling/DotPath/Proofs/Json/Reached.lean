import DotPath.Proofs.Json.Nodes

/-!
# What the values of a document are reached by

The values inside a value are its parts, the parts of its parts, and so on. `Node.Reaches` says so
without a depth and without an order. The list of the values down to a depth holds just those that
are reached in so many steps, and each of them comes after the value that it is a part of.

## Main definitions

* `Tree.branches`: the values directly inside a value, with their steps.
* `Node.Reaches`: the values inside a value, at any depth.

## Main results

* `Tree.mem_nodes_iff`, `Document.mem_nodes_iff`: the list of values is complete down to its depth.
* `Document.exists_parent`: a value comes after the one that it is a part of.
-/

namespace DotPath.Json

/--
The values directly inside a value: elements under their positions, members under their decoded
keys.
-/
def Tree.branches : Tree → List (Step × Tree)
  | .array first rest => (first :: rest).mapIdx fun i item => (.index i, item.value)
  | .object first rest =>
    (first :: rest).map fun e => (.key (Quoted.text e.key.source), e.item.value)
  | _ => []

/-- The values inside a value, at any depth, the value itself included. -/
inductive Node.Reaches (m : Node) : Node → Prop where
  | refl : m.Reaches m
  | step {n : Node} {p : Part} : m.Reaches n → p ∈ n.value.parts n.offset →
      m.Reaches ⟨n.trail ++ [p.step], p.offset, p.value⟩

theorem Node.Reaches.trans {m n r : Node} (h : m.Reaches n) (h' : n.Reaches r) : m.Reaches r := by
  induction h' with
  | refl => exact h
  | step _ hp ih => exact ih.step hp

namespace Tree

theorem map_itemParts (i k : Nat) (items : List (Item Tree)) :
    (laidOut itemPart (Item.source source) i k items).map (fun p => (p.step, p.value)) =
      items.mapIdx fun n item => (.index (n + i), item.value) := by
  induction items generalizing i k with
  | nil => rfl
  | cons item rest ih =>
      rw [laidOut, List.map_cons, ih, List.mapIdx_cons]
      simp only [itemPart, Nat.zero_add, Nat.add_assoc, Nat.add_comm 1]

theorem map_entryParts (i k : Nat) (entries : List (Entry Tree)) :
    (laidOut entryPart (Entry.source source) i k entries).map (fun p => (p.step, p.value)) =
      entries.map fun e => (.key (Quoted.text e.key.source), e.item.value) := by
  induction entries generalizing i k with
  | nil => rfl
  | cons e rest ih => rw [laidOut, List.map_cons, List.map_cons, ih, entryPart]

/-- The parts of a value are its branches, laid out. -/
theorem map_parts (t : Tree) (k : Nat) :
    (t.parts k).map (fun p => (p.step, p.value)) = t.branches := by
  cases t with
  | array first rest => exact map_itemParts 0 (k + 1) (first :: rest)
  | object first rest => exact map_entryParts 0 (k + 1) (first :: rest)
  | scalar | emptyArray | emptyObject => rfl

variable {depth k : Nat} {trail : Trail} {t : Tree}

theorem mem_nodes_self (depth : Nat) (trail : Trail) (k : Nat) (t : Tree) :
    ⟨trail, k, t⟩ ∈ t.nodes depth trail k := by
  cases depth with
  | zero => exact List.mem_cons_self
  | succ depth => exact List.mem_cons_self

/-- Above the depth, the parts of a value that is listed are listed as well. -/
theorem mem_nodes_of_mem_parts {u : Node} {p : Part} (hu : u ∈ t.nodes depth trail k)
    (hlength : u.trail.length < trail.length + depth) (hp : p ∈ u.value.parts u.offset) :
    ⟨u.trail ++ [p.step], p.offset, p.value⟩ ∈ t.nodes depth trail k := by
  induction depth generalizing trail k t with
  | zero =>
      rw [List.mem_singleton.1 hu] at hlength
      exact absurd hlength (Nat.lt_irrefl _)
  | succ depth ih =>
      rcases List.mem_cons.1 hu with rfl | hu
      · exact List.mem_cons_of_mem _ (List.mem_flatMap.2 ⟨p, hp, mem_nodes_self _ _ _ _⟩)
      · obtain ⟨q, hq, hu⟩ := List.mem_flatMap.1 hu
        refine List.mem_cons_of_mem _ (List.mem_flatMap.2 ⟨q, hq, ih hu ?_⟩)
        rw [List.length_append, List.length_singleton]
        omega

/-- The values that are listed are those that are reached within the depth. -/
theorem mem_nodes_iff {n : Node} :
    n ∈ t.nodes depth trail k ↔
      Node.Reaches ⟨trail, k, t⟩ n ∧ n.trail.length ≤ trail.length + depth := by
  constructor
  · intro h
    induction depth generalizing trail k t with
    | zero =>
        obtain rfl := List.mem_singleton.1 h
        exact ⟨.refl, Nat.le_refl _⟩
    | succ depth ih =>
        rcases List.mem_cons.1 h with rfl | h
        · exact ⟨.refl, Nat.le_add_right _ _⟩
        · obtain ⟨p, hp, hn⟩ := List.mem_flatMap.1 h
          obtain ⟨hreaches, hlength⟩ := ih hn
          rw [List.length_append, List.length_singleton] at hlength
          exact ⟨(Node.Reaches.refl.step hp).trans hreaches, by omega⟩
  · rintro ⟨h, hlength⟩
    induction h with
    | refl => exact mem_nodes_self depth trail k t
    | step _ hp ih =>
        rw [List.length_append, List.length_singleton] at hlength
        exact mem_nodes_of_mem_parts (ih (Nat.le_of_succ_le hlength)) hlength hp

end Tree

namespace Document

/-- The root of a document, with the place where it stands. -/
def rootNode (d : Document) : Node :=
  ⟨[], Text.byteLength d.before.1, d.root⟩

variable {d : Document} {depth : Nat} {n : Node}

/-- The values of a document down to a depth. A step leads into a container. -/
theorem mem_nodes_iff :
    n ∈ d.nodes depth ↔ d.rootNode.Reaches n ∧ n.trail.length ≤ max depth 1 := by
  rw [nodes, Tree.mem_nodes_iff, List.length_nil, Nat.zero_add]
  rfl

/-- A value is the root, or it comes after the value that it is a part of. -/
theorem exists_parent (h : n ∈ d.nodes depth) :
    n = d.rootNode ∨ ∃ u ∈ d.nodes depth, u.offset < n.offset ∧
      ∃ p ∈ u.value.parts u.offset, n = ⟨u.trail ++ [p.step], p.offset, p.value⟩ := by
  obtain ⟨hreaches, hlength⟩ := mem_nodes_iff.1 h
  cases hreaches with
  | refl => exact .inl rfl
  | @step u p hu hp =>
      rw [List.length_append, List.length_singleton] at hlength
      exact .inr ⟨u, mem_nodes_iff.2 ⟨hu, Nat.le_of_succ_le hlength⟩,
        (Tree.bounds_of_mem_parts hp).1, p, hp, rfl⟩

/-- A value stands in the text of the document where it is listed. -/
theorem standsAt_of_mem_nodes (h : n ∈ d.nodes depth) :
    StandsAt d.source n.value.source n.offset := by
  have hvisit : n.visit ∈ walk depth d.source := by
    rw [d.walk_source]
    exact List.mem_map_of_mem h
  exact (isIn_of_mem_walk hvisit).1

end Document

end DotPath.Json
