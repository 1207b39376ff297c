import DotPath.Proofs.Indexed.Flatten
import DotPath.Proofs.Json.Reached
import DotPath.Proofs.Json.Sorted
import DotPath.Proofs.Transformer.Reading

/-!
# Arrays that are flattened

An array is flattened by putting the elements of the arrays in it in their place. Done once, arrays
deeper inside are kept. Done for many levels, what is left are the values that are reached from the
root through arrays only and are no arrays themselves; and where a level is the last, the arrays
that it holds. These values are kept in the order of the document and as they are written. If there
are levels enough, no array is left, and so there is nothing to flatten another time.

## Main definitions

* `Json.Node.inArrays`: the values that are reached through arrays only.
* `Json.Document.kept`: the values that are left when arrays are entered down to a level.

## Main results

* `Json.Tree.map_value_kept`: flattening by recursion keeps these values.
* `Transformer.flattenArray_keeps`: so does the transformer, which keeps a stack instead.
-/

namespace DotPath

namespace Json

/-! ## Values in arrays -/

/-- Whether a step leads to an element of an array. -/
def Step.isPosition : Step → Bool
  | .index _ => true
  | .key _ => false

/-- Whether a value is reached through arrays only. -/
def Node.inArrays (n : Node) : Bool :=
  n.trail.all Step.isPosition

/-- What is inside a value is reached by the steps to the value, and more. -/
theorem Node.Reaches.trail_isPrefix {m n : Node} (h : m.Reaches n) : m.trail <+: n.trail := by
  induction h with
  | refl => exact List.prefix_rfl
  | step _ _ ih => exact ih.trans (List.prefix_append _ _)

namespace Tree

variable {t : Tree} {k : Nat} {p : Part}

/-- A part is an element at its position, or the value of a member under its name. -/
theorem mem_parts_cases (hp : p ∈ t.parts k) :
    (t.isArray = true ∧ p.step.isPosition = true ∧ p.value ∈ t.elements) ∨
      (t.isArray = false ∧ p.step.isPosition = false ∧ ∃ e ∈ t.entries, e.2 = p.value) := by
  have hmem := List.mem_map_of_mem (f := fun p => (p.step, p.value)) hp
  rw [map_parts] at hmem
  cases t with
  | array first rest =>
      obtain ⟨i, hi, heq⟩ := List.mem_mapIdx.1 hmem
      rw [← (Prod.mk.inj heq).1, ← (Prod.mk.inj heq).2]
      exact .inl ⟨rfl, rfl, List.mem_map_of_mem (List.getElem_mem hi)⟩
  | object first rest =>
      obtain ⟨e, he, heq⟩ := List.mem_map.1 hmem
      rw [← (Prod.mk.inj heq).1, ← (Prod.mk.inj heq).2]
      exact .inr ⟨rfl, rfl, _, List.mem_map_of_mem he, rfl⟩
  | scalar | emptyArray | emptyObject => cases hmem

/-- The steps to the parts of arrays are positions, and those to the parts of objects are not. -/
theorem isPosition_of_mem_parts (hp : p ∈ t.parts k) : p.step.isPosition = t.isArray := by
  rcases mem_parts_cases hp with ⟨harray, hstep, -⟩ | ⟨harray, hstep, -⟩
  · rw [harray, hstep]
  · rw [harray, hstep]

theorem map_value_parts (harray : t.isArray = true) (k : Nat) :
    (t.parts k).map (·.value) = t.elements := by
  have hvalues := congrArg (List.map (·.2)) (t.map_parts k)
  rw [List.map_map] at hvalues
  refine hvalues.trans ?_
  cases t with
  | array first rest =>
      refine List.ext_getElem? fun i => ?_
      rw [branches, elements, List.getElem?_map, List.getElem?_mapIdx, Option.map_map,
        ← List.map_cons, List.getElem?_map]
      rfl
  | emptyArray inside => rfl
  | _ => cases harray

/-- Fewer containers nest in a part than in the container. -/
theorem height_lt_of_mem_parts (hp : p ∈ t.parts k) : p.value.height < t.height := by
  rcases mem_parts_cases hp with ⟨-, -, helement⟩ | ⟨-, -, e, he, hvalue⟩
  · exact height_lt_of_mem_elements helement
  · rw [← hvalue]
    exact height_lt_of_mem_entries he

end Tree

/-- With each step to a value, fewer containers nest in it. -/
theorem Node.Reaches.height_add_length_le {m n : Node} (h : m.Reaches n) :
    n.value.height + n.trail.length ≤ m.value.height + m.trail.length := by
  induction h with
  | refl => exact Nat.le_refl _
  | step _ hp ih =>
      have hpart := Tree.height_lt_of_mem_parts hp
      rw [List.length_append, List.length_singleton]
      dsimp only
      omega

namespace Tree

variable {t : Tree} {k : Nat} {p : Part}

/-! ## Flattening -/

/-- A value, or what is in it when it is an array and arrays are entered for some levels. -/
def flat (levels : Nat) (t : Tree) : List Tree :=
  match levels with
  | 0 => [t]
  | levels + 1 => if t.isArray then t.elements.flatMap (flat levels) else [t]

theorem flat_of_isArray (harray : t.isArray = true) (levels : Nat) :
    t.flat (levels + 1) = t.elements.flatMap (flat levels) :=
  if_pos harray

theorem flat_of_not_isArray (harray : t.isArray = false) (levels : Nat) : t.flat levels = [t] := by
  cases levels with
  | zero => rfl
  | succ levels => rw [flat, harray, if_neg Bool.false_ne_true]

theorem flat_one (t : Tree) : t.flat 1 = if t.isArray then t.elements else [t] := by
  rw [flat]
  exact congrArg (fun inside => if t.isArray then inside else [t]) (List.flatMap_singleton' _)

/-- What the text of a value gives is what the value gives. -/
theorem given_source (t : Tree) (levels : Nat) :
    Indexed.given levels t.source = (t.flat levels).map source := by
  induction levels generalizing t with
  | zero => rfl
  | succ levels ih =>
      rw [Indexed.given, flat, t.opensArray_source]
      cases t.isArray with
      | true =>
          rw [if_pos rfl, if_pos rfl, Indexed.flattened_eq, t.raws_elements_source,
            List.flatMap_map, List.map_flatMap]
          exact List.flatMap_congr fun e _ => ih e
      | false => rfl

/-- What is flattened in the text of an array is flattened in the array. -/
theorem flattened_source (harray : t.isArray = true) (levels : Nat) :
    Transformer.flattened levels t.source = (t.flat (levels + 1)).map source := by
  rw [← given_source, Indexed.given, t.opensArray_source, harray, if_pos rfl]

/-- Where no element is an array, there is nothing to enter. -/
theorem flat_of_no_array (harray : t.isArray = true) (h : ∀ e ∈ t.elements, e.isArray = false)
    (levels : Nat) : t.flat (levels + 1) = t.elements := by
  rw [flat_of_isArray harray,
    List.flatMap_congr fun e he => flat_of_not_isArray (h e he) levels]
  exact List.flatMap_singleton' _

/-! ## What is kept -/

/--
Whether a value is kept when arrays are entered down to a level: it is in arrays, and it is on the
level or no array.
-/
def isKept (limit : Nat) (n : Node) : Bool :=
  n.inArrays && (n.trail.length == limit || !n.value.isArray)

/-- Inside a value that is no array nothing is reached through arrays only. -/
theorem isKept_of_mem_parts {limit depth : Nat} {trail : Trail} {n : Node}
    (harray : t.isArray = false) (hp : p ∈ t.parts k)
    (hn : n ∈ p.value.nodes depth (trail ++ [p.step]) p.offset) : isKept limit n = false := by
  have htrail := (mem_nodes_iff.1 hn).1.trail_isPrefix
  have hstep := isPosition_of_mem_parts hp
  rw [harray] at hstep
  have hnot : n.inArrays = false := by
    rw [Node.inArrays, List.all_eq_false]
    exact ⟨p.step, htrail.subset (by simp), by simp [hstep]⟩
  rw [isKept, hnot, Bool.false_and]

/-- Flattening keeps those of the values that are in arrays and no arrays, or on the last level. -/
theorem map_value_kept (t : Tree) (trail : Trail) (htrail : trail.all Step.isPosition = true)
    (levels k : Nat) :
    ((t.nodes levels trail k).filter (isKept (trail.length + levels))).map (·.value) =
      t.flat levels := by
  induction levels generalizing t trail k with
  | zero =>
      have hkept : isKept (trail.length + 0) ⟨trail, k, t⟩ = true := by
        simp [isKept, Node.inArrays, htrail]
      rw [nodes, List.filter_singleton, hkept]
      rfl
  | succ levels ih =>
      rw [nodes, flat]
      cases harray : t.isArray with
      | true =>
          have hentered : isKept (trail.length + (levels + 1)) ⟨trail, k, t⟩ = false := by
            simp [isKept, harray]
          rw [List.filter_cons, hentered, if_neg Bool.false_ne_true, if_pos rfl,
            List.filter_flatMap, List.map_flatMap, ← map_value_parts harray k, List.flatMap_map]
          refine List.flatMap_congr fun p hp => ?_
          have hinside : (trail ++ [p.step]).all Step.isPosition = true := by
            simp [htrail, isPosition_of_mem_parts hp, harray]
          have hlength : trail.length + (levels + 1) = (trail ++ [p.step]).length + levels := by
            rw [List.length_append, List.length_singleton]
            omega
          rw [hlength]
          exact ih p.value (trail ++ [p.step]) hinside p.offset
      | false =>
          have hkept : isKept (trail.length + (levels + 1)) ⟨trail, k, t⟩ = true := by
            simp [isKept, Node.inArrays, htrail, harray]
          have hnone : ((t.parts k).flatMap fun p =>
              p.value.nodes levels (trail ++ [p.step]) p.offset).filter
                (isKept (trail.length + (levels + 1))) = [] := by
            refine List.filter_eq_nil_iff.2 fun n hn => ?_
            obtain ⟨p, hp, hmem⟩ := List.mem_flatMap.1 hn
            rw [isKept_of_mem_parts harray hp hmem]
            exact Bool.false_ne_true
          rw [List.filter_cons, hkept, if_pos rfl, hnone, if_neg Bool.false_ne_true]
          rfl

end Tree

/-! ## Documents -/

/-- The values of a document that are kept when arrays are entered down to a level. -/
def Document.kept (d : Document) (limit : Nat) : List Node :=
  (d.nodes limit).filter (Tree.isKept limit)

namespace Document

variable {d : Document} {limit : Nat} {n : Node}

theorem mem_kept_iff (hlimit : 0 < limit) :
    n ∈ d.kept limit ↔ d.rootNode.Reaches n ∧ n.inArrays = true ∧ n.trail.length ≤ limit ∧
      (n.value.isArray = false ∨ n.trail.length = limit) := by
  have hmax : max limit 1 = limit := Nat.max_eq_left hlimit
  rw [kept, List.mem_filter, mem_nodes_iff, hmax, Tree.isKept, Bool.and_eq_true, Bool.or_eq_true,
    beq_iff_eq, Bool.not_eq_true']
  tauto

theorem pairwise_kept (d : Document) (limit : Nat) :
    (d.kept limit).Pairwise fun m n => m.offset < n.offset :=
  (d.root.pairwise_nodes _ _ _).filter _

theorem map_value_kept (d : Document) (hlimit : 0 < limit) :
    (d.kept limit).map (·.value) = d.root.flat limit := by
  have hvalues := d.root.map_value_kept [] rfl limit (Text.byteLength d.before.1)
  rw [List.length_nil, Nat.zero_add] at hvalues
  rw [kept, nodes, Nat.max_eq_left hlimit]
  exact hvalues

/-- All arrays of a document that are in arrays only have fewer than so many arrays around them. -/
def ArraysWithin (d : Document) (limit : Nat) : Prop :=
  ∀ n, d.rootNode.Reaches n → n.inArrays = true → n.value.isArray = true → n.trail.length < limit

/-- So it is where no containers nest deeper. -/
theorem arraysWithin_of_height (h : d.root.height < limit) : d.ArraysWithin limit := by
  intro n hreaches _ _
  have hbelow : n.value.height + n.trail.length ≤ d.root.height := hreaches.height_add_length_le
  omega

/-- Where arrays do not nest deeper, all values that are in arrays and no arrays are kept. -/
theorem ArraysWithin.mem_kept_iff (h : d.ArraysWithin limit) (hlimit : 0 < limit) :
    n ∈ d.kept limit ↔ d.rootNode.Reaches n ∧ n.inArrays = true ∧ n.value.isArray = false := by
  rw [Document.mem_kept_iff hlimit]
  constructor
  · rintro ⟨hreaches, hin, -, hscalar | hlength⟩
    · exact ⟨hreaches, hin, hscalar⟩
    · refine ⟨hreaches, hin, ?_⟩
      rw [Bool.eq_false_iff]
      intro harray
      exact absurd hlength (Nat.ne_of_lt (h n hreaches hin harray))
  · rintro ⟨hreaches, hin, hscalar⟩
    refine ⟨hreaches, hin, ?_, .inl hscalar⟩
    cases hreaches with
    | refl => exact Nat.zero_le limit
    | @step u p hu hp =>
        rw [Node.inArrays, List.all_append, Bool.and_eq_true, List.all_cons, List.all_nil,
          Bool.and_true, Tree.isPosition_of_mem_parts hp] at hin
        rw [List.length_append, List.length_singleton]
        exact h u hu hin.1 hin.2

/-- No array is left then. -/
theorem ArraysWithin.isArray_of_mem_flat (h : d.ArraysWithin limit) (hlimit : 0 < limit) {e : Tree}
    (he : e ∈ d.root.flat limit) : e.isArray = false := by
  rw [← d.map_value_kept hlimit] at he
  obtain ⟨n, hn, rfl⟩ := List.mem_map.1 he
  exact ((h.mem_kept_iff hlimit).1 hn).2.2

end Document

end Json

namespace Transformer

open Json Selection

/-- How many levels of arrays are entered, that of the root included. -/
def arrayLevels (deep : Bool) : Nat :=
  if deep then defaultDepth else 2

theorem levelsBelow_succ (deep : Bool) : Indexed.levelsBelow deep + 1 = arrayLevels deep := by
  cases deep <;> rfl

theorem flattenArray_eq (follow : Follow) (json argument : Text) :
    flattenArray follow json argument =
      match Argument.flag? "deep".toList argument with
      | none => json
      | some deep =>
        if (document json).isArray then
          composeArray (flattened (Indexed.levelsBelow deep) (document json).raw)
        else json :=
  rfl

/-- A document that is an array is flattened into an array, which is a tree again. -/
theorem flattenArray_source (follow : Follow) {d : Document} (harray : d.root.isArray = true)
    {argument : Text} {deep : Bool}
    (hargument : Argument.flag? "deep".toList argument = some deep) :
    flattenArray follow d.source argument =
      (Tree.arrayOf (d.root.flat (arrayLevels deep))).source := by
  have hshows := Evaluator.shows_document d
  rw [flattenArray_eq, hargument]
  dsimp only
  rw [isArray_of_shows hshows, harray, if_pos rfl, hshows.2, Tree.flattened_source harray,
    levelsBelow_succ, Tree.source_arrayOf]

/-- An array with no arrays in it is written as it is. -/
theorem flattenArray_of_no_array (follow : Follow) {ts : List Tree}
    (h : ∀ e ∈ ts, e.isArray = false) {argument : Text} {deep : Bool}
    (hargument : Argument.flag? "deep".toList argument = some deep) :
    flattenArray follow (Tree.arrayOf ts).source argument = (Tree.arrayOf ts).source := by
  have hnone : ∀ e ∈ (Tree.arrayOf ts).elements, e.isArray = false := by
    rwa [Tree.elements_arrayOf]
  have hflat : (Tree.arrayOf ts).flat (arrayLevels deep) = ts := by
    rw [← levelsBelow_succ, Tree.flat_of_no_array (Tree.isArray_arrayOf ts) hnone,
      Tree.elements_arrayOf]
  have hout := flattenArray_source follow (d := .bare (.arrayOf ts)) (Tree.isArray_arrayOf ts)
    hargument
  rw [Document.source_bare] at hout
  exact hout.trans (congrArg (fun items => (Tree.arrayOf items).source) hflat)

/--
In a well-formed document that is an array, the elements of arrays are put in their place, once, or
for as many levels as a document is walked down. Those values are kept that are reached through
arrays only and are no arrays, or are on the last level: each once, in the order of the document and
as it is written. Flattened once, an array has the elements of the arrays in it in their place.
Flattened deeply, if arrays do not nest deeper than the levels, it has all values that are reached
through arrays only and are no arrays, and stays as it is when it is flattened again.

To keep a stack of half-read arrays comes to the same.
-/
theorem flattenArray_keeps (follow : Follow) {json : Text} (hjson : wellFormed none json = true) :
    (∃ d : Document, d.source = json) ∧
      ∀ d : Document, d.source = json → d.root.isArray = true → ∀ argument deep,
        Argument.flag? "deep".toList argument = some deep →
          Indexed.flatten json deep = .some (flattenArray follow json argument) ∧
          ∃ kept : List Node,
            flattenArray follow json argument = composeArray (kept.map (·.value.source)) ∧
            (Json.elements (flattenArray follow json argument)).map (·.raw) =
              kept.map (·.value.source) ∧
            kept.Pairwise (fun m n => m.offset < n.offset) ∧
            (∀ n, n ∈ kept ↔ d.rootNode.Reaches n ∧ n.inArrays = true ∧
              n.trail.length ≤ arrayLevels deep ∧
                (n.value.isArray = false ∨ n.trail.length = arrayLevels deep)) ∧
            (deep = false → kept.map (·.value) =
              d.root.elements.flatMap fun e => if e.isArray then e.elements else [e]) ∧
            (deep = true → d.ArraysWithin defaultDepth →
              (∀ n, n ∈ kept ↔
                d.rootNode.Reaches n ∧ n.inArrays = true ∧ n.value.isArray = false) ∧
              flattenArray follow (flattenArray follow json argument) argument =
                flattenArray follow json argument) := by
  obtain ⟨root, hroot, -⟩ := wellFormed_iff.1 hjson
  refine ⟨⟨root, hroot⟩, ?_⟩
  rintro d rfl harray argument deep hargument
  have hlevels : 0 < arrayLevels deep := by cases deep <;> decide
  have hvalues := d.map_value_kept hlevels
  have hsources : (d.kept (arrayLevels deep)).map (·.value.source) =
      (d.root.flat (arrayLevels deep)).map Tree.source := by
    rw [← hvalues, List.map_map]
    rfl
  refine ⟨?_, d.kept (arrayLevels deep), ?_, ?_, d.pairwise_kept _,
    fun n => Document.mem_kept_iff hlevels, ?_, ?_⟩
  · rw [Indexed.flatten_eq, flattenArray_eq, hargument]
  · rw [flattenArray_source follow harray hargument, Tree.source_arrayOf, hsources]
  · rw [flattenArray_source follow harray hargument, Tree.raws_elements_source,
      Tree.elements_arrayOf, hsources]
  · rintro rfl
    rw [hvalues, arrayLevels, if_neg Bool.false_ne_true, Tree.flat_of_isArray harray]
    exact List.flatMap_congr fun e _ => e.flat_one
  · rintro rfl hwithin
    refine ⟨fun n => hwithin.mem_kept_iff hlevels, ?_⟩
    rw [flattenArray_source follow harray hargument]
    exact flattenArray_of_no_array follow (fun e he => hwithin.isArray_of_mem_flat hlevels he)
      hargument

/-- Arrays in arrays, an array in an object, and an array that is empty. -/
def nestedArrays : Document :=
  .bare (.arrayOf [.ofNat 1, .arrayOf [.arrayOf [.ofNat 2], .arrayOf []],
    .objectOf [(['a'], .arrayOf [.ofNat 3])]])

/-- Flattened deeply, the document keeps two numbers and the object, and stays so. -/
theorem flattenArray_keeps_of_nested :
    wellFormed none nestedArrays.source = true ∧ nestedArrays.root.isArray = true ∧
      Argument.flag? "deep".toList "[true]".toList = some true ∧
      nestedArrays.ArraysWithin defaultDepth ∧
      Indexed.flatten nestedArrays.source true =
        .some "[1,2,\x7b\"a\":[3]\x7d]".toList ∧
      flattenArray (fun _ => .error .empty) "[1,2,\x7b\"a\":[3]\x7d]".toList "[true]".toList =
        "[1,2,\x7b\"a\":[3]\x7d]".toList := by
  have hwf : wellFormed none nestedArrays.source = true := by decide +kernel
  have hdeep : Argument.flag? "deep".toList "[true]".toList = some true := by decide +kernel
  have hwithin : nestedArrays.ArraysWithin defaultDepth :=
    Document.arraysWithin_of_height (by decide +kernel)
  have hout : flattenArray (fun _ => .error .empty) nestedArrays.source "[true]".toList =
      "[1,2,\x7b\"a\":[3]\x7d]".toList := by
    decide +kernel
  obtain ⟨hstack, kept, -, -, -, -, -, hagain⟩ :=
    (flattenArray_keeps (fun _ => .error .empty) hwf).2 nestedArrays rfl rfl "[true]".toList true
      hdeep
  rw [hout] at hstack hagain
  exact ⟨hwf, rfl, hdeep, hwithin, hstack, (hagain rfl hwithin).2⟩

end Transformer

end DotPath
