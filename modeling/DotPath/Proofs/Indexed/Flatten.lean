import DotPath.Proofs.Indexed.Selection
import DotPath.Proofs.Indexed.Visitor
import DotPath.Transformer.Structure

/-!
# Flattening with a stack of frames

Arrays in an array can be replaced by their elements without recursion. Each array that is entered
has a frame, and the frames below it are those of the arrays around it, which have more elements to
give. An element of the array on top is either entered, if it is an array and there are not too many
frames, or put behind what there is.

What is still to come from a frame depends on how many frames there are below it: each of them takes
away one level. When the frame on top is worked off, what it still had to give has been put behind
what there was, flattened for the levels that were left, and the frames below are as they were.

## Main definitions

* `flatten`: an array without the arrays in it.

## Main results

* `flatten_frame`: what a frame gives until it is worked off.
* `flatten_eq`: it is what the elements give by recursion.
-/

namespace DotPath.Indexed

open Json Transformer

/-! ## Frames -/

/-- Whether the value at a span is an array. -/
def isArrayAt (data : Text) (value : Span) : Part Bool :=
  if value.kind == .container then (· == '[') <$> octet data value.start else pure false

/-- One step of flattening: its frames, and the texts of the values that it has found. -/
def flattenRound (src : Text) (deep : Bool) :
    List Frame × List Text → Part (List Text ⊕ List Frame × List Text)
  | ([], found) => pure (.inl found)
  | (frame :: stack, found) => do
    match ← frame.next? src with
    | none => return .inr (stack, found)
    | some (_, value, next) =>
      let nested ← isArrayAt src.asOctets value
      if nested && (deep || (frame :: stack).length == 1) &&
          (frame :: stack).length < defaultDepth then
        return .inr (.array true (value.start + 1) 0 :: next :: stack, found)
      else return .inr (next :: stack, found ++ [← slice src value.start value.stop])

/-- An array whose arrays are replaced by their elements; any other text as it is. -/
def flatten (src : Text) (deep : Bool) : Part Text := do
  match ← firstValue src with
  | none => return src
  | some root =>
    if (← octet src.asOctets root.start) == '[' then
      return composeArray
        (← loop (flattenRound src deep) ([.array true (root.start + 1) 0], []))
    else return src

/-! ## Arrays in the text -/

section Arrays

variable {src : Text} {v : Occurrence}

theorem kind_of_opensArray (h : v.IsIn src) (harray : opensArray v.raw = true) :
    v.kind = .container := by
  obtain ⟨run, hrun⟩ := List.head?_eq_some_iff.1 (beq_iff_eq.1 harray)
  have hfills := h.2
  rw [hrun] at hfills
  exact kind_of_isOpening hfills rfl

theorem isArray_ofOccurrence (h : v.IsIn src) (base : Option Nat) :
    (Selection.ofOccurrence base v).isArray = opensArray v.raw := by
  show (v.kind == .container && opensArray v.raw) = opensArray v.raw
  cases harray : opensArray v.raw with
  | false => exact Bool.and_false _
  | true =>
      rw [kind_of_opensArray h harray]
      rfl

theorem isArrayAt_eq (h : v.IsIn src) :
    isArrayAt src.asOctets (.of v) = .some (opensArray v.raw) := by
  obtain ⟨o, ho, -, hopens⟩ := exists_octet_of_isIn h
  have hoctet : octet src.asOctets (Span.of v).start = .some o := octet_eq ho
  rw [isArrayAt, hoctet]
  split
  · rw [← hopens]
    exact Part.map_some _ _
  · next hkind =>
      have hnot : opensArray v.raw = false := by
        rw [Bool.eq_false_iff]
        intro harray
        exact hkind (beq_iff_eq.2 (kind_of_opensArray h harray))
      rw [hnot]
      rfl

/-- The frame of an array that stands in the text gives its elements. -/
theorem yields_array (h : v.IsIn src) (harray : opensArray v.raw = true) :
    (Frame.array true (v.offset + 1) 0).Yields src v.children := by
  obtain ⟨o, ho, -, hopens⟩ := exists_octet_of_isIn h
  rw [harray, beq_iff_eq] at hopens
  subst hopens
  have hopen : Frame.open? src.asOctets (.of v) = some (.array true (v.offset + 1) 0) := by
    have hoctet : src.asOctets[(Span.of v).start]? = some '[' := ho
    rw [Frame.open?, hoctet]
    rfl
  rcases open?_spec h with ⟨hnone, -⟩ | ⟨frame, hframe, hyields⟩
  · rw [hopen] at hnone
    cases hnone
  · rw [hopen] at hframe
    obtain rfl := Option.some.inj hframe
    exact hyields

/-- The texts of the values in an array are those of its elements. -/
theorem map_raw_children (harray : opensArray v.raw = true) :
    v.children.map (·.2.raw) = (Json.elements v.raw).map (·.raw) := by
  have hobject : opensObject v.raw = false := by
    obtain ⟨run, hrun⟩ := List.head?_eq_some_iff.1 (beq_iff_eq.1 harray)
    rw [hrun]
    rfl
  rw [Occurrence.children, hobject, if_neg Bool.false_ne_true]
  refine List.ext_getElem? fun i => ?_
  rw [List.getElem?_map, List.getElem?_mapIdx, List.getElem?_map, Option.map_map]
  rfl

end Arrays

/-! ## What a frame gives -/

/-- What a value gives when so many levels of arrays are left to be entered. -/
def given (levels : Nat) (raw : Text) : List Text :=
  match levels with
  | 0 => [raw]
  | levels + 1 => if opensArray raw then flattened levels raw else [raw]

theorem flattened_eq (levels : Nat) (array : Text) :
    flattened levels array = ((Json.elements array).map (·.raw)).flatMap (given levels) := by
  cases levels with
  | zero =>
      rw [flattened]
      exact (List.flatMap_singleton' _).symm
  | succ levels =>
      rw [flattened, List.flatMap_map]
      rfl

/-- The levels of arrays that are entered in an array. -/
def levelsBelow (deep : Bool) : Nat :=
  if deep then defaultDepth - 1 else 1

section Flatten

variable {src : Text} {deep : Bool} {stack : List Frame} {levels : Nat}

/-- There is a level left exactly when the frames on the stack allow for one more. -/
theorem enters_iff (hlevels : levelsBelow deep = stack.length + levels) (frame : Frame) :
    ((deep || (frame :: stack).length == 1) && decide ((frame :: stack).length < defaultDepth)) =
      decide (levels ≠ 0) := by
  have hdepth : defaultDepth = 256 := rfl
  rw [levelsBelow, hdepth] at hlevels
  cases deep with
  | true =>
      rw [if_pos rfl] at hlevels
      rw [Bool.true_or, Bool.true_and, decide_eq_decide, hdepth, List.length_cons]
      omega
  | false =>
      rw [if_neg Bool.false_ne_true] at hlevels
      rw [Bool.false_or, Bool.eq_iff_iff, Bool.and_eq_true, beq_iff_eq, decide_eq_true_iff,
        decide_eq_true_iff, hdepth, List.length_cons]
      omega

/-- An element is entered if it is an array and a level is left, or else put behind the others. -/
theorem flattenRound_item (hlevels : levelsBelow deep = stack.length + levels)
    {frame next : Frame} {step : Step} {v : Occurrence} (hv : v.IsIn src)
    (hnext : frame.next? src = .some (some (step, .of v, next))) (found : List Text) :
    flattenRound src deep (frame :: stack, found) =
      .some (.inr (if opensArray v.raw && decide (levels ≠ 0) then
        (.array true (v.offset + 1) 0 :: next :: stack, found)
      else (next :: stack, found ++ [v.raw]))) := by
  rw [flattenRound, hnext, some_bind]
  dsimp only
  rw [isArrayAt_eq hv, some_bind, Bool.and_assoc, enters_iff hlevels, slice_of hv.1]
  split
  · rfl
  · exact some_bind _ _

/-- One element of the frame on top: what it gives is put behind what there is. -/
theorem flatten_item (hlevels : levelsBelow deep = stack.length + levels) {frame next : Frame}
    {step : Step} {v : Occurrence} (hv : v.IsIn src)
    (hnext : frame.next? src = .some (some (step, .of v, next))) (found : List Text)
    (hinside : ∀ j, levels = j + 1 → opensArray v.raw = true →
      loop (flattenRound src deep) (.array true (v.offset + 1) 0 :: next :: stack, found) =
        loop (flattenRound src deep) (next :: stack, found ++ flattened j v.raw)) :
    loop (flattenRound src deep) (frame :: stack, found) =
      loop (flattenRound src deep) (next :: stack, found ++ given levels v.raw) := by
  rw [loop_next (flattenRound_item hlevels hv hnext found)]
  cases levels with
  | zero => simp [given]
  | succ j =>
      rw [given]
      cases harray : opensArray v.raw with
      | false => rfl
      | true => exact hinside j rfl harray

/-- The frame on top is worked off before the frames below, its elements in order. -/
theorem flatten_frame (hlevels : levelsBelow deep = stack.length + levels) {frame : Frame}
    {items : List (Step × Occurrence)} (hframe : frame.Yields src items)
    (hitems : ∀ item ∈ items, item.2.IsIn src) (found : List Text) :
    loop (flattenRound src deep) (frame :: stack, found) =
      loop (flattenRound src deep)
        (stack, found ++ (items.map (·.2.raw)).flatMap (given levels)) := by
  -- `levels` counts the frames that may still be added; within it, the items are gone through.
  induction levels using Nat.strong_induction_on generalizing stack frame items found with
  | _ levels ih =>
    induction hframe generalizing found with
    | done hdone =>
        refine loop_next ?_
        rw [flattenRound, hdone, some_bind, List.map_nil, List.flatMap_nil, List.append_nil]
        rfl
    | @item frame next step v items hnext _ ihitems =>
        have hv := hitems (step, v) List.mem_cons_self
        have hrest := fun i hi => hitems i (List.mem_cons_of_mem (step, v) hi)
        rw [List.map_cons, List.flatMap_cons, ← List.append_assoc, flatten_item hlevels hv hnext]
        · exact ihitems hrest _
        · rintro j rfl harray
          have hbelow : levelsBelow deep = (next :: stack).length + j := by
            rw [hlevels, List.length_cons]
            omega
          rw [flattened_eq, ← map_raw_children harray]
          exact ih j (Nat.lt_succ_self j) hbelow (yields_array hv harray)
            (fun child hchild => hv.of_mem_children hchild) found

end Flatten

/-! ## Documents -/

/-- Flattening with a stack gives, on every text, what it gives by recursion. -/
theorem flatten_eq (src : Text) (deep : Bool) :
    flatten src deep = .some
      (if (Selection.document src).isArray then
        composeArray (flattened (levelsBelow deep) (Selection.document src).raw)
      else src) := by
  rw [flatten, firstValue_eq, some_bind]
  cases hroot : firstValue? src with
  | none =>
      have hmissing : Selection.document src = .missing := by rw [Selection.document, hroot]
      rw [hmissing]
      rfl
  | some root =>
      have hdocument : Selection.document src = .ofOccurrence (some 0) root := by
        rw [Selection.document, hroot]
      have hv : root.IsIn src := isIn_of_firstValue? hroot
      obtain ⟨o, ho, -, hopens⟩ := exists_octet_of_isIn hv
      have hoctet : octet src.asOctets (Span.of root).start = .some o := octet_eq ho
      dsimp only [Option.map_some]
      rw [hoctet, some_bind, hopens, hdocument, isArray_ofOccurrence hv]
      cases harray : opensArray root.raw with
      | false => rfl
      | true =>
          have hframe : loop (flattenRound src deep) ([.array true (root.offset + 1) 0], []) =
              .some (flattened (levelsBelow deep) root.raw) := by
            rw [flatten_frame (Nat.zero_add _).symm (yields_array hv harray)
                (fun child hchild => hv.of_mem_children hchild) [], loop_break rfl,
              map_raw_children harray, ← flattened_eq]
            rfl
          rw [if_pos rfl, if_pos rfl]
          show (loop (flattenRound src deep) ([.array true (root.offset + 1) 0], []) >>= _) = _
          rw [hframe, some_bind]
          rfl

end DotPath.Indexed
