import DotPath.Proofs.Evaluator.Alike

/-!
# Following a path in a text that stands further on

A selection may be taken from a text that begins further on in another text. Its kind and its text
stay the same, and all its offsets grow by the octets that stand before. A path followed from there
leads to the same selection as before, further on by the same octets: the evaluator adds to offsets,
but never looks at them.

## Main results

* `Evaluator.resolve_shift`: a path from a selection that stands further on.
-/

namespace DotPath

open Json

namespace Selection

/-- The selection in a text with `k` more octets in front. -/
def shift (s : Selection) (k : Nat) : Selection :=
  { s with index := s.index.map (k + ·), indexes := s.indexes.map (k + ·) }

variable (k : Nat)

theorem shift_alike (s : Selection) : (s.shift k).Alike s :=
  ⟨rfl, rfl⟩

@[simp] theorem raw_shift (s : Selection) : (s.shift k).raw = s.raw :=
  rfl

@[simp] theorem isPresent_shift (s : Selection) : (s.shift k).isPresent = s.isPresent :=
  rfl

@[simp] theorem isArray_shift (s : Selection) : (s.shift k).isArray = s.isArray :=
  rfl

theorem base_shift (s : Selection) : (s.shift k).base = s.base.map (k + ·) := by
  unfold base shift
  dsimp only
  split
  · rfl
  · rfl

theorem ofOccurrence_shift (base : Option Nat) (v : Occurrence) :
    ofOccurrence (base.map (k + ·)) v = (ofOccurrence base v).shift k := by
  unfold ofOccurrence shift
  cases base with
  | none => rfl
  | some b =>
      simp only [Option.map_some, List.map_nil]
      rw [Nat.add_assoc]

/-- It is the same whether the value stands further on or the text that it is found in. -/
theorem ofOccurrence_shift_value (b : Nat) (v : Occurrence) :
    ofOccurrence (some b) (v.shift k) = (ofOccurrence (some b) v).shift k := by
  have hindex : b + (k + v.offset) = k + (b + v.offset) := by
    omega
  unfold ofOccurrence shift Occurrence.shift
  simp only [Option.map_some, List.map_nil]
  rw [hindex]

theorem derivedFrom_shift (s r : Selection) :
    (s.shift k).derivedFrom (r.shift k) = (s.derivedFrom r).shift k := by
  unfold derivedFrom
  show (if s.isView then r.shift k else (r.shift k).detach) = _
  split
  · rfl
  · rfl

/-- A text made by a segment has no offset. -/
@[simp] theorem shift_ofText (t : Text) : (ofText t).shift k = ofText t := by
  unfold ofText
  split
  · rfl
  · rfl

/-! ## What segments look at -/

/-- Views of values that are found in the text of a selection. -/
theorem map_ofOccurrence_shift (s : Selection) (found : List Occurrence) :
    found.map (ofOccurrence (s.shift k).base) =
      (found.map (ofOccurrence s.base)).map (·.shift k) := by
  rw [base_shift, List.map_map]
  exact List.map_congr_left fun v _ => ofOccurrence_shift k s.base v

theorem elementViews_shift (s : Selection) :
    (s.shift k).elementViews = s.elementViews.map (·.shift k) :=
  map_ofOccurrence_shift k s (elements s.raw)

theorem streamViews_shift (s : Selection) :
    (s.shift k).streamViews = s.streamViews.map (·.shift k) :=
  map_ofOccurrence_shift k s (stream s.raw)

theorem array_shift (s : Selection) : (s.shift k).array = s.array.map (·.shift k) := by
  unfold array
  rw [isPresent_shift, isArray_shift, raw_shift]
  split
  · rfl
  · split
    · rfl
    · rw [List.map_map]
      refine List.map_congr_left fun v _ => ?_
      rw [base_shift, ofOccurrence_shift, derivedFrom_shift]
      rfl

theorem descendants_shift (s : Selection) (depth : Nat) (pattern : Text) :
    (s.shift k).descendants depth pattern =
      (s.descendants depth pattern).map (·.shift k) := by
  unfold descendants
  rw [List.map_filterMap, raw_shift, base_shift]
  refine List.filterMap_congr fun visit _ => ?_
  split
  · split
    · exact congrArg some (ofOccurrence_shift k s.base visit.value)
    · rfl
  · rfl

theorem field_shift (s : Selection) (name : Text) :
    (s.shift k).field name = (s.field name).shift k := by
  unfold field
  rw [raw_shift, base_shift]
  split
  · exact ofOccurrence_shift k s.base _
  · rfl

theorem getD_shift (o : Option Selection) :
    (o.map (·.shift k)).getD missing = (o.getD missing).shift k := by
  cases o with
  | none => rfl
  | some s => rfl

theorem item_shift (s : Selection) (n : Nat) : (s.shift k).item n = (s.item n).shift k := by
  unfold item
  rw [raw_shift, elementViews_shift, field_shift]
  split
  · rw [List.getD_eq_getElem?_getD, List.getElem?_map, getD_shift, List.getD_eq_getElem?_getD]
  · rfl

theorem firstLike_shift (s : Selection) (pattern : Text) :
    (s.shift k).firstLike pattern = (s.firstLike pattern).shift k := by
  unfold firstLike
  rw [raw_shift, base_shift, elementViews_shift]
  split
  · split
    · exact ofOccurrence_shift k s.base _
    · rfl
  · rw [List.find?_map]
    exact getD_shift k _

theorem count_shift (s : Selection) : (s.shift k).count = s.count.shift k := by
  unfold count
  rw [raw_shift]
  split
  · rfl
  · split
    · rfl
    · rfl

/-! ## What segments make -/

theorem present_shift (found : List Selection) :
    present (found.map (·.shift k)) = (present found).map (·.shift k) := by
  rw [present, present, List.filter_map]
  rfl

/-- The array of values that stand further on has their offsets, and the same text. -/
theorem gather_shift (found : List Selection) :
    gather (found.map (·.shift k)) = (gather found).shift k := by
  have hraw : (found.map (·.shift k)).map (·.raw) = found.map (·.raw) := by
    rw [List.map_map]
    rfl
  have hindex : (found.map (·.shift k)).filterMap (·.index) =
      (found.filterMap (·.index)).map (k + ·) := by
    rw [List.filterMap_map, List.map_filterMap]
    rfl
  rw [gather, hraw, hindex]
  rfl

/-- If each result stands further on, so does the array of the results. -/
theorem gather_present_shift {f : Selection → Selection}
    (hf : ∀ e, f (e.shift k) = (f e).shift k) (found : List Selection) :
    gather (present ((found.map (·.shift k)).map f)) =
      (gather (present (found.map f))).shift k := by
  have hmap : (found.map (·.shift k)).map f = (found.map f).map (·.shift k) := by
    rw [List.map_map, List.map_map]
    exact List.map_congr_left fun e _ => hf e
  rw [hmap, present_shift, gather_shift]

end Selection

namespace Evaluator

open Selection

theorem applyTransformer_shift (ev : Evaluator) (s : Selection) (k : Nat) (name : Text)
    (argument : Option Text) (source : Text) :
    ev.applyTransformer (s.shift k) name argument source =
      (ev.applyTransformer s name argument source).shift k := by
  unfold applyTransformer
  split
  · split
    · rw [raw_shift, shift_ofText]
    · rw [base_shift]
      rfl
  · exact field_shift k s source

mutual

/-- A path leads to the same, further on by the same octets. -/
theorem resolve_shift (ev : Evaluator) (k : Nat) :
    ∀ (path : Path) (s : Selection), ev.resolve (s.shift k) path = (ev.resolve s path).shift k
  | [], s => by
      rw [resolve, resolve]
  | segment :: rest, s => by
      rw [resolve, resolve, isPresent_shift]
      split
      · rfl
      · rw [step_shift ev k segment s, resolve_shift ev k rest]

/-- So does every segment. -/
theorem step_shift (ev : Evaluator) (k : Nat) :
    ∀ (segment : Segment) (s : Selection),
      ev.step (s.shift k) segment = (ev.step s segment).shift k
  | .field name, s => by
      rw [step, step, field_shift, derivedFrom_shift]
  | .index n, s => by
      rw [step, step, item_shift, derivedFrom_shift]
  | .wildcard pattern, s => by
      rw [step, step, firstLike_shift, derivedFrom_shift]
  | .length, s => by
      rw [step, step, count_shift]
  | .collect each, s => by
      rw [step, step, isArray_shift, array_shift]
      split
      · exact gather_present_shift k (fun e => resolve_shift ev k each e) s.array
      · rfl
  | .query condition all each, s => by
      -- A condition does not ask where an element stands.
      have hfound : (s.elementViews.map (·.shift k)).filter (fun e => holds ev e condition) =
          (s.elementViews.filter fun e => holds ev e condition).map (·.shift k) := by
        rw [List.filter_map]
        congr 1
        exact List.filter_congr fun e _ => ev.holds_of_alike condition (shift_alike k e)
      rw [step, step, raw_shift, elementViews_shift, hfound]
      split
      · rfl
      · dsimp only
        split
        · exact gather_present_shift k (fun e => resolve_shift ev k each e) _
        · rw [List.headD_eq_head?_getD, List.head?_map, getD_shift, derivedFrom_shift,
            List.headD_eq_head?_getD]
  | .select asArray entries, s => by
      have hentries := ev.resolveEntries_alike entries (shift_alike k s)
      rw [step, step, assemble_eq_of_alike hentries, assemble, shift_ofText]
  | .literal json, s => by
      rw [step, step, shift_ofText]
  | .transform name argument source, s => by
      rw [step, step, applyTransformer_shift, derivedFrom_shift]
  | .descend pattern each, s => by
      rw [step, step, descendants_shift]
      exact gather_present_shift k (fun e => resolve_shift ev k each e) _
  | .lines each, s => by
      rw [step, step, streamViews_shift]
      exact gather_present_shift k (fun e => resolve_shift ev k each e) _

end

end Evaluator

end DotPath
