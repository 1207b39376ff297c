import DotPath.Json.Stream
import DotPath.Json.Walk
import DotPath.Proofs.Json.Items

/-!
# Walks and streams report what stands in the text

A walk goes into containers inside containers and adds up the offsets on the way; a stream goes on
from one value to the next. Both report occurrences, and these stand in the text that the walk or
the stream began with. What a walk visits is the value it begins with, and what is inside the values
that it visits and that are not too deep.

## Main results

* `isIn_of_mem_walk`: the values of a walk.
* `mem_walkFrom_of_parent`, `exists_parent_of_mem_walkFrom`: what is visited inside another value.
* `isIn_of_mem_stream`: the values of a stream.
-/

namespace DotPath.Json

/-- An occurrence in a value of the text is an occurrence in the text. -/
theorem Occurrence.IsIn.shift {t : Text} {v w : Occurrence} (hv : v.IsIn t) (hw : w.IsIn v.raw) :
    (w.shift v.offset).IsIn t := by
  obtain ⟨hstands, -⟩ := hv
  obtain ⟨hstands', hfills⟩ := hw
  exact ⟨hstands.trans hstands', hfills⟩

/-! ## Walks -/

theorem Occurrence.IsIn.of_mem_children {t : Text} {v child : Occurrence} {step : Step}
    (hv : v.IsIn t) (h : (step, child) ∈ v.children) : child.IsIn t := by
  unfold Occurrence.children at h
  split at h
  · obtain ⟨m, hm, heq⟩ := List.mem_map.1 h
    cases heq
    exact hv.shift (isIn_of_mem_members hm)
  · obtain ⟨i, hi, heq⟩ := List.mem_mapIdx.1 h
    cases heq
    exact hv.shift (isIn_of_mem_elements (List.getElem_mem hi))

theorem Occurrence.IsIn.of_mem_walkFrom {t : Text} {depth : Nat} {trail : Trail} {v : Occurrence}
    {visit : Visit} (hv : v.IsIn t) (h : visit ∈ walkFrom depth trail v) : visit.value.IsIn t := by
  induction depth generalizing trail v with
  | zero =>
      obtain rfl := List.mem_singleton.1 h
      exact hv
  | succ depth ih =>
      rcases List.mem_cons.1 h with rfl | h
      · exact hv
      · obtain ⟨⟨step, child⟩, hchild, h⟩ := List.mem_flatMap.1 h
        exact ih (hv.of_mem_children hchild) h

/-- Every value of a walk stands in the text that is walked through. -/
theorem isIn_of_mem_walk {t : Text} {depth : Nat} {visit : Visit} (h : visit ∈ walk depth t) :
    visit.value.IsIn t := by
  unfold walk at h
  split at h
  · next root hroot => exact (isIn_of_firstValue? hroot).of_mem_walkFrom h
  · cases h

/-! ### Values and what is inside them -/

theorem mem_walkFrom_self (depth : Nat) (trail : Trail) (v : Occurrence) :
    ⟨trail, v⟩ ∈ walkFrom depth trail v := by
  cases depth with
  | zero => exact List.mem_cons_self
  | succ depth => exact List.mem_cons_self

theorem mem_walkFrom_of_child {depth : Nat} {trail : Trail} {v child : Occurrence} {step : Step}
    {w : Visit} (hchild : (step, child) ∈ v.children)
    (hw : w ∈ walkFrom depth (trail ++ [step]) child) : w ∈ walkFrom (depth + 1) trail v :=
  List.mem_cons_of_mem _ (List.mem_flatMap.2 ⟨(step, child), hchild, hw⟩)

/-- Above the depth of the walk, what is inside a value that it visits is visited as well. -/
theorem mem_walkFrom_of_parent {depth : Nat} {trail : Trail} {v child : Occurrence} {step : Step}
    {u : Visit} (hu : u ∈ walkFrom depth trail v) (hlength : u.trail.length < trail.length + depth)
    (hchild : (step, child) ∈ u.value.children) :
    ⟨u.trail ++ [step], child⟩ ∈ walkFrom depth trail v := by
  induction depth generalizing trail v with
  | zero =>
      rw [List.mem_singleton.1 hu] at hlength
      exact absurd hlength (Nat.lt_irrefl _)
  | succ depth ih =>
      rcases List.mem_cons.1 hu with rfl | hu
      · exact mem_walkFrom_of_child hchild (mem_walkFrom_self depth _ child)
      · obtain ⟨⟨step', child'⟩, hchild', hu⟩ := List.mem_flatMap.1 hu
        refine mem_walkFrom_of_child hchild' (ih hu ?_)
        rw [List.length_append, List.length_singleton]
        omega

/-- Everything that a walk visits, but for the value that it begins with, is inside another. -/
theorem exists_parent_of_mem_walkFrom {depth : Nat} {trail : Trail} {v : Occurrence} {w : Visit}
    (hw : w ∈ walkFrom depth trail v) : w = ⟨trail, v⟩ ∨
      ∃ u ∈ walkFrom depth trail v, u.trail.length < trail.length + depth ∧
        ∃ step child, (step, child) ∈ u.value.children ∧ w = ⟨u.trail ++ [step], child⟩ := by
  induction depth generalizing trail v with
  | zero => exact .inl (List.mem_singleton.1 hw)
  | succ depth ih =>
      rcases List.mem_cons.1 hw with rfl | hw
      · exact .inl rfl
      · obtain ⟨⟨step, child⟩, hchild, hw⟩ := List.mem_flatMap.1 hw
        rcases ih hw with rfl | ⟨u, hu, hlength, hinside⟩
        · exact .inr ⟨⟨trail, v⟩, mem_walkFrom_self _ trail v, by simp, step, child, hchild, rfl⟩
        · rw [List.length_append, List.length_singleton] at hlength
          exact .inr ⟨u, mem_walkFrom_of_child hchild hu, by omega, hinside⟩

/-! ## Streams -/

theorem streamFrom_of_value {p q : Place} {v : Occurrence}
    (h : p.skipSpace.value? = some (v, q)) : streamFrom p = v :: streamFrom q := by
  rw [streamFrom]
  split
  · next hv =>
      rw [h] at hv
      cases hv
      rfl
  · next hv =>
      rw [h] at hv
      cases hv

theorem liesIn_of_nextLine? {t : Text} {p q : Place} (hp : p.LiesIn t) (h : nextLine? p = some q) :
    q.LiesIn t :=
  (hp.skip _).expect? h

theorem isIn_of_mem_streamFrom {t : Text} {p : Place} {v : Occurrence} (hp : p.LiesIn t)
    (h : v ∈ streamFrom p) : v.IsIn t := by
  fun_induction streamFrom p with
  | case1 p w q hw ih =>
      rcases List.mem_cons.1 h with rfl | h
      · exact isIn_of_value? hp.skipSpace hw
      · exact ih (hp.skipSpace.value? hw).2 h
  | case2 p _ q hq ih => exact ih (liesIn_of_nextLine? hp.skipSpace hq) h
  | case3 => cases h

/-- Every value of a stream stands in the text of the stream. -/
theorem isIn_of_mem_stream {t : Text} {v : Occurrence} (h : v ∈ stream t) : v.IsIn t :=
  isIn_of_mem_streamFrom (Place.start_liesIn t) h

end DotPath.Json
