import DotPath.Aggregate
import DotPath.Proofs.Evaluator.Fusion

/-!
# Distinct elements

Elements are told apart by their texts without the space between tokens. The filter goes over the
elements once and keeps those whose key has not occurred before. What it keeps is described by the
keys that have been seen so far: nothing that it keeps has one of them, and everything that it
leaves out has one.

The elements that are kept may be put into an array and looked over once more. For this their texts
are joined, and the array is scanned for them again. It holds exactly the values that were put into
it, malformed ones included, since each of them is one value from its first character to its last.
All keys are different by then, so that all values are kept.

## Main results

* `firstOfEach_eq_filter`: the elements that are kept, by their positions.
* `exists_find?_of_mem`: what is left out has the key of something that is kept.
* `distinct_keeps_first`: all of this for the distinct elements, and once more for their array.
-/

namespace DotPath.Aggregate

open Json Selection

/-! ## The first of each key -/

section FirstOfEach

variable {key : Selection → Text} {seen : List Text} {es : List Selection}

/-- Elements with their keys. -/
def withKeys (key : Selection → Text) (es : List Selection) : List (Text × Selection) :=
  es.map fun e => (key e, e)

theorem firstOfEach_cons (e : Selection) :
    firstOfEach seen (withKeys key (e :: es)) =
      if key e ∈ seen then firstOfEach seen (withKeys key es)
      else e :: firstOfEach (key e :: seen) (withKeys key es) := by
  rw [withKeys, List.map_cons, firstOfEach]
  simp only [List.contains_iff_mem]
  rfl

theorem firstOfEach_sublist : (firstOfEach seen (withKeys key es)).Sublist es := by
  induction es generalizing seen with
  | nil => exact List.Sublist.refl []
  | cons e rest ih =>
      rw [firstOfEach_cons]
      split
      · exact ih.cons e
      · exact ih.cons_cons e

/-- Nothing that is kept has a key that was seen before. -/
theorem key_not_mem_seen : ∀ e ∈ firstOfEach seen (withKeys key es), key e ∉ seen := by
  induction es generalizing seen with
  | nil => nofun
  | cons e rest ih =>
      rw [firstOfEach_cons]
      split
      · exact ih
      · next hnew =>
          refine List.forall_mem_cons.2 ⟨hnew, fun d hd hseen => ?_⟩
          exact ih d hd (List.mem_cons_of_mem (key e) hseen)

theorem nodup_map_firstOfEach : ((firstOfEach seen (withKeys key es)).map key).Nodup := by
  induction es generalizing seen with
  | nil => exact List.nodup_nil
  | cons e rest ih =>
      rw [firstOfEach_cons]
      split
      · exact ih
      · refine List.nodup_cons.2 ⟨fun hmem => ?_, ih⟩
        obtain ⟨d, hd, hkey⟩ := List.mem_map.1 hmem
        exact key_not_mem_seen d hd (hkey ▸ List.mem_cons_self)

/-- What has a new key has the key of something that is kept, which is the first with the key. -/
theorem exists_find?_of_mem {e : Selection} (he : e ∈ es) (hnew : key e ∉ seen) :
    ∃ d ∈ firstOfEach seen (withKeys key es), es.find? (fun x => key x == key e) = some d := by
  induction es generalizing seen with
  | nil => cases he
  | cons a rest ih =>
      rw [firstOfEach_cons]
      by_cases hsame : key a = key e
      · rw [if_neg (hsame ▸ hnew)]
        exact ⟨a, List.mem_cons_self, List.find?_cons_of_pos (by simpa using hsame)⟩
      · have hrest : e ∈ rest := by
          rcases List.mem_cons.1 he with rfl | hrest
          · exact absurd rfl hsame
          · exact hrest
        rw [List.find?_cons_of_neg (by simpa using hsame)]
        split
        · exact ih hrest hnew
        · have hnew' : key e ∉ key a :: seen := by
            rw [List.mem_cons, not_or]
            exact ⟨fun heq => hsame heq.symm, hnew⟩
          obtain ⟨d, hd, hfind⟩ := ih hrest hnew'
          exact ⟨d, List.mem_cons_of_mem a hd, hfind⟩

/--
What is kept are the elements at the positions before which their key does not occur. `before` are
the elements that have been gone over already.
-/
theorem firstOfEach_eq_filter (before : List Selection)
    (hseen : ∀ k, k ∈ seen ↔ k ∈ before.map key) :
    firstOfEach seen (withKeys key es) =
      ((es.zipIdx before.length).filter fun e =>
        key e.1 ∉ ((before ++ es).take e.2).map key).map (·.1) := by
  induction es generalizing seen before with
  | nil => rfl
  | cons e rest ih =>
      have hkept : key e ∉ ((before ++ e :: rest).take before.length).map key ↔ key e ∉ seen := by
        rw [List.take_left, hseen]
      have hrest : ∀ seen', (∀ k, k ∈ seen' ↔ k ∈ (before ++ [e]).map key) →
          firstOfEach seen' (withKeys key rest) =
            ((rest.zipIdx (before.length + 1)).filter fun d =>
              key d.1 ∉ ((before ++ e :: rest).take d.2).map key).map (·.1) := by
        intro seen' hseen'
        have := ih (before ++ [e]) hseen'
        rwa [List.length_append, List.length_singleton, List.append_assoc] at this
      rw [firstOfEach_cons, List.zipIdx_cons, List.filter_cons]
      simp only [decide_eq_true_eq, hkept]
      by_cases hmem : key e ∈ seen
      · rw [if_pos hmem, if_neg (not_not.2 hmem)]
        refine hrest seen fun k => ?_
        rw [List.map_append, List.mem_append, ← hseen]
        constructor
        · exact .inl
        · rintro (hk | hk)
          · exact hk
          · rw [List.mem_singleton.1 hk]
            exact hmem
      · rw [if_neg hmem, if_pos hmem, List.map_cons]
        refine congrArg (e :: ·) (hrest _ fun k => ?_)
        rw [List.map_append, List.mem_append, ← hseen, List.mem_cons, or_comm]
        simp

/-- Where all keys are different and new, everything is kept. -/
theorem firstOfEach_eq_self (hnodup : (es.map key).Nodup) (hnew : ∀ e ∈ es, key e ∉ seen) :
    firstOfEach seen (withKeys key es) = es := by
  induction es generalizing seen with
  | nil => rfl
  | cons e rest ih =>
      obtain ⟨he, hrest⟩ := List.forall_mem_cons.1 hnew
      obtain ⟨hother, hnodup⟩ := List.nodup_cons.1 hnodup
      rw [firstOfEach_cons, if_neg he, ih hnodup]
      intro d hd
      rw [List.mem_cons, not_or]
      exact ⟨fun heq => hother (List.mem_map.2 ⟨d, hd, heq⟩), hrest d hd⟩

end FirstOfEach

/-! ## Elements -/

theorem fills_of_mem_elements (env : Environment) (json path : Text) :
    ∀ e ∈ elements env json path, Fills e.kind e.raw := by
  refine Located.fills_of_mem_array ?_
  split
  · exact located_document json
  · exact env.shared.get_located json path

/-- An array of values, taken for a document, has the same texts as elements. -/
theorem raws_elements_composeArray (env : Environment) {found : List Selection}
    (h : ∀ e ∈ found, Fills e.kind e.raw) :
    (elements env (composeArray (found.map (·.raw))) []).map (·.raw) = found.map (·.raw) := by
  have harray : Located (gather found) := .inr (fills_composeArray h)
  have hscan : found.map (·.raw) = (gather found).array.map (·.raw) :=
    map_eq_of_forall₂ ((array_gather h).imp fun _ _ halike => halike.raw)
  have hagain : (document (gather found).raw).array.map (·.raw) =
      (gather found).array.map (·.raw) :=
    map_eq_of_forall₂ (harray.alike_document.array.imp fun _ _ halike => halike.raw)
  show (document (gather found).raw).array.map (·.raw) = _
  rw [hagain, hscan]

/--
The distinct elements are the elements before which no element has the same text, up to the space
between tokens. So they are elements in their order, no two of them have the same text, and every
element has the text of one of them, which is the first element with the text. The array of their
texts, taken for a document, has the same texts as distinct elements, in the same order. The
document may be malformed, and the path may lead to a value that is no array, or nowhere.
-/
theorem distinct_keeps_first (env : Environment) (json path : Text) :
    distinct env json path =
        ((elements env json path).zipIdx.filter fun e =>
          minify e.1.raw ∉ ((elements env json path).take e.2).map (minify ·.raw)).map (·.1) ∧
      (distinct env json path).Sublist (elements env json path) ∧
      ((distinct env json path).map (minify ·.raw)).Nodup ∧
      (∀ e ∈ elements env json path, ∃ d ∈ distinct env json path,
        minify d.raw = minify e.raw ∧
          (elements env json path).find? (minify ·.raw == minify e.raw) = some d) ∧
      (distinct env (composeArray ((distinct env json path).map (·.raw))) []).map (·.raw) =
        (distinct env json path).map (·.raw) := by
  have hsublist : (distinct env json path).Sublist (elements env json path) :=
    firstOfEach_sublist
  have hnodup : ((distinct env json path).map (minify ·.raw)).Nodup := nodup_map_firstOfEach
  refine ⟨firstOfEach_eq_filter [] (fun k => Iff.rfl), hsublist, hnodup, fun e he => ?_, ?_⟩
  · obtain ⟨d, hd, hfind⟩ : ∃ d ∈ distinct env json path,
        (elements env json path).find? (minify ·.raw == minify e.raw) = some d :=
      exists_find?_of_mem he List.not_mem_nil
    have hsame := List.find?_some hfind
    exact ⟨d, hd, beq_iff_eq.1 hsame, hfind⟩
  · have hraws := raws_elements_composeArray env fun e he =>
      fills_of_mem_elements env json path e (hsublist.subset he)
    have hkeys : ((elements env (composeArray ((distinct env json path).map (·.raw))) []).map
        (minify ·.raw)).Nodup := by
      have htexts : ∀ es : List Selection,
          es.map (minify ·.raw) = (es.map (·.raw)).map minify := by
        intro es
        rw [List.map_map]
        rfl
      rw [htexts, hraws, ← htexts]
      exact hnodup
    have hself : distinct env (composeArray ((distinct env json path).map (·.raw))) [] = _ :=
      firstOfEach_eq_self hkeys fun e _ => List.not_mem_nil
    rw [hself, hraws]

end DotPath.Aggregate
