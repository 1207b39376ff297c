import DotPath.Environment
import DotPath.Proofs.Evaluator.Alike
import DotPath.Proofs.Evaluator.Descent
import DotPath.Proofs.Evaluator.Gathered
import DotPath.Proofs.Path.Embedded
import DotPath.Proofs.Registry
import DotPath.Search

/-!
# Descents from the root, as searches and as paths

A descent from the root is a search of its own, and it is also a path: the key behind the built-in
transformer that leaves a text as it is. The search walks through the whole text, and the path walks
through a copy of the root. A walk adds to offsets, but never looks at them, so that both visit the
same values, and gather the same array of them.

They part where the text holds no value. The search walks through nothing and gathers the empty
array. The path has nothing to begin with and selects nothing.

## Main results

* `walk_eq_map_shift`: the walk through a text, from the walk through its first value.
* `compile_rootDescent`: the path of a descent from the root.
* `descendAll_agrees_iff`: where the search and the path agree.
-/

namespace DotPath

open Json Selection

namespace Json

/-! ## Walks through a part of a text -/

/-- A value that is visited in a part of a text, as a value of the whole text. -/
def Visit.shift (visit : Visit) (octets : Nat) : Visit :=
  { visit with value := visit.value.shift octets }

theorem Occurrence.shift_shift (v : Occurrence) (j k : Nat) :
    (v.shift j).shift k = v.shift (k + j) := by
  simp only [shift, Nat.add_assoc]

theorem Occurrence.children_shift (v : Occurrence) (k : Nat) :
    (v.shift k).children = v.children.map fun (step, child) => (step, child.shift k) := by
  unfold children
  rw [show (v.shift k).raw = v.raw from rfl, show (v.shift k).offset = k + v.offset from rfl]
  split
  · rw [List.map_map]
    refine List.map_congr_left fun m _ => ?_
    exact congrArg (Step.key _, ·) (m.value.shift_shift v.offset k).symm
  · rw [List.mapIdx_eq_zipIdx_map, List.mapIdx_eq_zipIdx_map, List.map_map]
    refine List.map_congr_left fun (e, i) _ => ?_
    exact congrArg (Step.index i, ·) (e.shift_shift v.offset k).symm

/-- What a walk visits further on in a text is the same, with the same trails. -/
theorem walkFrom_shift (k depth : Nat) (trail : Trail) (v : Occurrence) :
    walkFrom depth trail (v.shift k) = (walkFrom depth trail v).map (·.shift k) := by
  induction depth generalizing trail v with
  | zero => rfl
  | succ depth ih =>
      rw [walkFrom, walkFrom, v.children_shift, List.flatMap_map, List.map_cons, List.map_flatMap]
      refine congrArg _ (List.flatMap_congr fun (step, child) _ => ?_)
      exact ih (trail ++ [step]) child

/-- A walk through a text is a walk through its first value, further on. -/
theorem walk_eq_map_shift {t : Text} {root : Occurrence} (h : firstValue? t = some root)
    (depth : Nat) : walk depth t = (walk depth root.raw).map (·.shift root.offset) := by
  have hroot := (isIn_of_firstValue? h).2.firstValue?
  rw [walk, walk, h, hroot]
  exact walkFrom_shift root.offset _ [] ⟨root.kind, 0, root.raw⟩

end Json

/-! ## From a text and from its first value -/

section FirstValue

variable {t : Text} {root : Occurrence} (h : firstValue? t = some root)

include h

theorem Selection.document_of_firstValue? : document t = ofOccurrence (some 0) root := by
  rw [document, h]

/-- From the whole text a descent selects what it selects from the first value. -/
theorem Selection.descendants_wholeText (depth : Nat) (pattern : Text) :
    (Evaluator.wholeText t).descendants depth pattern =
      (document t).descendants depth pattern := by
  have hraw : (document t).raw = root.raw := by
    rw [document_of_firstValue? h]
    rfl
  have hvalue : ∀ v : Occurrence,
      ofOccurrence (Evaluator.wholeText t).base (v.shift root.offset) =
        ofOccurrence (document t).base v := by
    intro v
    rw [document_of_firstValue? h, ← ofOccurrence_shift_offset]
    rfl
  rw [descendants, descendants, hraw, show (Evaluator.wholeText t).raw = t from rfl,
    walk_eq_map_shift h, List.filterMap_map]
  refine List.filterMap_congr fun visit _ => ?_
  simp only [Function.comp_apply, Visit.shift, hvalue]

theorem Evaluator.step_wholeText_descend (ev : Evaluator) (pattern : Text) (each : Path) :
    ev.step (wholeText t) (.descend pattern each) =
      ev.step (document t) (.descend pattern each) := by
  rw [step, step, descendants_wholeText h]

end FirstValue

/-- Where the text holds no value, a descent gathers nothing. -/
theorem Evaluator.step_wholeText_descend_of_none (ev : Evaluator) {t : Text}
    (h : firstValue? t = none) (pattern : Text) (each : Path) :
    ev.step (wholeText t) (.descend pattern each) = gather [] := by
  rw [step, descendants, show (wholeText t).raw = t from rfl, walk, h]
  rfl

/-! ## The path of a descent from the root -/

/-- The path of a descent from the root. -/
def rootDescent (key : Text) : Text :=
  "@this..".toList ++ key

/-- A key that is read as one plain component, to its end. -/
def IsOneComponent (key : Text) : Prop :=
  ∃ s k, readPlain (.start key) = .ok (s, ⟨k, []⟩)

variable {key : Text}

/-- No dot and no pipe brings such a key to an end, unless a backslash protects it. -/
theorem IsOneComponent.plainLength_eq (h : IsOneComponent key) :
    key ≠ [] ∧ plainLength key = key.length := by
  obtain ⟨s, k, hread⟩ := h
  have hpos : plainLength (Place.start key).rest ≠ 0 := by
    intro hzero
    rw [readPlain, hzero] at hread
    cases hread
  rw [readPlain_eq hpos, Except.ok.injEq, Prod.mk.injEq] at hread
  have hend : key.drop (plainLength key) = [] := congrArg Place.rest hread.2
  refine ⟨?_, Nat.le_antisymm (plainLength_le key) (List.drop_eq_nil_iff.1 hend)⟩
  rintro rfl
  exact hpos rfl

theorem readDescent_of_isOneComponent (h : IsOneComponent key) (nested : PathReader) (k : Nat) :
    readDescent nested ⟨k, key⟩ = .ok (.descend key [], (Place.mk k key).skip key.length) := by
  obtain ⟨hkey, hlength⟩ := h.plainLength_eq
  have hne : plainLength key ≠ 0 := by
    rw [hlength]
    exact fun hzero => hkey (List.length_eq_zero_iff.1 hzero)
  have hend : ((Place.mk k key).skip key.length).rest = [] := List.drop_length
  rw [readDescent_eq hne, hlength, hend, List.take_length]

/-- A transformer without an argument takes the characters of its name. -/
theorem readTransform_of_name {name t : Text} (hne : name ≠ [])
    (hname : ∀ c ∈ name, endsName c = false) (ht : ∀ c ∈ t.head?, isSeparator c = true)
    (k : Nat) :
    readTransform ⟨k, '@' :: (name ++ t)⟩ =
      .ok (.transform name none ('@' :: name), ⟨k + 1 + Text.byteLength name, t⟩) := by
  have hsign : (Place.mk k ('@' :: (name ++ t))).skip 1 = ⟨k + 1, name ++ t⟩ := rfl
  have hend : t.takeWhile (!endsName ·) = [] := by
    cases t with
    | nil => rfl
    | cons c t => exact List.takeWhile_cons_of_neg (by simp [endsName, ht c rfl])
  have htake : (name ++ t).takeWhile (!endsName ·) = name := by
    rw [List.takeWhile_append_of_pos (by simpa using hname), hend, List.append_nil]
  have hsource :
      ((Place.mk k ('@' :: (name ++ t))).upTo ⟨k + 1 + Text.byteLength name, t⟩).rest =
        '@' :: name := by
    have hlength : ('@' :: (name ++ t)).length - t.length = ('@' :: name).length := by
      simp only [List.length_cons, List.length_append]
      omega
    rw [Place.upTo, hlength]
    exact List.take_left
  rw [readTransform_eq (by rw [hsign]; exact htake) hne, hsign, Place.skip_append, hsource]
  split
  · next hcolon =>
      cases ht ':' (congrArg List.head? hcolon)
  · rfl

/-- The path applies the transformer and then descends. -/
theorem compile_rootDescent (h : IsOneComponent key) :
    Path.compile (rootDescent key) =
      .ok [.transform "this".toList none "@this".toList, .descend key []] := by
  have htransform : ∀ nested condition,
      readComponent nested condition (.start (rootDescent key)) =
        .ok (.transform "this".toList none "@this".toList, ⟨5, '.' :: '.' :: key⟩) := by
    intro nested condition
    have hname : ∀ c ∈ "this".toList, endsName c = false := by
      have hall : "this".toList.all (!endsName ·) = true := by decide
      simpa using hall
    have hread := @readTransform_of_name "this".toList ('.' :: '.' :: key) (by decide) hname
      (by rintro c ⟨⟩; rfl) 0
    rw [readComponent_cons (p := .start (rootDescent key)) rfl (by decide)]
    exact hread
  have hkey := readDescent_of_isOneComponent h (compileWithin maxNesting false) 7
  have hend : ((Place.mk 7 key).skip key.length).rest = [] := List.drop_length
  have hcompile : Path.compile (rootDescent key) =
      readComponents (compileWithin maxNesting false) (conditionWithin maxNesting)
        (.start (rootDescent key)) := compile_cons (by decide) _
  rw [hcompile, readComponents_of (htransform _ _),
    readRest_descent (p := ⟨5, '.' :: '.' :: key⟩) rfl hkey, readRest_nil hend]
  rfl

/-! ## The search and the path -/

/-- The value that a text begins with is the same in a text of its own. -/
theorem Selection.ofText_alike_document (t : Text) : (ofText t).Alike (document t) := by
  unfold ofText document
  split
  · exact ⟨rfl, rfl⟩
  · exact .refl _

namespace Environment

variable {env : Environment} {json key : Text}

/-- Unless an own transformer hides it, it leaves a text as it is. -/
theorem transformer?_this (h : env.registry.hasOwn "this".toList = false) :
    env.shared.transformer? "this".toList = some fun json _ => json := by
  have hown : env.registry.own.lookup "this".toList = none := by
    refine Option.eq_none_iff_forall_ne_some.2 fun transformer hsome => ?_
    rw [Registry.hasOwn_iff.2 ⟨transformer, hsome⟩] at h
    cases h
  have hfind : env.registry.find? "this".toList = some Transformer.unchanged := by
    rw [Registry.find?, hown]
    rfl
  show (env.registry.find? "this".toList).map _ = _
  rw [hfind]
  rfl

section This

variable (hon : env.transformers = true) (hthis : env.registry.hasOwn "this".toList = false)

include hon hthis

/-- The transformer makes a copy of a value that stands in a text. -/
theorem step_this_alike {s : Selection} (hs : Located s) (source : Text) :
    (env.shared.step s (.transform "this".toList none source)).Alike s := by
  have happly : env.shared.applyTransformer s "this".toList none source = ofText s.raw := by
    rw [Evaluator.applyTransformer, if_pos (show env.shared.options.transformers = true from hon),
      transformer?_this hthis]
  rw [Evaluator.step, happly]
  exact ((alike_derivedFrom s _).trans (ofText_alike_document s.raw)).trans hs.alike_document

/-- Where the text holds a value, the path gathers the same array as the search. -/
theorem get_rootDescent_alike (hkey : IsOneComponent key) {root : Occurrence}
    (hroot : firstValue? json = some root) :
    (env.get json (rootDescent key)).Alike (env.shared.descendAll json key) := by
  have hfills := (isIn_of_firstValue? hroot).2
  have hs : (document json).kind = root.kind ∧ (document json).raw = root.raw := by
    rw [document_of_firstValue? hroot]
    exact ⟨rfl, rfl⟩
  have hpresent : (document json).isPresent = true := by
    rw [isPresent, hs.2]
    simpa using hfills.ne_nil
  have hthere := step_this_alike hon hthis (.inr (by rwa [hs.1, hs.2])) "@this".toList
  have hget : env.get json (rootDescent key) =
      env.shared.step
        (env.shared.step (document json) (.transform "this".toList none "@this".toList))
        (.descend key []) := by
    rw [get, Evaluator.get, compile_rootDescent hkey]
    show env.shared.resolve (document json) _ = _
    rw [Evaluator.resolve, Evaluator.resolve_singleton _ _ rfl, hpresent, hthere.isPresent_eq,
      hpresent]
    rfl
  rw [hget, Evaluator.descendAll, Evaluator.step_wholeText_descend hroot]
  exact env.shared.step_alike _ hthere

end This

/-- Where it holds none, the path selects nothing. -/
theorem get_rootDescent_of_none (hkey : IsOneComponent key) (hroot : firstValue? json = none) :
    env.get json (rootDescent key) = missing := by
  have hdocument : document json = missing := by
    rw [document, hroot]
  rw [get, Evaluator.get, compile_rootDescent hkey]
  show env.shared.resolve (document json) _ = _
  rw [hdocument]
  exact Evaluator.resolve_missing _ (by rintro s ⟨⟩; rfl)

/-- And there the search gathers the empty array. -/
theorem descendAll_of_none (hroot : firstValue? json = none) :
    env.shared.descendAll json key = gather [] :=
  Evaluator.step_wholeText_descend_of_none _ hroot key []

/--
A descent from the root selects an array, as a search and as a path, and it is the same array
wherever the text holds a value, whatever comes after that value and whatever is wrong inside of it.
Where the text holds none, the search still selects an array, the empty one, and the path selects
nothing. So the two agree on whether they select something, and on its text, exactly if the text
holds a value.
-/
theorem descendAll_agrees_iff (env : Environment) (json : Text) {key : Text}
    (hkey : IsOneComponent key) (hon : env.transformers = true)
    (hthis : env.registry.hasOwn "this".toList = false) :
    (env.shared.descendAll json key).isPresent = true ∧
      ((firstValue? json).isSome = true →
        (env.get json (rootDescent key)).Alike (env.shared.descendAll json key)) ∧
      (firstValue? json = none →
        env.shared.descendAll json key = gather [] ∧ env.get json (rootDescent key) = missing) ∧
      ((env.shared.descendAll json key).isPresent = (env.get json (rootDescent key)).isPresent ∧
          (env.shared.descendAll json key).raw = (env.get json (rootDescent key)).raw ↔
        (firstValue? json).isSome = true) := by
  have hsome : (firstValue? json).isSome = true →
      (env.get json (rootDescent key)).Alike (env.shared.descendAll json key) := by
    intro h
    obtain ⟨root, hroot⟩ := Option.isSome_iff_exists.1 h
    exact get_rootDescent_alike hon hthis hkey hroot
  have hnone : firstValue? json = none →
      env.shared.descendAll json key = gather [] ∧ env.get json (rootDescent key) = missing :=
    fun h => ⟨descendAll_of_none h, get_rootDescent_of_none hkey h⟩
  refine ⟨rfl, hsome, hnone, fun h => ?_, fun h => ?_⟩
  · by_contra hroot
    rw [Bool.not_eq_true, Option.isSome_eq_false_iff, Option.isNone_iff_eq_none] at hroot
    rw [(hnone hroot).2] at h
    cases h.1
  · exact ⟨(hsome h).isPresent_eq.symm, (hsome h).raw.symm⟩

/-- A value with a comma too many inside, and with more text around it. -/
theorem descendAll_agrees_with_comma :
    IsOneComponent "a".toList ∧
      (initial.get " [\x7b\"a\":1\x7d,] 2".toList (rootDescent "a".toList)).Alike
        (initial.shared.descendAll " [\x7b\"a\":1\x7d,] 2".toList "a".toList) := by
  have hkey : IsOneComponent "a".toList := ⟨_, _, rfl⟩
  exact ⟨hkey, (descendAll_agrees_iff initial _ hkey rfl rfl).2.1 (by decide)⟩

/-- In the empty text the search selects an array and the path does not. -/
theorem descendAll_disagrees_on_nothing :
    IsOneComponent "a".toList ∧
      (initial.shared.descendAll [] "a".toList).raw = "[]".toList ∧
      (initial.shared.descendAll [] "a".toList).isPresent = true ∧
      (initial.get [] (rootDescent "a".toList)).isPresent = false := by
  exact ⟨⟨_, _, rfl⟩, by decide +kernel, by decide +kernel, by decide +kernel⟩

end Environment

end DotPath
