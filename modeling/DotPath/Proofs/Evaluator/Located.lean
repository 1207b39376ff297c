import DotPath.Proofs.Evaluator.Anchored
import DotPath.Proofs.Evaluator.Batch

/-!
# A result is nothing or exactly one value

Whatever the document is, and whatever the transformers make of it, the text of a result is one
value from its first character to its last, of the kind that the result has. So a result can be read
again as a document, and is found to be the same; there is no space around it to be cut off, and
nothing comes behind it.

That a text is one value where anything is selected is part of the invariant of anchored selections.
What is left to show is that a selection of nothing has no other kind than null. The one segment
that could get this wrong is a transformer that nobody knows, which hands on the kind that it finds.

## Main results

* `Evaluator.eval_located`, `evalAll_located`, `getMany_located`: every result is nothing or exactly
  one value.
* `results_located`: what this says of every result.
-/

namespace DotPath

open Json

namespace Selection

/-- Nothing is selected, or exactly one value of the kind that the selection has. -/
def Located (s : Selection) : Prop :=
  (s.kind = .null ∧ s.raw = []) ∨ Fills s.kind s.raw

/-- A selection of nothing is of the kind of null. -/
def NullIfAbsent (s : Selection) : Prop :=
  s.isPresent = false → s.kind = .null

variable {s r : Selection}

theorem Anchored.located {src : Option Text} (h : Anchored src s) (hnull : s.NullIfAbsent) :
    Located s := by
  cases hpresent : s.isPresent with
  | true => exact .inr (h.fills hpresent)
  | false => exact .inl ⟨hnull hpresent, by simpa [isPresent] using hpresent⟩

theorem located_missing : Located missing :=
  .inl ⟨rfl, rfl⟩

theorem located_document (json : Text) : Located (document json) := by
  unfold document
  split
  · next v hv => exact .inr (isIn_of_firstValue? hv).2
  · exact located_missing

theorem Located.fills (h : Located s) (hpresent : s.isPresent = true) : Fills s.kind s.raw := by
  rcases h with ⟨-, hraw⟩ | hfills
  · rw [isPresent, hraw] at hpresent
    cases hpresent
  · exact hfills

/-- A selection that is one value, or nothing, may be taken for a text of its own. -/
theorem Located.anchored (h : Located s) : Anchored none ⟨s.kind, s.raw, false, none, []⟩ := by
  rcases h with ⟨hkind, hraw⟩ | hfills
  · rw [hkind, hraw]
    exact anchored_missing none
  · exact anchored_of_owned none hfills

theorem Located.nullIfAbsent (h : Located s) : s.NullIfAbsent := by
  rcases h with ⟨hkind, -⟩ | hfills
  · exact fun _ => hkind
  · intro habsent
    rw [isPresent, Bool.not_eq_false', List.isEmpty_iff] at habsent
    exact absurd habsent hfills.ne_nil

theorem isPresent_derivedFrom (s r : Selection) : (s.derivedFrom r).isPresent = r.isPresent := by
  unfold Selection.derivedFrom
  split <;> rfl

/-! ## What kinds say about texts -/

/--
What the kind of a selection says about its text, in a way that is right for nothing, for every
value and for every array that is put together.
-/
structure IsRightFor (P : Kind → Text → Prop) : Prop where
  nothing : P .null []
  value : ∀ {kind : Kind} {raw : Text}, Fills kind raw → P kind raw
  array : ∀ items, P .container (composeArray items)

namespace IsRightFor

variable {P : Kind → Text → Prop}

theorem derivedFrom (h : P r.kind r.raw) (s : Selection) :
    P (s.derivedFrom r).kind (s.derivedFrom r).raw := by
  unfold Selection.derivedFrom
  split
  · exact h
  · exact h

/-- What is found in the text of a selection is a value. -/
theorem parts (hP : IsRightFor P) (s : Selection) : HoldsOfParts (fun r => P r.kind r.raw) s :=
  ⟨hP.nothing, fun hv => hP.value hv.2⟩

theorem ofText (hP : IsRightFor P) (t : Text) :
    P (Selection.ofText t).kind (Selection.ofText t).raw := by
  unfold Selection.ofText
  split
  · next v hv => exact hP.value (isIn_of_firstValue? hv).2
  · exact hP.nothing

theorem document (hP : IsRightFor P) (t : Text) :
    P (Selection.document t).kind (Selection.document t).raw := by
  unfold Selection.document
  split
  · next v hv => exact hP.value (isIn_of_firstValue? hv).2
  · exact hP.nothing

theorem of_mem_array (hP : IsRightFor P) {e : Selection} (hs : P s.kind s.raw)
    (he : e ∈ s.array) : P e.kind e.raw := by
  unfold Selection.array at he
  split at he
  · cases he
  · split at he
    · rw [List.mem_singleton.1 he]
      exact hs
    · obtain ⟨v, hv, rfl⟩ := List.mem_map.1 he
      have hvalue := (hP.parts s).part (isIn_of_mem_elements hv)
      exact derivedFrom hvalue s

theorem of_mem_members (hP : IsRightFor P) {m : Text × Selection} (hm : m ∈ s.members) :
    P m.2.kind m.2.raw := by
  unfold Selection.members at hm
  split at hm
  · cases hm
  · rcases mem_of_mem_foldl hm with hm | hm
    · cases hm
    · obtain ⟨n, hn, rfl⟩ := List.mem_map.1 hm
      have hvalue := (hP.parts s).part (isIn_of_mem_members hn)
      exact derivedFrom hvalue s

theorem count (hP : IsRightFor P) (s : Selection) : P s.count.kind s.count.raw := by
  have hnumber : ∀ n, P (ofNat n).kind (ofNat n).raw :=
    fun n => hP.value (.number (isNumber_ofNat n).isNumeral)
  unfold Selection.count
  split
  · exact hnumber _
  · split
    · exact hnumber _
    · exact hP.nothing

theorem gather (hP : IsRightFor P) (found : List Selection) :
    P (Selection.gather found).kind (Selection.gather found).raw :=
  hP.array _

/-- A transformer that nobody knows hands on the kind and the text that it finds. -/
theorem applyTransformer (hP : IsRightFor P) (ev : Evaluator) {cur : Selection}
    (h : P cur.kind cur.raw) (name : Text) (argument : Option Text) (source : Text) :
    P (ev.applyTransformer cur name argument source).kind
      (ev.applyTransformer cur name argument source).raw := by
  unfold Evaluator.applyTransformer
  split
  · split
    · exact hP.ofText _
    · exact h
  · exact (hP.parts cur).field source

theorem step (hP : IsRightFor P) (ev : Evaluator) {cur : Selection} (h : P cur.kind cur.raw)
    (s : Segment) : P (ev.step cur s).kind (ev.step cur s).raw := by
  have hparts := hP.parts cur
  cases s with
  | field name =>
      rw [Evaluator.step]
      exact derivedFrom (hparts.field name) cur
  | index n =>
      rw [Evaluator.step]
      exact derivedFrom (hparts.item n) cur
  | wildcard pattern =>
      rw [Evaluator.step]
      exact derivedFrom (hparts.firstLike pattern) cur
  | length =>
      rw [Evaluator.step]
      exact hP.count cur
  | collect each =>
      rw [Evaluator.step]
      split
      · exact hP.gather _
      · exact hP.nothing
  | query condition all each =>
      rw [Evaluator.step]
      split
      · exact hP.nothing
      · dsimp only
        split
        · exact hP.gather _
        · exact derivedFrom (hparts.firstWhere fun e => ev.holds e condition) cur
  | select asArray entries =>
      rw [Evaluator.step]
      exact hP.ofText _
  | literal json =>
      rw [Evaluator.step]
      exact hP.ofText json
  | transform name argument source =>
      rw [Evaluator.step]
      exact derivedFrom (hP.applyTransformer ev h name argument source) cur
  | descend pattern each =>
      rw [Evaluator.step]
      exact hP.gather _
  | lines each =>
      rw [Evaluator.step]
      exact hP.gather _

theorem resolve (hP : IsRightFor P) (ev : Evaluator) {path : Path} {cur : Selection}
    (h : P cur.kind cur.raw) : P (ev.resolve cur path).kind (ev.resolve cur path).raw := by
  induction path generalizing cur with
  | nil =>
      rw [Evaluator.resolve]
      exact h
  | cons s rest ih =>
      rw [Evaluator.resolve]
      split
      · exact hP.nothing
      · exact ih (hP.step ev h s)

theorem eval (hP : IsRightFor P) (ev : Evaluator) (json : Text) (path : Path) :
    P (ev.eval json path).kind (ev.eval json path).raw := by
  unfold Evaluator.eval
  split
  · next each rest =>
      refine hP.resolve ev ?_
      rw [Evaluator.step]
      exact hP.gather _
  · exact hP.resolve ev (hP.document json)

end IsRightFor

/-- A text that is empty is of the kind of null: values and arrays never are. -/
theorem isRightFor_empty : IsRightFor fun kind raw => (!raw.isEmpty) = false → kind = .null := by
  refine ⟨fun _ => rfl, fun h hempty => ?_, fun _ hempty => ?_⟩
  · exact absurd (by simpa using hempty) h.ne_nil
  · cases hempty

end Selection

namespace Evaluator

open Selection

/-! ## Results -/

theorem eval_located (ev : Evaluator) (json : Text) (path : Path) :
    Located (ev.eval json path) := by
  have hnull : NullIfAbsent (ev.eval json path) := isRightFor_empty.eval ev json path
  exact (ev.eval_anchored json path).located hnull

/-- Results that are given one by one are never nothing. -/
theorem isPresent_of_mem_items (ev : Evaluator) {cur : Selection} {s : Segment} {r : Selection}
    (hr : r ∈ ev.items cur s) : r.isPresent = true := by
  have hderived : ∀ {found : List Selection}, r ∈ (present found).map cur.derivedFrom →
      r.isPresent = true := by
    intro found hr
    obtain ⟨e, he, rfl⟩ := List.mem_map.1 hr
    rw [isPresent_derivedFrom]
    exact (mem_of_mem_present he).2
  cases s with
  | collect each =>
      rw [items] at hr
      split at hr
      · exact (mem_of_mem_present hr).2
      · cases hr
  | query condition all each =>
      cases all with
      | false => cases hr
      | true =>
          rw [items] at hr
          exact hderived hr
  | descend pattern each =>
      rw [items] at hr
      exact hderived hr
  | lines each =>
      rw [items] at hr
      exact hderived hr
  | _ => cases hr

theorem isPresent_of_mem_evalAll (ev : Evaluator) {json : Text} {path : Path} {r : Selection}
    (hr : r ∈ ev.evalAll json path) : r.isPresent = true := by
  have hone : ∀ {s : Selection}, r ∈ asResults s → r.isPresent = true := by
    intro s hs
    unfold asResults at hs
    split at hs
    · next hpresent =>
        rw [List.mem_singleton.1 hs]
        exact hpresent
    · cases hs
  unfold evalAll at hr
  split at hr
  · split at hr
    · exact hone hr
    · split at hr
      · exact ev.isPresent_of_mem_items hr
      · dsimp only at hr
        split at hr
        · exact ev.isPresent_of_mem_items hr
        · cases hr
  · exact hone hr

theorem evalAll_located (ev : Evaluator) (json : Text) (path : Path) :
    ∀ r ∈ ev.evalAll json path, Located r := by
  intro r hr
  exact .inr ((ev.evalAll_anchored json path r hr).fills (ev.isPresent_of_mem_evalAll hr))

theorem getMany_located (ev : Evaluator) (json : Text) (paths : List Text) :
    ∀ r ∈ ev.getMany json paths, Located r := by
  rw [getMany_eq_map]
  refine forall_mem_map fun path _ => ?_
  split
  · exact located_missing
  · rw [get]
    split
    · exact ev.eval_located json _
    · exact located_missing

end Evaluator

open Selection

/-- Elements and members are values, and what a path leads to from there is located as well. -/
theorem Reached.located {json : Text} {s : Selection} (h : Reached json s) : Located s := by
  refine h.anchored.located ?_
  induction h with
  | get ev path =>
      rw [Evaluator.get]
      split
      · exact isRightFor_empty.eval ev json _
      · exact isRightFor_empty.nothing
  | @getAll ev path s hs =>
      rw [Evaluator.getAll] at hs
      split at hs
      · intro habsent
        rw [ev.isPresent_of_mem_evalAll hs] at habsent
        cases habsent
      · cases hs
  | getFrom ev path _ ih =>
      rw [Evaluator.getFrom]
      split
      · exact isRightFor_empty.resolve ev ih
      · exact isRightFor_empty.nothing
  | element _ he ih => exact isRightFor_empty.of_mem_array ih he
  | member _ hm _ => exact isRightFor_empty.of_mem_members hm

/-! ## What this says of a result -/

/-- The value that is located in the text of a selection is the selection itself. -/
theorem Selection.Located.value?_start {s : Selection} (h : Located s) :
    (s.kind = .null ∧ s.raw = []) ∨
      (Place.start s.raw).value? =
        some (⟨s.kind, 0, s.raw⟩, ⟨Text.byteLength s.raw, []⟩) := by
  rcases h with hempty | hfills
  · exact .inl hempty
  · have hvalue := Place.value?_append 0 hfills (lacks_nil extendsNumber)
    rw [List.append_nil, Nat.zero_add] at hvalue
    exact .inr hvalue

/-- So it is read again as the same. -/
theorem Selection.Located.document_eq {s : Selection} (h : Located s) :
    (document s.raw).kind = s.kind ∧ (document s.raw).raw = s.raw := by
  rcases h with ⟨hkind, hraw⟩ | hfills
  · rw [hkind, hraw]
    exact ⟨rfl, rfl⟩
  · rw [document, hfills.firstValue?]
    exact ⟨rfl, rfl⟩

theorem Selection.Located.trim_eq {s : Selection} (h : Located s) :
    Text.trim isSpace s.raw = s.raw := by
  rcases h with ⟨-, hraw⟩ | hfills
  · rw [hraw]
    rfl
  · exact hfills.trim_eq

/--
Every result of a path, by itself, one by one or in a batch, is empty or exactly one value: the
value that is located at the start of its text has the kind of the result and ends where the text
does. Read again as a document it gives the same kind and text, and there is no space around it.
The document may be malformed, and nothing is asked of the transformers.
-/
theorem results_located (ev : Evaluator) (json : Text) (path : Path) (paths : List Text)
    (s : Selection)
    (hs : s ∈ ev.eval json path :: (ev.evalAll json path ++ ev.getMany json paths)) :
    ((s.kind = .null ∧ s.raw = []) ∨
      (Place.start s.raw).value? =
        some (⟨s.kind, 0, s.raw⟩, ⟨Text.byteLength s.raw, []⟩)) ∧
      ((document s.raw).kind = s.kind ∧ (document s.raw).raw = s.raw) ∧
      Text.trim isSpace s.raw = s.raw := by
  have h : Located s := by
    rcases List.mem_cons.1 hs with rfl | hs
    · exact ev.eval_located json path
    · rcases List.mem_append.1 hs with hs | hs
      · exact ev.evalAll_located json path s hs
      · exact ev.getMany_located json paths s hs
  exact ⟨h.value?_start, h.document_eq, h.trim_eq⟩

/-- A transformer that writes space and more than one value, in an array that is not closed well. -/
theorem results_located_of_garbage :
    (Evaluator.eval ⟨⟨true, 256⟩, fun _ => some fun _ _ => [' ', '7', ' ', 'x']⟩
        ['[', '1', ',', '2', '\x7d'] [.index 1, .transform ['g'] none ['@', 'g']]).raw = ['7'] ∧
      (document ['7']).raw = ['7'] ∧ Text.trim isSpace ['7'] = ['7'] := by
  have hraw : (Evaluator.eval ⟨⟨true, 256⟩, fun _ => some fun _ _ => [' ', '7', ' ', 'x']⟩
      ['[', '1', ',', '2', '\x7d'] [.index 1, .transform ['g'] none ['@', 'g']]).raw = ['7'] := by
    decide +kernel
  have h := results_located ⟨⟨true, 256⟩, fun _ => some fun _ _ => [' ', '7', ' ', 'x']⟩
    ['[', '1', ',', '2', '\x7d'] [.index 1, .transform ['g'] none ['@', 'g']] [] _
    List.mem_cons_self
  rw [hraw] at h
  exact ⟨hraw, h.2.1.2, h.2.2⟩

end DotPath
