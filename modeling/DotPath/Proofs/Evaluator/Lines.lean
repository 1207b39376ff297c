import DotPath.Proofs.Evaluator.Fusion
import DotPath.Proofs.Evaluator.Shift
import DotPath.Proofs.Json.Stream
import DotPath.Proofs.Json.WellFormed

/-!
# Lines: a path on every value of a stream

A path that begins with lines is followed from every value of a stream. The scan that finds the
values goes by their extents and not by line ends. A value in a stream of well-formed values leads
to what it leads to as a document of its own, further on by the octets that stand before it, since
it is found whole and the evaluator does not look at offsets.

## Main results

* `Evaluator.lines_each_alone`: the values of a well-formed stream are followed one by one.
-/

namespace DotPath

open Json

namespace Selection

/-- The values of a stream are views of it, each as if it were a document, but further on. -/
theorem map_streamFrom_values {limit : Option Nat} {values : List (Text × Spaces)}
    (hvalues : ∀ e ∈ values, wellFormed limit e.1 = true)
    (hgaps : ∀ e ∈ values.dropLast, e.2.1 ≠ []) (k : Nat) :
    (streamFrom ⟨k, valuesSource values⟩).map (ofOccurrence (some 0)) =
      (starts k values).map fun e => (document e.2).shift e.1 := by
  induction values generalizing k with
  | nil =>
      rw [valuesSource, streamFrom_nil]
      rfl
  | cons e rest ih =>
      obtain ⟨value, gap⟩ := e
      obtain ⟨d, rfl, -⟩ := wellFormed_iff.1 (hvalues _ List.mem_cons_self)
      have hbehind : Delimited (gap.1 ++ valuesSource rest) := by
        cases rest with
        | nil => exact gap.delimited (lacks_nil extendsNumber)
        | cons e' rest =>
            have hgap : gap.1 ≠ [] := hgaps (d.source, gap) List.mem_cons_self
            exact gap.delimited_of_ne_nil hgap _
      have hvalues' : ∀ e ∈ rest, wellFormed limit e.1 = true := fun e he =>
        hvalues e (List.mem_cons_of_mem _ he)
      have hgaps' : ∀ e ∈ rest.dropLast, e.2.1 ≠ [] := by
        intro e he
        cases rest with
        | nil => cases he
        | cons e' rest => exact hgaps e (List.mem_cons_of_mem _ he)
      have hfirst : ofOccurrence (some 0)
          ⟨d.root.kind, k + Text.byteLength d.before.1, d.root.source⟩ =
            (document d.source).shift k := by
        rw [document, d.firstValue?_source]
        exact ofOccurrence_shift_value k 0 ⟨_, _, _⟩
      rw [valuesSource, streamFrom_document k d (d.after.delimited hbehind),
        streamFrom_append_spaces, List.map_cons, hfirst, ih hvalues' hgaps', starts, List.map_cons]

end Selection

namespace Evaluator

open Selection

/-- The results of lines, one by one. -/
theorem evalAll_lines (ev : Evaluator) (json : Text) (each : Path) :
    ev.evalAll json [.lines each] =
      present ((wholeText json).streamViews.map fun e => ev.resolve e each) := by
  have hview : (wholeText json).derivedFrom = id := rfl
  show ev.items (wholeText json) (.lines each) = _
  rw [items, hview, List.map_id]

/-- The results of lines as one array. -/
theorem eval_lines (ev : Evaluator) (json : Text) (each : Path) :
    ev.eval json [.lines each] = gather (ev.evalAll json [.lines each]) := by
  rw [eval, resolve, step, evalAll_lines]

/-- The array of lines holds the results, each with its kind and text. -/
theorem elements_lines (ev : Evaluator) (json : Text) (each : Path) :
    (elements (ev.eval json [.lines each]).raw).map (fun v => (v.kind, v.raw)) =
      (ev.evalAll json [.lines each]).map fun s => (s.kind, s.raw) := by
  rw [eval_lines]
  refine elements_composeArray fun s hs => ?_
  have hpresent : s.isPresent = true := by
    rw [evalAll_lines] at hs
    exact (mem_of_mem_present hs).2
  exact (ev.evalAll_anchored json _ s hs).fills hpresent

/-! ## Streams of well-formed values -/

section Values

variable {limit : Option Nat} {values : List (Text × Spaces)}

/-- The results of lines are those of the values one by one, further on. -/
theorem evalAll_streamSource (ev : Evaluator) (each : Path) (before : Spaces)
    (hvalues : ∀ e ∈ values, wellFormed limit e.1 = true)
    (hgaps : ∀ e ∈ values.dropLast, e.2.1 ≠ []) :
    ev.evalAll (streamSource before values) [.lines each] =
      present ((starts (Text.byteLength before.1) values).map fun e =>
        (ev.resolve (document e.2) each).shift e.1) := by
  have hviews : (wholeText (streamSource before values)).streamViews =
      (starts (Text.byteLength before.1) values).map fun e => (document e.2).shift e.1 := by
    have hvalues := map_streamFrom_values hvalues hgaps (0 + Text.byteLength before.1)
    rw [← streamFrom_append_spaces, Nat.zero_add] at hvalues
    exact hvalues
  rw [evalAll_lines, hviews, List.map_map]
  refine congrArg present (List.map_congr_left fun e _ => ?_)
  exact ev.resolve_shift e.1 each (document e.2)

/-- What stands before a value has no part in the kinds and texts. -/
theorem alike_evalAll_streamSource (ev : Evaluator) (each : Path) (before : Spaces)
    (hvalues : ∀ e ∈ values, wellFormed limit e.1 = true)
    (hgaps : ∀ e ∈ values.dropLast, e.2.1 ≠ []) :
    List.Forall₂ Alike (ev.evalAll (streamSource before values) [.lines each])
      (present (values.map fun e => ev.resolve (document e.1) each)) := by
  rw [evalAll_streamSource ev each before hvalues hgaps,
    ← map_starts (fun v => ev.resolve (document v) each)]
  refine alike_present (List.forall₂_same.2 fun e _ => rfl) ?_
  rintro e _ rfl
  exact shift_alike e.1 _

/-- So the array of lines is put together from the texts of the results. -/
theorem raw_eval_streamSource (ev : Evaluator) (each : Path) (before : Spaces)
    (hvalues : ∀ e ∈ values, wellFormed limit e.1 = true)
    (hgaps : ∀ e ∈ values.dropLast, e.2.1 ≠ []) :
    (ev.eval (streamSource before values) [.lines each]).raw =
      composeArray ((present (values.map fun e =>
        ev.resolve (document e.1) each)).map (·.raw)) := by
  have halike := ev.alike_evalAll_streamSource each before hvalues hgaps
  rw [eval_lines]
  show composeArray _ = composeArray _
  rw [map_eq_of_forall₂ (halike.imp fun a b hab => hab.raw)]

end Values

/--
In a stream of well-formed values, with space between any two of them, lines follow their path from
every value as if it were a document of its own. The array holds the results that there are, in the
order of the values, and has their texts. One by one the results are the same as well, further on by
the octets after which the value stands; those that are views stand in the stream where they say.
And whatever the text is, the scan for its values comes to an end.
-/
theorem lines_each_alone (ev : Evaluator) (each : Path) {limit : Option Nat} (before : Spaces)
    {values : List (Text × Spaces)} (hvalues : ∀ e ∈ values, wellFormed limit e.1 = true)
    (hgaps : ∀ e ∈ values.dropLast, e.2.1 ≠ []) :
    ((ev.eval (streamSource before values) [.lines each]).raw =
        '[' :: List.intercalate [','] ((present (values.map fun e =>
          ev.resolve (document e.1) each)).map (·.raw)) ++ [']'] ∧
      (elements (ev.eval (streamSource before values) [.lines each]).raw).map
          (fun v => (v.kind, v.raw)) =
        (present (values.map fun e => ev.resolve (document e.1) each)).map
          fun s => (s.kind, s.raw)) ∧
      ev.evalAll (streamSource before values) [.lines each] =
        present ((starts (Text.byteLength before.1) values).map fun e =>
          (ev.resolve (document e.2) each).shift e.1) ∧
      (∀ e ∈ starts (Text.byteLength before.1) values,
        StandsAt (streamSource before values) e.2 e.1) ∧
      (∀ r ∈ ev.evalAll (streamSource before values) [.lines each], r.isView = true →
        ∃ i, r.index = some i ∧ StandsAt (streamSource before values) r.raw i) ∧
      ∀ json : Text, streamRounds (json.length + 1) (Place.start json) = some (stream json) := by
  have hall := ev.evalAll_streamSource each before hvalues hgaps
  refine ⟨⟨ev.raw_eval_streamSource each before hvalues hgaps, ?_⟩, hall,
    fun e he => standsAt_of_mem_starts he, ?_, ?_⟩
  · have halike := ev.alike_evalAll_streamSource each before hvalues hgaps
    rw [elements_lines]
    exact map_eq_of_forall₂ (halike.imp fun a b hab => Prod.ext hab.kind hab.raw)
  · intro r hr hview
    exact (ev.evalAll_anchored (streamSource before values) [.lines each] r hr).view hview
  · intro json
    exact streamRounds_eq (Nat.lt_succ_self _)

/-- A number, an object over several lines and a word; the path leads somewhere from the second. -/
def mixedValues : List (Text × Spaces) :=
  [("-3".toList, ⟨[' '], by simp [isSpace]⟩),
    ("\x7b\"a\":\n[2]\x7d".toList, ⟨['\n', '\t'], by simp [isSpace]⟩),
    ("true".toList, .none)]

theorem lines_each_alone_of_mixed :
    (∀ e ∈ mixedValues, wellFormed none e.1 = true) ∧ (∀ e ∈ mixedValues.dropLast, e.2.1 ≠ []) ∧
      Evaluator.evalAll ⟨⟨true, 256⟩, fun _ => none⟩
          "\n-3 \x7b\"a\":\n[2]\x7d\n\ttrue".toList [.lines [.field ['a']]] =
        [⟨.container, "[2]".toList, true, some 10, []⟩] := by
  have hvalues : ∀ e ∈ mixedValues, wellFormed none e.1 = true := by decide +kernel
  have hgaps : ∀ e ∈ mixedValues.dropLast, e.2.1 ≠ [] := by decide
  have h := (lines_each_alone ⟨⟨true, 256⟩, fun _ => none⟩ [.field ['a']] .newline
    hvalues hgaps).2.1
  have hresults : present ((starts 1 mixedValues).map fun e =>
      (Evaluator.resolve ⟨⟨true, 256⟩, fun _ => none⟩ (document e.2) [.field ['a']]).shift e.1) =
        [⟨.container, "[2]".toList, true, some 10, []⟩] := by
    decide +kernel
  exact ⟨hvalues, hgaps, h.trans hresults⟩

end Evaluator

end DotPath
