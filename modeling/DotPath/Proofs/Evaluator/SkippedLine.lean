import DotPath.Proofs.Evaluator.Lines
import DotPath.Proofs.Json.LeftOpen

/-!
# Lines that hold no value

Where no value begins, lines pass over the rest of the line. What a line without a value does to the
values on the following lines depends on what it leaves open. If no value is found from it on, even
with the following lines to close it, they are followed as if the line were not there, only further
on. Otherwise a value is found that goes over the line end, and it takes away from theirs.

The latter happens to a line that leaves a string open, behind some values, and to no other line.

## Main results

* `Evaluator.evalAll_line`: the results of lines behind a line that is passed over.
* `Evaluator.lines_skip_line`: exactly which lines leave the following ones alone.
-/

namespace DotPath

open Json Place

/-! ## Streams that stand further on -/

namespace Json

theorem nextLine?_shift (k : Nat) (p : Place) :
    nextLine? (p.shift k) = (nextLine? p).map (Place.shift k) := by
  rw [nextLine?, nextLine?, skipWhile_shift, expect?, expect?, rest_shift]
  split
  · rw [skip_shift]
    rfl
  · rfl

/-- A round further on takes the same value, further on. -/
theorem streamRound_shift (k : Nat) (p : Place) :
    streamRound (p.shift k) =
      (streamRound p).map fun (found, q) => (found.map (·.shift k), q.shift k) := by
  have hskip : (p.shift k).skipSpace = p.skipSpace.shift k := skipWhile_shift k p isSpace
  rw [streamRound, streamRound, hskip, value?_shift]
  cases p.skipSpace.value? with
  | some vq => rfl
  | none =>
      simp only [Option.map_none, nextLine?_shift, Option.map_map]
      rfl

theorem streamRounds_shift (n k : Nat) (p : Place) :
    streamRounds n (p.shift k) = (streamRounds n p).map (List.map (·.shift k)) := by
  induction n generalizing p with
  | zero => rfl
  | succ n ih =>
      rw [streamRounds, streamRounds, streamRound_shift]
      cases streamRound p with
      | none => rfl
      | some next =>
          obtain ⟨found, q⟩ := next
          dsimp only [Option.map_some]
          rw [ih, Option.map_map, Option.map_map]
          refine congrArg (Option.map · (streamRounds n q)) (funext fun rest => ?_)
          cases found with
          | none => rfl
          | some v => rfl

/-- The values of a stream that stands further on stand further on. -/
theorem streamFrom_shift (k : Nat) (p : Place) :
    streamFrom (p.shift k) = (streamFrom p).map (·.shift k) := by
  have hrounds := streamRounds_shift (p.rest.length + 1) k p
  have hlength : (p.shift k).rest.length < p.rest.length + 1 := Nat.lt_succ_self _
  rw [streamRounds_eq hlength, streamRounds_eq (Nat.lt_succ_self _)] at hrounds
  exact Option.some.inj hrounds

/-! ## The line -/

theorem firstValue?_eq_none {t : Text} :
    firstValue? t = none ↔ extent (t.dropWhile isSpace) = none := by
  have hrest : (Place.start t).skipSpace.rest = t.dropWhile isSpace := rest_skipWhile _ isSpace
  rw [firstValue?, Option.map_eq_none_iff, Place.value?, Option.map_eq_none_iff, hrest]

theorem nextLine?_append (k : Nat) {t : Text} (ht : '\n' ∉ t) (rest : Text) :
    nextLine? ⟨k, t ++ '\n' :: rest⟩ = some ⟨k + Text.byteLength t + 1, rest⟩ := by
  have htake : (t ++ '\n' :: rest).takeWhile (· != '\n') = t := by
    rw [List.takeWhile_append_of_pos, List.takeWhile_cons_of_neg (by decide), List.append_nil]
    intro c hc
    rw [bne_iff_ne]
    rintro rfl
    exact ht hc
  rw [nextLine?, skipWhile, htake, skip_append, expect?_cons]
  rfl

variable {line body : Text}

/-- The space in front of a line is passed over in any case. -/
theorem exists_line (line body : Text) :
    ∃ s : Spaces, line = s.1 ++ line.dropWhile isSpace ∧
      ∀ k, streamFrom ⟨k, line ++ '\n' :: body⟩ =
        streamFrom ⟨k + Text.byteLength s.1, line.dropWhile isSpace ++ '\n' :: body⟩ := by
  obtain ⟨s, hs, -⟩ := exists_spaces line
  refine ⟨s, hs, fun k => ?_⟩
  rw [← streamFrom_append_spaces, ← List.append_assoc, ← hs]

/-- What a line begins with behind its space is no space. -/
theorem skipSpace_line (hne : line.dropWhile isSpace ≠ []) (k : Nat) :
    skipSpace ⟨k, line.dropWhile isSpace ++ '\n' :: body⟩ =
      ⟨k, line.dropWhile isSpace ++ '\n' :: body⟩ := by
  have hlacks := lacks_dropWhile isSpace line
  obtain ⟨c, t, ht⟩ := List.exists_cons_of_ne_nil hne
  rw [ht] at hlacks ⊢
  have hhead : Lacks isSpace (c :: t ++ '\n' :: body) := lacks_cons (hlacks c rfl)
  exact skipSpace_append k .none hhead

/-- If no value is found from a line on, the stream goes on behind the line. -/
theorem streamFrom_line (hline : '\n' ∉ line)
    (hnone : extent (line.dropWhile isSpace ++ '\n' :: body) = none) (k : Nat) :
    streamFrom ⟨k, line ++ '\n' :: body⟩ =
      streamFrom ⟨k + (Text.byteLength line + 1), body⟩ := by
  obtain ⟨s, hs, hstream⟩ := exists_line line body
  have hlength : Text.byteLength line =
      Text.byteLength s.1 + Text.byteLength (line.dropWhile isSpace) := by
    rw [← Text.byteLength_append, ← hs]
  rw [hstream, hlength]
  by_cases hne : line.dropWhile isSpace = []
  · have hend := streamFrom_append_spaces (k + Text.byteLength s.1) .newline body
    rw [hne]
    exact hend
  · have hrest : '\n' ∉ line.dropWhile isSpace := by
      intro hmem
      exact hline ((List.dropWhile_sublist isSpace).subset hmem)
    have hround : streamRound
        ⟨k + Text.byteLength s.1, line.dropWhile isSpace ++ '\n' :: body⟩ =
          some (none, ⟨k + Text.byteLength s.1 + Text.byteLength (line.dropWhile isSpace) + 1,
            body⟩) := by
      rw [streamRound, skipSpace_line hne, value?, hnone, nextLine?_append _ hrest]
      rfl
    rw [streamFrom_of_round hround, Nat.add_assoc, Nat.add_assoc, Nat.add_assoc]
    rfl

/-- Otherwise it begins with a value that goes over the line end. -/
theorem exists_mem_streamFrom_line (hvalue : extent (line.dropWhile isSpace) = none)
    {kind : Kind} {n : Nat}
    (hext : extent (line.dropWhile isSpace ++ '\n' :: body) = some (kind, n)) (k : Nat) :
    ∃ v ∈ streamFrom ⟨k, line ++ '\n' :: body⟩, '\n' ∈ v.raw := by
  obtain ⟨s, -, hstream⟩ := exists_line line body
  have hne : line.dropWhile isSpace ≠ [] := by
    intro hnil
    rw [hnil] at hext
    cases hext
  have hfound : (skipSpace ⟨k + Text.byteLength s.1,
      line.dropWhile isSpace ++ '\n' :: body⟩).value? =
        some (⟨kind, k + Text.byteLength s.1,
          (line.dropWhile isSpace ++ '\n' :: body).take n⟩,
          skip ⟨k + Text.byteLength s.1, line.dropWhile isSpace ++ '\n' :: body⟩ n) := by
    rw [skipSpace_line hne, value?, hext]
    rfl
  rw [hstream, streamFrom_of_value hfound]
  exact ⟨_, List.mem_cons_self, newline_mem_of_extent hvalue hext⟩

/-! ## Values on lines of their own -/

/-- Values, each on a line of its own. -/
def onLines (vs : List Text) : Text :=
  List.intercalate ['\n'] vs

/-- Values that are well formed and stand on one line. -/
def AreLines (limit : Option Nat) (vs : List Text) : Prop :=
  ∀ v ∈ vs, wellFormed limit v = true ∧ '\n' ∉ v

/-- The values, each with the line end behind it, but for the last one. -/
def lineValues : List Text → List (Text × Spaces)
  | [] => []
  | [v] => [(v, .none)]
  | v :: w :: rest => (v, .newline) :: lineValues (w :: rest)

theorem valuesSource_lineValues (vs : List Text) : valuesSource (lineValues vs) = onLines vs := by
  fun_induction lineValues vs with
  | case1 => rfl
  | case2 v =>
      rw [valuesSource, valuesSource, onLines, List.intercalate_singleton]
      exact List.append_nil v
  | case3 v w rest ih =>
      rw [valuesSource, ih, onLines, onLines, List.intercalate_cons_cons, List.append_assoc]
      rfl

theorem map_fst_lineValues (vs : List Text) : (lineValues vs).map (·.1) = vs := by
  fun_induction lineValues vs with
  | case1 => rfl
  | case2 v => rfl
  | case3 v w rest ih => rw [List.map_cons, ih]

theorem gap_of_mem_lineValues (vs : List Text) :
    ∀ e ∈ (lineValues vs).dropLast, e.2.1 ≠ [] := by
  fun_induction lineValues vs with
  | case1 => nofun
  | case2 v => nofun
  | case3 v w rest ih =>
      intro e he
      obtain ⟨e', u, hu⟩ : ∃ e' u, lineValues (w :: rest) = e' :: u := by
        cases rest with
        | nil => exact ⟨_, _, rfl⟩
        | cons x rest => exact ⟨_, _, rfl⟩
      rw [hu] at he ih
      rcases List.mem_cons.1 he with rfl | he
      · exact List.cons_ne_nil '\n' []
      · exact ih e he

/-- Well-formed values on lines close nothing that is open before them. -/
theorem passes_onLines {limit : Option Nat} {vs : List Text} (h : AreLines limit vs) :
    Passes (onLines vs) := by
  have hvalue : ∀ v ∈ vs, Passes v := by
    intro v hv
    obtain ⟨d, rfl, -⟩ := wellFormed_iff.1 (h v hv).1
    exact (passes_spaces d.before.2).append (d.root.fills.passes.append (passes_spaces d.after.2))
  have hnewline : Passes ['\n'] := passes_singleton (by decide)
  clear h
  induction vs with
  | nil => exact passes_nil
  | cons v rest ih =>
      cases rest with
      | nil =>
          rw [onLines, List.intercalate_singleton]
          exact hvalue v List.mem_cons_self
      | cons w rest =>
          rw [onLines, List.intercalate_cons_cons]
          have hrest := ih fun x hx => hvalue x (List.mem_cons_of_mem v hx)
          exact ((hvalue v List.mem_cons_self).append hnewline).append hrest

end Json

namespace Evaluator

open Selection

/-- Behind a line that is passed over, lines give what they give without it, further on. -/
theorem evalAll_line (ev : Evaluator) {line body : Text} (hline : '\n' ∉ line)
    (hnone : extent (line.dropWhile isSpace ++ '\n' :: body) = none) (each : Path) :
    ev.evalAll (line ++ '\n' :: body) [.lines each] =
      (ev.evalAll body [.lines each]).map (·.shift (Text.byteLength line + 1)) := by
  have hviews : (wholeText (line ++ '\n' :: body)).streamViews =
      (wholeText body).streamViews.map (·.shift (Text.byteLength line + 1)) := by
    have hstream : stream (line ++ '\n' :: body) =
        (stream body).map (·.shift (Text.byteLength line + 1)) := by
      rw [stream, stream, ← streamFrom_shift, Place.start, streamFrom_line hline hnone,
        Nat.zero_add]
      rfl
    show (stream (line ++ '\n' :: body)).map _ = ((stream body).map _).map _
    rw [hstream, List.map_map, List.map_map]
    exact List.map_congr_left fun v _ => ofOccurrence_shift_value _ 0 v
  rw [evalAll_lines, evalAll_lines, hviews, ← present_shift, List.map_map, List.map_map]
  refine congrArg present (List.map_congr_left fun e _ => ?_)
  exact ev.resolve_shift _ each e

/-- Lines that give the same array give the same texts one by one. -/
theorem exists_mem_of_raw_eq (ev : Evaluator) {json json' : Text} {each : Path}
    (h : (ev.eval json [.lines each]).raw = (ev.eval json' [.lines each]).raw) {s : Selection}
    (hs : s ∈ ev.evalAll json [.lines each]) :
    ∃ r ∈ ev.evalAll json' [.lines each], r.raw = s.raw := by
  have hresults := elements_lines ev json each
  rw [h, elements_lines] at hresults
  have hmem : (s.kind, s.raw) ∈ (ev.evalAll json [.lines each]).map fun s => (s.kind, s.raw) :=
    List.mem_map_of_mem hs
  rw [← hresults] at hmem
  obtain ⟨r, hr, heq⟩ := List.mem_map.1 hmem
  exact ⟨r, hr, (Prod.mk.inj heq).2⟩

/-- Without a path to follow, lines give the values themselves. -/
theorem mem_evalAll_lines_nil (ev : Evaluator) {json : Text} {r : Selection} :
    r ∈ ev.evalAll json [.lines []] ↔ r ∈ (wholeText json).streamViews ∧ r.isPresent = true := by
  have hself : (fun e => ev.resolve e []) = id := by
    funext e
    rw [resolve]
    rfl
  rw [evalAll_lines, hself, List.map_id, present, List.mem_filter]

/-- Values on lines of their own have no line end in them. -/
theorem newline_not_mem_of_evalAll (ev : Evaluator) {limit : Option Nat} {vs : List Text}
    (hvs : AreLines limit vs) {r : Selection} (hr : r ∈ ev.evalAll (onLines vs) [.lines []]) :
    '\n' ∉ r.raw := by
  have hvalues : ∀ e ∈ lineValues vs, wellFormed limit e.1 = true := by
    intro e he
    have hmem : e.1 ∈ (lineValues vs).map (·.1) := List.mem_map_of_mem he
    rw [map_fst_lineValues] at hmem
    exact (hvs e.1 hmem).1
  have hviews := map_streamFrom_values hvalues (gap_of_mem_lineValues vs) 0
  rw [valuesSource_lineValues] at hviews
  have hview : r ∈ (streamFrom ⟨0, onLines vs⟩).map (ofOccurrence (some 0)) :=
    (ev.mem_evalAll_lines_nil.1 hr).1
  rw [hviews] at hview
  obtain ⟨⟨k, v⟩, hv, rfl⟩ := List.mem_map.1 hview
  have hmem : v ∈ (starts 0 (lineValues vs)).map (·.2) := List.mem_map_of_mem hv
  rw [map_starts fun v => v, map_fst_lineValues] at hmem
  obtain ⟨hwell, hnewline⟩ := hvs v hmem
  obtain ⟨d, rfl, -⟩ := wellFormed_iff.1 hwell
  have hraw : ((document d.source).shift k).raw = d.root.source := by
    rw [raw_shift, document, d.firstValue?_source]
    rfl
  intro hin
  rw [hraw] at hin
  refine hnewline ?_
  rw [Document.source]
  exact List.mem_append_right _ (List.mem_append_left _ hin)

/-- A line in front leaves what lines give of the following values as it is. -/
def SkipsLine (line : Text) (vs : List Text) : Prop :=
  ∀ (ev : Evaluator) (each : Path),
    (ev.eval (line ++ '\n' :: onLines vs) [.lines each]).raw =
      (ev.eval (onLines vs) [.lines each]).raw

/-- A line leaves the following values alone exactly if no value is found from it on. -/
theorem skipsLine_iff {line : Text} (hline : '\n' ∉ line) (hvalue : firstValue? line = none)
    {limit : Option Nat} {vs : List Text} (hvs : AreLines limit vs) :
    SkipsLine line vs ↔ extent (line.dropWhile isSpace ++ '\n' :: onLines vs) = none := by
  constructor
  · intro hskips
    cases hext : extent (line.dropWhile isSpace ++ '\n' :: onLines vs) with
    | none => rfl
    | some found =>
        obtain ⟨kind, n⟩ := found
        obtain ⟨v, hv, hnewline⟩ :=
          exists_mem_streamFrom_line (firstValue?_eq_none.1 hvalue) hext 0
        -- The value is among what the lines give, and no value of the following lines is like it.
        have hpresent : (ofOccurrence (some 0) v).isPresent = true := by
          obtain ⟨c, u, hraw⟩ := List.exists_cons_of_ne_nil (List.ne_nil_of_mem hnewline)
          rw [isPresent, ofOccurrence, hraw]
          rfl
        have hfound := (mem_evalAll_lines_nil ⟨⟨true, 256⟩, fun _ => none⟩).2
          ⟨(List.mem_map_of_mem hv : ofOccurrence (some 0) v ∈
            (wholeText (line ++ '\n' :: onLines vs)).streamViews), hpresent⟩
        obtain ⟨r, hr, hraw⟩ := exists_mem_of_raw_eq _ (hskips _ []) hfound
        have hvraw : r.raw = v.raw := hraw
        rw [← hvraw] at hnewline
        exact absurd hnewline (newline_not_mem_of_evalAll _ hvs hr)
  · intro hnone ev each
    rw [eval_lines, eval_lines, ev.evalAll_line hline hnone, gather_shift]
    rfl

/--
A line that holds no value leaves what lines give of the following values as it is, whatever the
path, exactly if no value is found from the line on with the following ones behind it. It does so
for all well-formed values on lines of their own exactly if it does not end inside a string, behind
the beginning of a string or container.
-/
theorem lines_skip_line {line : Text} (hline : '\n' ∉ line) (hvalue : firstValue? line = none)
    (limit : Option Nat) :
    (∀ vs, AreLines limit vs →
      (SkipsLine line vs ↔
        extent (line.dropWhile isSpace ++ '\n' :: onLines vs) = none)) ∧
      ((∀ vs, AreLines limit vs → SkipsLine line vs) ↔ leavesString line = false) := by
  have hnone := firstValue?_eq_none.1 hvalue
  refine ⟨fun vs hvs => skipsLine_iff hline hvalue hvs, ?_, ?_⟩
  · intro hskips
    refine Bool.eq_false_iff.2 fun hleaves => ?_
    obtain ⟨e, he⟩ := exists_extent_line hnone hleaves
    have hvs : AreLines limit [closingString e] := by
      intro v hv
      rw [List.mem_singleton.1 hv]
      exact ⟨wellFormed_closingString e limit, newline_not_mem_closingString e⟩
    have hext := (skipsLine_iff hline hvalue hvs).1 (hskips _ hvs)
    rw [onLines, List.intercalate_singleton] at hext
    rw [hext] at he
    cases he
  · intro hleaves vs hvs
    exact (skipsLine_iff hline hvalue hvs).2
      (extent_line_eq_none hnone hleaves (passes_onLines hvs))

/-- Two containers are left open, but no string is, and the values behind them are found. -/
theorem lines_skip_line_of_unclosed :
    '\n' ∉ "[1,\x7b\"a\":tru".toList ∧ firstValue? "[1,\x7b\"a\":tru".toList = none ∧
      AreLines none ["[2]".toList, ['3']] ∧
      (Evaluator.eval ⟨⟨true, 256⟩, fun _ => none⟩ "[1,\x7b\"a\":tru\n[2]\n3".toList
        [.lines []]).raw = "[[2],3]".toList := by
  have hline : '\n' ∉ "[1,\x7b\"a\":tru".toList := by decide
  have hvalue : firstValue? "[1,\x7b\"a\":tru".toList = none := by decide +kernel
  have hvs : AreLines none ["[2]".toList, ['3']] := by
    unfold AreLines
    decide +kernel
  have hleaves : leavesString "[1,\x7b\"a\":tru".toList = false := by decide +kernel
  have h := (lines_skip_line hline hvalue none).2.2 hleaves _ hvs ⟨⟨true, 256⟩, fun _ => none⟩ []
  have halone : (Evaluator.eval ⟨⟨true, 256⟩, fun _ => none⟩ "[2]\n3".toList
      [.lines []]).raw = "[[2],3]".toList := by
    decide +kernel
  exact ⟨hline, hvalue, hvs, h.trans halone⟩

/-- The string that the first line leaves open goes on to the quote in the second one. -/
theorem lines_skip_line_fails_in_string :
    '\n' ∉ "\"a".toList ∧ firstValue? "\"a".toList = none ∧ AreLines none ["\"b\"".toList] ∧
      (Evaluator.eval ⟨⟨true, 256⟩, fun _ => none⟩
        ("\"a".toList ++ '\n' :: onLines ["\"b\"".toList]) [.lines []]).raw =
          "[\"a\n\"]".toList ∧
      (Evaluator.eval ⟨⟨true, 256⟩, fun _ => none⟩ (onLines ["\"b\"".toList]) [.lines []]).raw =
        "[\"b\"]".toList := by
  have hvs : AreLines none ["\"b\"".toList] := by
    unfold AreLines
    decide +kernel
  refine ⟨by decide, by decide +kernel, hvs, ?_, ?_⟩
  · decide +kernel
  · decide +kernel

end Evaluator

end DotPath
