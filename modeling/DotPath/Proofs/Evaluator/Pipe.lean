import DotPath.Proofs.Evaluator.Stages
import DotPath.Proofs.Path.Compile

/-!
# Following two paths with a pipe between them

Two paths with a pipe between them are one path, with the segments of both. So it should make no
difference whether this path is followed from a document, or the first path from the document and
then the second from what it selects. It makes none unless the first path is left before its end.
The path as a whole is left there too. But what the first path selects by itself is then nothing,
and if the second begins with a literal it goes on from nothing.

## Main results

* `get_pipe`: the segments of the whole path, and exactly when it selects the same as its parts.
* `get_pipe_loses_literal`: the two ways differ on a key inside a missing one and a literal.
-/

namespace DotPath.Evaluator

open Selection

/--
Two paths with a pipe between them are compiled to the segments of both, if the first closes what it
opens and the second does not begin with two dots. The whole path selects in a document what the
second selects from what the first selects there, exactly if the first path is not left before its
end or the second selects nothing from nothing.
-/
theorem get_pipe (first second : Text) {a b : Path} (hfirst : Path.compile first = .ok a)
    (hsecond : Path.compile second = .ok b) (hclosed : Path.isClosed first = true)
    (hdots : ¬ ['.', '.'] <+: second) :
    Path.compile (first ++ '|' :: second) = .ok (a ++ b) ∧
      ∀ (ev : Evaluator) (json : Text),
        ev.get json (first ++ '|' :: second) = ev.getFrom (ev.get json first) second ↔
          (ev.stallsFrom json a = true → ev.getFrom missing second = missing) := by
  have hwhole := compile_append hfirst hsecond hclosed hdots
  refine ⟨hwhole, fun ev json => ?_⟩
  have ha : a ≠ [] := segments_ne_nil hfirst
  have hget : ev.get json (first ++ '|' :: second) =
      if ev.stallsFrom json a then missing else ev.resolve (ev.eval json a) b := by
    rw [get, hwhole]
    exact ev.eval_append json ha b
  have hparts : ∀ s, ev.getFrom s second = ev.resolve s b := by
    intro s
    rw [getFrom, hsecond]
  have hinit : ev.get json first = ev.eval json a := by
    rw [get, hfirst]
  rw [hget, hparts, hparts, hinit]
  cases hstalls : ev.stallsFrom json a with
  | true =>
      rw [if_pos rfl, eval_of_stallsFrom hstalls]
      exact ⟨fun h _ => h.symm, fun h => (h rfl).symm⟩
  | false =>
      rw [if_neg Bool.false_ne_true]
      exact ⟨fun _ => nofun, fun _ => rfl⟩

/-- A path for the elements of an array ends at the pipe; the first of its results is taken. -/
theorem get_pipe_of_elements :
    Path.compile "#.0|0".toList = .ok [.collect [.index 0], .index 0] ∧
      Evaluator.get ⟨⟨true, 256⟩, fun _ => none⟩ "[[7]]".toList "#.0|0".toList =
        Evaluator.getFrom ⟨⟨true, 256⟩, fun _ => none⟩
          (Evaluator.get ⟨⟨true, 256⟩, fun _ => none⟩ "[[7]]".toList "#.0".toList)
          "0".toList := by
  have hfirst : Path.compile "#.0".toList = .ok [.collect [.index 0]] := by
    with_unfolding_all rfl
  have hsecond : Path.compile "0".toList = .ok [.index 0] := by
    with_unfolding_all rfl
  have h := get_pipe "#.0".toList "0".toList hfirst hsecond rfl (by decide)
  have hstalls : Evaluator.stallsFrom ⟨⟨true, 256⟩, fun _ => none⟩ "[[7]]".toList
      [.collect [.index 0]] = false := by
    decide +kernel
  refine ⟨h.1, (h.2 _ _).2 fun hstops => ?_⟩
  rw [hstalls] at hstops
  cases hstops

/-- In the empty object: a key inside a key that is missing, and then a literal. -/
theorem get_pipe_loses_literal :
    Path.compile "x.y".toList = .ok [.field ['x'], .field ['y']] ∧
      Path.compile "!1".toList = .ok [.literal ['1']] ∧
      Path.isClosed "x.y".toList = true ∧ ¬ ['.', '.'] <+: "!1".toList ∧
      Evaluator.get ⟨⟨true, 256⟩, fun _ => none⟩ ['\x7b', '\x7d'] "x.y|!1".toList = missing ∧
      Evaluator.getFrom ⟨⟨true, 256⟩, fun _ => none⟩
          (Evaluator.get ⟨⟨true, 256⟩, fun _ => none⟩ ['\x7b', '\x7d'] "x.y".toList)
          "!1".toList =
        ⟨.number, ['1'], false, none, []⟩ := by
  refine ⟨?_, ?_, rfl, by decide, ?_, ?_⟩
  · with_unfolding_all rfl
  · with_unfolding_all rfl
  · decide +kernel
  · decide +kernel

end DotPath.Evaluator
