import DotPath.Evaluator.Basic

/-!
# Paths in two parts

A path whose segments come in two parts can be followed in two stages, the second from what the
first has selected. There is one exception: where the first part selects nothing and goes on with a
segment that is no literal, the path is not followed any further. A literal that begins the second
part would select something all the same if the second part were followed by itself.

## Main results

* `resolve_append`, `eval_append`: what a path in two parts selects, from a selection and from a
  document.
-/

namespace DotPath.Evaluator

open Json Selection

/--
Whether a path is left before its end: nothing is selected where its next segment is no literal.
-/
def stalls (ev : Evaluator) (cur : Selection) : Path → Bool
  | [] => false
  | s :: rest => (!cur.isPresent && !s.isLiteral) || stalls ev (ev.step cur s) rest

/-- Whether a path is left before its end when it is followed from a document. -/
def stallsFrom (ev : Evaluator) (json : Text) : Path → Bool
  | .lines each :: rest => ev.stalls (ev.step (wholeText json) (.lines each)) rest
  | path => ev.stalls (document json) path

variable {ev : Evaluator} {json : Text} {cur : Selection} {path : Path}

/-! ## Following a path from a selection -/

theorem resolve_append (ev : Evaluator) (cur : Selection) (first second : Path) :
    ev.resolve cur (first ++ second) =
      if ev.stalls cur first then missing else ev.resolve (ev.resolve cur first) second := by
  induction first generalizing cur with
  | nil =>
      rw [List.nil_append, stalls, resolve]
      rfl
  | cons s rest ih =>
      rw [List.cons_append, resolve, stalls, resolve]
      cases !cur.isPresent && !s.isLiteral with
      | true => rfl
      | false =>
          rw [Bool.false_or]
          exact ih (ev.step cur s)

/-! ## Following a path from a document -/

/--
The second part must not be the whole path: at the front of a path, lines take all of the text.
-/
theorem eval_append (ev : Evaluator) (json : Text) {first : Path} (hfirst : first ≠ [])
    (second : Path) :
    ev.eval json (first ++ second) =
      if ev.stallsFrom json first then missing else ev.resolve (ev.eval json first) second := by
  cases first with
  | nil => exact absurd rfl hfirst
  | cons s rest =>
      cases s with
      | lines each => exact ev.resolve_append _ rest second
      | _ => exact ev.resolve_append (document json) (_ :: rest) second

/-- A path that is left before its end selects nothing. -/
theorem eval_of_stallsFrom (h : ev.stallsFrom json path = true) : ev.eval json path = missing := by
  have hpath : path ≠ [] := by
    rintro rfl
    cases h
  have happend := ev.eval_append json hpath []
  rw [List.append_nil, h, if_pos rfl] at happend
  exact happend

end DotPath.Evaluator
