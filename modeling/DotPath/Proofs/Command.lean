import DotPath.Command
import DotPath.Proofs.Evaluator.Lines
import DotPath.Proofs.Path.Levels

/-!
# Queries on every line

With lines, a query puts two dots in front of its path and follows the result. What the dots are
read as goes up to the first pipe outside groups, and no further. So if there is no such pipe, the
path is followed from every value of the stream, unless it is refused: the scan for the pipe may
come upon a string literal that is not closed, and the path is one level deeper than on its own.

If there is a pipe, only what stands in front of it is followed from every value. The rest is
followed once, from the array of the results.

## Main results

* `Command.compile_lines`: what the path with the dots in front is compiled to.
* `Command.run_lines`: the answer of a query with lines, for every path that compiles.
-/

namespace DotPath.Command

open Json Place Selection

/-- Where a path stands behind the two dots that lines put in front of it. -/
def behindDots (text : Text) : Place :=
  ⟨2, text⟩

/-- The answer to a query whose path leads to a selection, or nowhere. -/
def answerOf (found : Selection) : Except CommandError Text :=
  if found.isPresent then .ok found.raw else .error .noMatch

/-! ## What the dots are read as -/

theorem readLines_of_pipe {nested : PathReader} {p stop : Place} (h : pipeFrom 0 p = .ok stop) :
    readLines nested p = (nested (p.upTo stop)).map fun each => (.lines each, stop) := by
  rw [readLines, h]

/-- Up to the end, a part is all of the text. -/
theorem upTo_of_rest_nil {p stop : Place} (h : stop.rest = []) : p.upTo stop = p := by
  rw [upTo, h, List.length_nil, Nat.sub_zero, List.take_length]

/-- The dots begin a path for every value, up to a pipe, and what stands behind it is read on. -/
theorem compile_dots (text : Text) :
    Path.compile ('.' :: '.' :: text) =
      match readLines (compileWithin maxNesting false) (behindDots text) with
      | .error e => .error e
      | .ok (s, q) =>
        (readRest (compileWithin maxNesting false)
          (conditionWithin maxNesting) q).map (s :: ·) := by
  rw [compile_eq_readPath (List.cons_ne_nil _ _)]
  rfl

variable {text : Text}

theorem compile_dots_of_error {e : PathError} (h : pipeFrom 0 (behindDots text) = .error e) :
    Path.compile ('.' :: '.' :: text) = .error e := by
  rw [compile_dots, readLines, h]

/-- Without a pipe, the path for every value is all that is read. -/
theorem compile_dots_of_end {stop : Place} (hstop : pipeFrom 0 (behindDots text) = .ok stop)
    (hend : stop.rest = []) :
    Path.compile ('.' :: '.' :: text) =
      (compileWithin maxNesting false (behindDots text)).map fun each => [.lines each] := by
  rw [compile_dots, readLines_of_pipe hstop, upTo_of_rest_nil hend]
  cases compileWithin maxNesting false (behindDots text) with
  | error e => rfl
  | ok each =>
      show (readRest _ _ stop).map _ = _
      rw [readRest_nil hend]
      rfl

/-- With a pipe, what stands behind it comes after the array of the results. -/
theorem compile_dots_of_pipe {stop : Place} (hstop : pipeFrom 0 (behindDots text) = .ok stop) :
    Path.compile ('.' :: '.' :: text) = do
      let each ← compileWithin maxNesting false ((behindDots text).upTo stop)
      let rest ← readRest (compileWithin maxNesting false) (conditionWithin maxNesting) stop
      return .lines each :: rest := by
  rw [compile_dots, readLines_of_pipe hstop]
  cases compileWithin maxNesting false ((behindDots text).upTo stop) with
  | error e => rfl
  | ok each =>
      show (readRest _ _ stop).map _ = do
        let rest ← readRest _ _ stop
        return .lines each :: rest
      cases readRest (compileWithin maxNesting false) (conditionWithin maxNesting) stop with
      | error e => rfl
      | ok rest => rfl

/-! ## Answers -/

theorem run_lines_of_error (env : Environment) {e : PathError}
    (h : Path.compile ('.' :: '.' :: text) = .error e) (input : Text) :
    run env (.query text true) input = .error (.path e) := by
  rw [run, queryPath, if_pos rfl, h]

theorem run_lines_of_ok (env : Environment) {each rest : Path}
    (h : Path.compile ('.' :: '.' :: text) = .ok (.lines each :: rest)) (input : Text) :
    run env (.query text true) input =
      answerOf (env.shared.resolve (env.shared.eval input [.lines each]) rest) := by
  have heval : env.shared.eval input (.lines each :: rest) =
      env.shared.resolve (env.shared.eval input [.lines each]) rest := by
    rw [Evaluator.eval, Evaluator.eval, Evaluator.resolve]
  rw [run, queryPath, if_pos rfl, h]
  dsimp only
  rw [heval]
  rfl

/-- What stands behind a pipe is followed from the array of what is in front of it. -/
theorem run_lines_of_pipe (env : Environment) {stop : Place}
    (hstop : pipeFrom 0 (behindDots text) = .ok stop) (input : Text) :
    run env (.query text true) input =
      match compileWithin maxNesting false ((behindDots text).upTo stop) with
      | .error e => .error (.path e)
      | .ok each =>
        match readRest (compileWithin maxNesting false) (conditionWithin maxNesting) stop with
        | .error e => .error (.path e)
        | .ok rest =>
          answerOf (env.shared.resolve (env.shared.eval input [.lines each]) rest) := by
  have hcompile := compile_dots_of_pipe hstop
  cases heach : compileWithin maxNesting false ((behindDots text).upTo stop) with
  | error e =>
      rw [heach] at hcompile
      exact run_lines_of_error env hcompile input
  | ok each =>
      rw [heach] at hcompile
      generalize readRest _ _ stop = found at hcompile ⊢
      cases found with
      | error e => exact run_lines_of_error env hcompile input
      | ok rest => exact run_lines_of_ok env hcompile input

/-- An array is present, whatever is in it. -/
theorem answerOf_eval_lines (ev : Evaluator) (input : Text) (each : Path) :
    answerOf (ev.eval input [.lines each]) = .ok (ev.eval input [.lines each]).raw := by
  rw [Evaluator.eval_lines]
  rfl

/-- A path that does not begin with two dots is followed from the first value of a document. -/
theorem get_eq_resolve (env : Environment) {path : Path} (h : Path.compile text = .ok path)
    (hdots : ¬ ['.', '.'] <+: text) (json : Text) :
    env.get json text = env.shared.resolve (document json) path := by
  show env.shared.get json text = _
  rw [Evaluator.get_eq_getFrom_document _ _ hdots, Evaluator.getFrom, h]

/--
A path that compiles and does not begin with two dots, as a query with lines. If the scan for a pipe
outside groups comes to the end of the path, the path is followed from every value of a stream of
well-formed values, as if the value were a document of its own, and the answer is the array of the
results. But if the path takes all levels there are, one is missing behind the dots, and the answer
is that it nests too deep, whatever the input is. A string literal that the scan finds open is
reported in the same way. If the scan stops at a pipe, what stands behind the pipe is followed from
the array of what is in front of it.
-/
theorem run_lines (env : Environment) {path : Path} (h : Path.compile text = .ok path)
    (hdots : ¬ ['.', '.'] <+: text) :
    (∀ e, pipeFrom 0 (behindDots text) = .error e →
      ∀ input, run env (.query text true) input = .error (.path e)) ∧
    (∀ stop, pipeFrom 0 (behindDots text) = .ok stop → stop.rest = [] →
      (compileWithin maxNesting false (behindDots text) = .ok path ∧
        ∀ (limit : Option Nat) (before : Spaces) (values : List (Text × Spaces)),
          (∀ e ∈ values, wellFormed limit e.1 = true) → (∀ e ∈ values.dropLast, e.2.1 ≠ []) →
            run env (.query text true) (streamSource before values) =
              .ok (composeArray ((present (values.map fun e =>
                env.get e.1 text)).map (·.raw)))) ∨
      (compileWithin maxNesting false (behindDots text) = .error (.tooDeep maxNesting) ∧
        ∀ input, run env (.query text true) input = .error (.path (.tooDeep maxNesting)))) ∧
    ∀ stop, pipeFrom 0 (behindDots text) = .ok stop → stop.rest ≠ [] → ∀ input,
      run env (.query text true) input =
        match compileWithin maxNesting false ((behindDots text).upTo stop) with
        | .error e => .error (.path e)
        | .ok each =>
          match readRest (compileWithin maxNesting false) (conditionWithin maxNesting) stop with
          | .error e => .error (.path e)
          | .ok rest =>
            answerOf (env.shared.resolve (env.shared.eval input [.lines each]) rest) := by
  refine ⟨?_, ?_, ?_⟩
  · intro e he input
    exact run_lines_of_error env (compile_dots_of_error he) input
  · intro stop hstop hend
    have hcompile := compile_dots_of_end hstop hend
    rcases compileWithin_below h hdots 2 with hdeep | hread
    · refine .inr ⟨hdeep, fun input => run_lines_of_error env ?_ input⟩
      rw [hcompile]
      show Except.map _ (compileWithin maxNesting false ⟨2, text⟩) = _
      rw [hdeep]
      rfl
    · refine .inl ⟨hread, fun limit before values hvalues hgaps => ?_⟩
      have hlines : Path.compile ('.' :: '.' :: text) = .ok [.lines path] := by
        rw [hcompile]
        show Except.map _ (compileWithin maxNesting false ⟨2, text⟩) = _
        rw [hread]
        rfl
      have hget : ∀ e : Text × Spaces,
          env.shared.resolve (document e.1) path = env.get e.1 text :=
        fun e => (get_eq_resolve env h hdots e.1).symm
      rw [run_lines_of_ok env hlines, Evaluator.resolve, answerOf_eval_lines,
        Evaluator.raw_eval_streamSource _ _ before hvalues hgaps]
      simp only [hget]
  · intro stop hstop _ input
    exact run_lines_of_pipe env hstop input

/-- An object on each of three lines; the second one lacks what the path goes on with. -/
def nestedLines : List (Text × Spaces) :=
  [("\x7b\"a\":\x7b\"b\":1\x7d\x7d".toList, .newline), ("\x7b\"a\":2\x7d".toList, .newline),
    ("\x7b\"a\":\x7b\"b\":[3]\x7d\x7d".toList, .newline)]

theorem run_lines_of_nested :
    Path.compile "a.b".toList = .ok [.field ['a'], .field ['b']] ∧
      ¬ ['.', '.'] <+: "a.b".toList ∧ (∀ e ∈ nestedLines, wellFormed none e.1 = true) ∧
      run .initial (.query "a.b".toList true)
        "\x7b\"a\":\x7b\"b\":1\x7d\x7d\n\x7b\"a\":2\x7d\n\x7b\"a\":\x7b\"b\":[3]\x7d\x7d\n".toList =
          .ok "[1,[3]]".toList := by
  have hcompile : Path.compile "a.b".toList = .ok [.field ['a'], .field ['b']] := by
    with_unfolding_all rfl
  have hdots : ¬ ['.', '.'] <+: "a.b".toList := by decide
  have hstop : pipeFrom 0 (behindDots "a.b".toList) = .ok ⟨5, []⟩ := by
    with_unfolding_all rfl
  have hread : compileWithin maxNesting false (behindDots "a.b".toList) =
      .ok [.field ['a'], .field ['b']] := by
    with_unfolding_all rfl
  have hvalues : ∀ e ∈ nestedLines, wellFormed none e.1 = true := by decide +kernel
  have hgaps : ∀ e ∈ nestedLines.dropLast, e.2.1 ≠ [] := by decide
  have hresults : ((present (nestedLines.map fun e =>
      Environment.initial.shared.resolve (document e.1) [.field ['a'], .field ['b']])).map
        (·.raw)) = ["1".toList, "[3]".toList] := by
    decide +kernel
  rcases (run_lines .initial hcompile hdots).2.1 _ hstop rfl with ⟨-, hrun⟩ | ⟨hdeep, -⟩
  · refine ⟨hcompile, hdots, hvalues, (hrun none .none nestedLines hvalues hgaps).trans ?_⟩
    simp only [get_eq_resolve .initial hcompile hdots]
    rw [hresults]
    rfl
  · rw [hread] at hdeep
    cases hdeep

/-- Behind the pipe, the key is looked up in the array, where there is none. -/
theorem run_lines_loses_pipe :
    Path.compile "a|b".toList = .ok [.field ['a'], .field ['b']] ∧
      ¬ ['.', '.'] <+: "a|b".toList ∧
      (∀ line ∈ ["\x7b\"a\":\x7b\"b\":1\x7d\x7d".toList, "\x7b\"a\":\x7b\"b\":2\x7d\x7d".toList],
        wellFormed none line = true) ∧
      composeArray ((present (["\x7b\"a\":\x7b\"b\":1\x7d\x7d".toList,
        "\x7b\"a\":\x7b\"b\":2\x7d\x7d".toList].map fun line =>
          Environment.initial.get line "a|b".toList)).map (·.raw)) = "[1,2]".toList ∧
      run .initial (.query "a|b".toList true)
        "\x7b\"a\":\x7b\"b\":1\x7d\x7d\n\x7b\"a\":\x7b\"b\":2\x7d\x7d\n".toList =
          .error .noMatch := by
  have hcompile : Path.compile "a|b".toList = .ok [.field ['a'], .field ['b']] := by
    with_unfolding_all rfl
  have hdots : ¬ ['.', '.'] <+: "a|b".toList := by decide
  have hlines : Path.compile "..a|b".toList = .ok [.lines [.field ['a']], .field ['b']] := by
    with_unfolding_all rfl
  refine ⟨hcompile, hdots, by decide +kernel, ?_, ?_⟩
  · simp only [get_eq_resolve .initial hcompile hdots]
    decide +kernel
  · refine (run_lines_of_ok .initial hlines _).trans ?_
    decide +kernel

end DotPath.Command
