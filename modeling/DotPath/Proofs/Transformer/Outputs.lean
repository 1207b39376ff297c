import DotPath.Environment
import DotPath.Proofs.Evaluator.Abort
import DotPath.Proofs.Registry
import DotPath.Proofs.Transformer.Room
import DotPath.Proofs.Transformer.WellFormed

/-!
# Outputs of transformers

What a built-in transformer makes of a document is a document, but it need not come to make
anything: the length up to which a string is filled is taken from the argument as it is, and the
room for the filling may not be there. No machine has room for the longest filling that can be asked
for.

So there are two halves, for one transformer and for a path of them. The output is well formed if
there is one; and there is none exactly where a transformer runs out, on the document or on what the
transformers before it have made of it.

## Main results

* `evalWithin_eq_none_iff`: a path of transformers stops exactly where one of them runs out.
* `outputs_wellFormed`: both halves, for a transformer and for a path.
* `padLeft_runsOut`: an argument with which there is no output, however much room there is.
-/

namespace DotPath.Builtin

open Json Transformer

/-- A segment that applies a built-in transformer with an argument that leaves documents alone. -/
def Applies (registry : Registry) (s : Segment) : Prop :=
  ∃ name argument source b, s = .transform name argument source ∧
    registry.builtin? name = some b ∧ b.Keeps (argument.getD [])

section Paths

variable {registry : Registry} {options : Options} {follow : Follow}

/-- One transformer: the text that it makes is a document, and its root is selected. -/
theorem shows_step (hon : options.transformers = true) {cur : Selection} {t : Json.Tree}
    (hcur : cur.Shows t) {s : Segment} (hs : Applies registry s) :
    ∃ u, ((Environment.evaluatorWith registry options follow).step cur s).Shows u := by
  obtain ⟨name, argument, source, b, rfl, hname, hkeeps⟩ := hs
  obtain ⟨hb, hfind⟩ := Registry.find?_of_builtin? hname
  have hinput : IsDocument cur.raw := IsValue.isDocument ⟨t, hcur.2.symm⟩
  obtain ⟨d, hd⟩ := keepsDocument_of_mem_all hb hkeeps follow cur.raw hinput
  exact ⟨d.root, Evaluator.shows_step_transform hon (congrArg (Option.map (· follow)) hfind)
    hd.symm source⟩

/-- A path of transformers, step by step: a value stays selected. -/
theorem shows_resolve (hon : options.transformers = true) {path : Path}
    (hpath : ∀ s ∈ path, Applies registry s) {cur : Selection} {t : Json.Tree}
    (hcur : cur.Shows t) :
    ∃ u, ((Environment.evaluatorWith registry options follow).resolve cur path).Shows u := by
  induction path generalizing cur t with
  | nil =>
      rw [Evaluator.resolve]
      exact ⟨t, hcur⟩
  | cons s rest ih =>
      obtain ⟨u, hu⟩ := shows_step hon hcur (hpath s List.mem_cons_self)
      rw [Evaluator.resolve, hcur.isPresent]
      exact ih (fun r hr => hpath r (List.mem_cons_of_mem s hr)) hu

/-- A path of transformers takes no values from a stream. -/
theorem ne_lines_of_applies {path : Path} (hpath : ∀ s ∈ path, Applies registry s) (each : Path) :
    path.head? ≠ some (.lines each) := by
  intro heq
  obtain ⟨_, _, _, _, hs, -⟩ := hpath _ (List.mem_of_head? heq)
  cases hs

variable (follow) in
/-- A path of transformers leads to a value, which is the document that is made last. -/
theorem shows_eval (hon : options.transformers = true) {path : Path}
    (hpath : ∀ s ∈ path, Applies registry s) (d : Document) :
    ∃ u, ((Environment.evaluatorWith registry options follow).eval d.source path).Shows u := by
  rw [Evaluator.eval_of_ne_lines _ _ (ne_lines_of_applies hpath)]
  exact shows_resolve hon hpath (Evaluator.shows_document d)

variable {memory : Memory} {aborts : FollowAborts}

/-- One transformer aborts where it runs out. -/
theorem stepAborts_iff (hon : options.transformers = true) {cur : Selection} {s : Segment}
    (hs : Applies registry s) :
    (Environment.evaluatorWith registry options follow).stepAborts (registry.aborts memory aborts)
        cur s = true ↔
      ∃ name argument source b, s = .transform name argument source ∧
        registry.builtin? name = some b ∧ b.RunsOut memory aborts cur.raw (argument.getD []) := by
  obtain ⟨name, argument, source, b, rfl, hname, hsearch, hpluck, -⟩ := hs
  have hb := (Registry.find?_of_builtin? hname).1
  rw [Evaluator.stepAborts, show (Environment.evaluatorWith registry options follow).options =
    options from rfl, hon, Bool.true_and, Registry.aborts, hname, Option.any_some,
    aborts_iff_runsOut hb hsearch hpluck]
  constructor
  · intro h
    exact ⟨name, argument, source, b, rfl, hname, h⟩
  · rintro ⟨_, _, _, b', heq, hname', h⟩
    cases heq
    obtain rfl : b = b' := Option.some.inj (hname.symm.trans hname')
    exact h

end Paths

/-- A path stops at a transformer that runs out on what the path before it has led to. -/
def StopsAt (ev : Evaluator) (registry : Registry) (memory : Memory) (aborts : FollowAborts)
    (json : Text) (path : Path) : Prop :=
  ∃ init name argument source rest b reached,
    path = init ++ .transform name argument source :: rest ∧
      ev.evalWithin (registry.aborts memory aborts) json init = some reached ∧
      registry.builtin? name = some b ∧ b.RunsOut memory aborts reached.raw (argument.getD [])

/-- A path of transformers gives nothing exactly where one of them runs out. -/
theorem evalWithin_eq_none_iff {registry : Registry} {options : Options} {follow : Follow}
    {memory : Memory} {aborts : FollowAborts} (hon : options.transformers = true) {path : Path}
    (hpath : ∀ s ∈ path, Applies registry s) (d : Document) :
    (Environment.evaluatorWith registry options follow).evalWithin (registry.aborts memory aborts)
        d.source path = none ↔
      StopsAt (Environment.evaluatorWith registry options follow) registry memory aborts d.source
        path := by
  rw [Evaluator.evalWithin_eq_none_iff,
    Evaluator.evalAborts_of_ne_lines _ _ _ (ne_lines_of_applies hpath), Evaluator.resolveAborts_iff]
  constructor
  · rintro ⟨init, s, rest, rfl, hinit, -, hstep⟩
    have hs := hpath s (by simp)
    have happlies : ∀ s ∈ init, Applies registry s := fun s hs => hpath s (by simp [hs])
    have hlines := ne_lines_of_applies happlies
    obtain ⟨name, argument, source, b, rfl, hname, hruns⟩ := (stepAborts_iff hon hs).1 hstep
    refine ⟨init, name, argument, source, rest, b, _, rfl, Evaluator.evalWithin_eq_some_iff.2
      ⟨?_, Evaluator.eval_of_ne_lines _ _ hlines⟩, hname, hruns⟩
    rwa [Evaluator.evalAborts_of_ne_lines _ _ _ hlines]
  · rintro ⟨init, name, argument, source, rest, b, reached, rfl, hreached, hname, hruns⟩
    have hs := hpath (.transform name argument source) (by simp)
    have happlies : ∀ s ∈ init, Applies registry s := fun s hs => hpath s (by simp [hs])
    have hlines := ne_lines_of_applies happlies
    obtain ⟨hinit, rfl⟩ := Evaluator.evalWithin_eq_some_iff.1 hreached
    obtain ⟨u, hu⟩ := shows_eval follow hon happlies d
    rw [Evaluator.evalAborts_of_ne_lines _ _ _ hlines] at hinit
    rw [Evaluator.eval_of_ne_lines _ _ hlines] at hruns hu
    exact ⟨init, _, rest, rfl, hinit, hu.isPresent,
      (stepAborts_iff hon hs).2 ⟨name, argument, source, b, rfl, hname, hruns⟩⟩

/--
Whatever room there is and wherever paths abort, a built-in transformer makes a well-formed document
of a well-formed document of any depth, or it runs out; and so does a path of built-in transformers,
through whatever registry that knows them by their names. Left out are the two that follow paths for
their output, and layouts whose lines begin with other text than space.
-/
theorem outputs_wellFormed (memory : Memory) (aborts : FollowAborts) (registry : Registry)
    (follow : Follow) {json : Text} (hjson : wellFormed none json = true) :
    (∀ b ∈ all, ∀ argument, b.Keeps argument →
      (b.output? memory follow aborts json argument = none ↔
          b.RunsOut memory aborts json argument) ∧
        ∀ output ∈ b.output? memory follow aborts json argument, wellFormed none output = true) ∧
    ∀ (options : Options) (path : Path), options.transformers = true →
      (∀ s ∈ path, Applies registry s) →
        let ev := Environment.evaluatorWith registry options follow
        let result := ev.evalWithin (registry.aborts memory aborts) json path
        (result = none ↔ StopsAt ev registry memory aborts json path) ∧
          ∀ s ∈ result, wellFormed none s.raw = true := by
  have hdocument := isDocument_iff.2 hjson
  constructor
  · intro b hb argument hkeeps
    refine ⟨?_, fun output houtput => ?_⟩
    · rw [← aborts_iff_runsOut hb hkeeps.1 hkeeps.2.1, output?_eq_none_iff]
    · obtain ⟨-, rfl⟩ := output?_eq_some_iff.1 houtput
      exact isDocument_iff.1 (keepsDocument_of_mem_all hb hkeeps follow json hdocument)
  · intro options path hon hpath
    obtain ⟨d, rfl⟩ := hdocument
    refine ⟨evalWithin_eq_none_iff hon hpath d, fun s hs => ?_⟩
    obtain ⟨-, rfl⟩ := Evaluator.evalWithin_eq_some_iff.1 hs
    obtain ⟨u, hu⟩ := shows_eval follow hon hpath d
    exact isDocument_iff.1 (IsValue.isDocument ⟨u, hu.2.symm⟩)

/-- The argument of a layout with an indent of one space. -/
def oneSpace : Text :=
  "\x7b\"indent\":\" \"\x7d".toList

/-- The argument that fills up to four characters. -/
def upToFour : Text :=
  "\x7b\"length\":4,\"padding\":\"-\"\x7d".toList

theorem spacesLines_oneSpace : SpacesLines oneSpace := by
  intro indent margin sortKeys hfields v t hv ht
  have hargument : Argument.fields? ["indent".toList, "prefix".toList, "sortKeys".toList] oneSpace =
      some [some ⟨.string, 10, "\" \"".toList⟩, none, none] := by
    decide +kernel
  rw [hargument] at hfields
  cases hfields
  obtain rfl : ⟨.string, 10, "\" \"".toList⟩ = v := by simpa using hv
  have htext : Argument.text? ⟨.string, 10, "\" \"".toList⟩ = some [' '] := by decide +kernel
  rw [htext] at ht
  cases ht
  exact List.all_eq_true.1 rfl

/-- The first element of an array that has been laid out, filled up to four characters. -/
theorem outputs_wellFormed_of_filled :
    wellFormed none "[\"ab\",[]]".toList = true ∧
      ∃ s, Evaluator.evalWithin
          (Environment.evaluatorWith .empty ⟨true, 256⟩ fun _ => .error .empty)
          (Registry.aborts .empty .full fun _ _ => false) "[\"ab\",[]]".toList
          [.transform "pretty".toList (some oneSpace) [], .transform "first".toList none [],
            .transform "padLeft".toList (some upToFour) []] = some s ∧
        s.raw = "\"--ab\"".toList ∧ wellFormed none s.raw = true := by
  have hjson : wellFormed none "[\"ab\",[]]".toList = true := by decide +kernel
  refine ⟨hjson, ⟨.string, "\"--ab\"".toList, false, none, []⟩, by decide +kernel, rfl, ?_⟩
  refine ((outputs_wellFormed .full (fun _ _ => false) .empty (fun _ => .error .empty) hjson).2
    ⟨true, 256⟩ [.transform "pretty".toList (some oneSpace) [], .transform "first".toList none [],
      .transform "padLeft".toList (some upToFour) []] rfl ?_).2 _ (by decide +kernel)
  intro s hs
  simp only [List.mem_cons, List.not_mem_nil, or_false] at hs
  rcases hs with rfl | rfl | rfl
  · exact ⟨_, _, _, _, rfl, rfl, by decide, by decide, fun _ => spacesLines_oneSpace⟩
  · exact ⟨_, _, _, _, rfl, rfl, by decide, by decide, fun hname => absurd hname (by decide)⟩
  · exact ⟨_, _, _, _, rfl, rfl, by decide, by decide, fun hname => absurd hname (by decide)⟩

/-- The argument that fills up to as many characters as a machine word can count. -/
def upToWord : Text :=
  "\x7b\"length\":18446744073709551615\x7d".toList

/-- Filling up one letter to such a length runs out, however much room there is. -/
theorem padLeft_runsOut :
    wellFormed none "\"a\"".toList = true ∧
      ∃ b ∈ all, b.name = "padLeft".toList ∧ b.Keeps upToWord ∧
        ∀ memory follow aborts, b.output? memory follow aborts "\"a\"".toList upToWord = none := by
  refine ⟨by decide +kernel, aborting "padLeft" padLeft paddingAborts, by simp [all], rfl,
    ⟨by decide, by decide, fun hname => absurd hname (by decide)⟩, fun memory follow aborts => ?_⟩
  have hsize : fillingSize "\"a\"".toList upToWord = 2 ^ 64 - 2 := by decide +kernel
  have hgrants : memory.grants (2 ^ 64 - 2) = false := by
    refine Bool.eq_false_iff.2 fun h => ?_
    exact absurd (memory.le_limit _ h) (by decide)
  rw [output?_eq_none_iff]
  show (!memory.grants (fillingSize "\"a\"".toList upToWord)) = true
  rw [hsize, hgrants]
  rfl

end DotPath.Builtin
