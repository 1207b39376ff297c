import DotPath.Proofs.Json.Closure
import DotPath.Proofs.Json.Made
import DotPath.Proofs.Path.Embedded
import DotPath.Proofs.Registry
import DotPath.Proofs.Transformer.WellFormed

/-!
# Quoting a document and taking it out of its quotes

A text that is quoted is one string, and the string is read as the text: the reader takes back every
escape that the writer has put down, and does not decode at all where nothing had to be escaped. So
a document that is quoted comes out of its quotes as it went in. Well formed as it is, it is not
refused there.

Blanks are cut off at both ends of what is quoted. Of a document this leaves the text of its value,
since it has only space around it.

## Main results

* `Selection.document_encode`: a quoted text is one string, from its first character to its last.
* `fromStringLiteral_toStringLiteral`: what comes out of the quotes, whatever went in.
* `stringLiteral_roundTrip`: a document in quotes and out of them again, by name and by path.
-/

namespace DotPath

open Json Selection

/-! ## Quoted texts -/

namespace Selection

/-- A quoted text is one string, which begins where the text begins and ends where it ends. -/
theorem document_encode (s : Text) :
    document (Quoted.encode s) = ⟨.string, Quoted.encode s, true, some 0, []⟩ := by
  have hfills : Fills .string (Quoted.encode s) := (Value.string s).tree.fills
  rw [document, hfills.firstValue?]
  rfl

/-- As a document, a quoted text stands for the text. -/
theorem text_document_encode (s : Text) : (document (Quoted.encode s)).text = s := by
  rw [document_encode]
  exact Quoted.text_encode s

end Selection

/-- Where something is selected, a transformer is followed by the rest of the path. -/
theorem Evaluator.resolve_transform {ev : Evaluator} (hon : ev.options.transformers = true)
    {name : Text} {f : Text → Text → Text} (hfind : ev.transformer? name = some f)
    {cur : Selection} {t u : Tree} (hcur : cur.Shows t) (argument : Option Text)
    (hf : f t.source (argument.getD []) = u.source) (source : Text) (rest : Path) :
    ∃ next : Selection, next.Shows u ∧
      ev.resolve cur (.transform name argument source :: rest) = ev.resolve next rest := by
  refine ⟨ev.step cur (.transform name argument source), ?_, ?_⟩
  · refine shows_step_transform (d := .bare u) hon hfind ?_ source
    rw [hcur.2, hf, Document.source_bare]
  · rw [resolve, hcur.isPresent]
    rfl

namespace Transformer

variable {json : Text}

/-! ## Into quotes and out of them -/

/-- Without the space around its value, a document is well formed and no deeper. -/
theorem valid_trimBlank (h : valid json = true) : valid (Text.trimBlank json) = true := by
  obtain ⟨d, rfl, hfits⟩ := wellFormed_iff.1 h
  rw [trimBlank_source]
  exact wellFormed_iff.2 ⟨.bare d.root, Document.source_bare d.root, hfits⟩

/-- A text comes out of its quotes if it is well formed, and stays in them if it is not. -/
theorem fromStringLiteral_toStringLiteral (follow : Follow) (json argument argument' : Text) :
    fromStringLiteral follow (toStringLiteral follow json argument) argument' =
      if valid (Text.trimBlank json) then Text.trimBlank json
      else toStringLiteral follow json argument := by
  have htrim : Text.trimBlank (Text.trimBlank json) = Text.trimBlank json := Text.trim_trim _ json
  have hdocument : document (toStringLiteral follow json argument) =
      ⟨.string, toStringLiteral follow json argument, true, some 0, []⟩ := document_encode _
  have htext : (document (toStringLiteral follow json argument)).text = Text.trimBlank json :=
    text_document_encode _
  rw [fromStringLiteral, withoutArgument]
  dsimp only
  rw [htext, hdocument, htrim]
  rfl

/-- A document comes out of its quotes. -/
theorem fromStringLiteral_of_valid (h : valid json = true) (follow : Follow)
    (argument argument' : Text) :
    fromStringLiteral follow (toStringLiteral follow json argument) argument' =
      Text.trimBlank json := by
  rw [fromStringLiteral_toStringLiteral, if_pos (valid_trimBlank h)]

/-- A path of both transformers selects the value of the document again. -/
theorem shows_get_quoting {ev : Evaluator} {follow : Follow}
    (hon : ev.options.transformers = true)
    (hto : ev.transformer? "tostr".toList = some (toStringLiteral follow))
    (hfrom : ev.transformer? "fromstr".toList = some (fromStringLiteral follow)) {d : Document}
    (hvalid : valid d.source = true) :
    (ev.get d.source "@tostr|@fromstr".toList).Shows d.root := by
  have hcompile : Path.compile "@tostr|@fromstr".toList =
      .ok [.transform "tostr".toList none "@tostr".toList,
        .transform "fromstr".toList none "@fromstr".toList] := by
    with_unfolding_all rfl
  have hbare : Text.trimBlank d.root.source = d.root.source := by
    rw [← Document.source_bare, trimBlank_source, Document.source_bare]
    rfl
  have hroot : valid d.root.source = true := by
    rw [← trimBlank_source]
    exact valid_trimBlank hvalid
  have hquote : toStringLiteral follow d.root.source [] =
      (Value.string d.root.source).tree.source := by
    rw [toStringLiteral, withoutArgument, hbare]
    rfl
  have hunquote : fromStringLiteral follow (Value.string d.root.source).tree.source [] =
      d.root.source := by
    rw [← hquote, fromStringLiteral_of_valid hroot, hbare]
  obtain ⟨quoted, hquoted, hfirst⟩ := Evaluator.resolve_transform hon hto
    (Evaluator.shows_document d) none hquote "@tostr".toList
    [.transform "fromstr".toList none "@fromstr".toList]
  obtain ⟨last, hlast, hsecond⟩ := Evaluator.resolve_transform hon hfrom
    hquoted none hunquote "@fromstr".toList []
  rw [Evaluator.get, hcompile]
  dsimp only
  rw [ev.eval_of_ne_lines _ (fun _ h => by cases h), hfirst, hsecond, Evaluator.resolve]
  exact hlast

/--
A well-formed document that is quoted and taken out of its quotes is the document without the space
around its value, whatever the arguments of the two transformers say, and so it is if they follow
one another in a path. This holds in every registry that has no own transformers under their names.
And any text at all that is quoted is one string, from its first character to its last, which stands
for the text.
-/
theorem stringLiteral_roundTrip (env : Environment) {registry : Registry}
    (hto : registry.hasOwn "tostr".toList = false)
    (hfrom : registry.hasOwn "fromstr".toList = false) :
    (∀ json, valid json = true →
      (∃ d : Document, d.source = json ∧ d.root.source = Text.trimBlank json) ∧
      (∀ argument argument', env.apply registry
        (env.apply registry json "tostr".toList argument) "fromstr".toList argument' =
          Text.trimBlank json) ∧
      ∀ options : Options, options.transformers = true →
        ((env.evaluator registry options).get json "@tostr|@fromstr".toList).raw =
          Text.trimBlank json) ∧
    ∀ s, document (Quoted.encode s) = ⟨.string, Quoted.encode s, true, some 0, []⟩ ∧
      (document (Quoted.encode s)).text = s := by
  have hfindTo : registry.find? "tostr".toList = some toStringLiteral :=
    Registry.find?_of_hasOwn hto
  have hfindFrom : registry.find? "fromstr".toList = some fromStringLiteral :=
    Registry.find?_of_hasOwn hfrom
  refine ⟨fun json hvalid => ?_, fun s => ⟨document_encode s, text_document_encode s⟩⟩
  obtain ⟨d, rfl, -⟩ := wellFormed_iff.1 hvalid
  refine ⟨⟨d, rfl, (trimBlank_source d).symm⟩, fun argument argument' => ?_, fun options hon => ?_⟩
  · rw [Environment.apply, Environment.apply, Registry.apply, Registry.apply, hfindTo, hfindFrom]
    exact fromStringLiteral_of_valid hvalid _ _ _
  · have hquote : (env.evaluator registry options).transformer? "tostr".toList =
        some (toStringLiteral env.follow) :=
      congrArg (Option.map fun f : Transformer => f env.follow) hfindTo
    have hunquote : (env.evaluator registry options).transformer? "fromstr".toList =
        some (fromStringLiteral env.follow) :=
      congrArg (Option.map fun f : Transformer => f env.follow) hfindFrom
    rw [(shows_get_quoting hon hquote hunquote hvalid).2, trimBlank_source]

/-- A string with a quote and a control character in it, in an array with space around it. -/
theorem stringLiteral_roundTrip_of_nested :
    Registry.empty.hasOwn "tostr".toList = false ∧
      Registry.empty.hasOwn "fromstr".toList = false ∧
      valid "\t[\"\\\"\\u0001é\"] ".toList = true ∧
      (Environment.initial.shared.get "\t[\"\\\"\\u0001é\"] ".toList
        "@tostr|@fromstr".toList).raw = "[\"\\\"\\u0001é\"]".toList ∧
      (document (Quoted.encode "\"\\\n\x01é".toList)).text = "\"\\\n\x01é".toList := by
  have hvalid : valid "\t[\"\\\"\\u0001é\"] ".toList = true := by decide +kernel
  have hto : Registry.empty.hasOwn "tostr".toList = false := rfl
  have hfrom : Registry.empty.hasOwn "fromstr".toList = false := rfl
  have h := stringLiteral_roundTrip .initial hto hfrom
  have htrim : Text.trimBlank "\t[\"\\\"\\u0001é\"] ".toList = "[\"\\\"\\u0001é\"]".toList := by
    decide +kernel
  refine ⟨hto, hfrom, hvalid, ?_, (h.2 _).2⟩
  exact ((h.1 _ hvalid).2.2 Environment.initial.options rfl).trans htrim

end Transformer

end DotPath
