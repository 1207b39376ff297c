import DotPath.Proofs.Indexed.Compile
import DotPath.Proofs.Indexed.Evaluator

/-!
# Everything by index

Paths are compiled and followed from documents, one by one and in batches, with every index in its
place. All of it is defined for all texts: nothing is read out of range, no text is cut inside a
character, no subtraction goes below zero, and every loop comes to an end.

## Main results

* `compile_eq`, `eval_eq`, `evalAll_eq`: compiling, following a path, and all of its results.
* `getMany_eq`: a batch of paths puts each result in a place that it has.
* `engine_defined`: all of this at once, with what is read off the results.
-/

namespace DotPath.Indexed

open Json Selection
open Evaluator (Pending asResults pendingPaths wholeText)

/-! ## From documents -/

/-- Follows a path from a document. -/
def eval (depth : Nat) (json : Text) (path : Path) : Part Selection :=
  match path with
  | .lines each :: rest => do resolve depth (← step depth (wholeText json) (.lines each)) rest
  | _ => do resolve depth (← document json) path

/-- The results that a segment would gather into an array, one by one. -/
def items (depth : Nat) (cur : Selection) : Segment → Part (List Selection)
  | .collect each => do
    if cur.isArray then return present (← (← array cur).mapM fun e => resolve depth e each)
    else return []
  | .query condition true each => do
    if cur.raw.asOctets[0]? == some '[' then
      let found ← (← elementViews cur).filterM fun e => holds depth e condition
      return (present (← found.mapM fun e => resolve depth e each)).map cur.derivedFrom
    else return []
  | .descend pattern each => do
    let found ← descendants cur depth pattern
    return (present (← found.mapM fun e => resolve depth e each)).map cur.derivedFrom
  | .lines each => do
    let found ← streamViews cur
    return (present (← found.mapM fun e => resolve depth e each)).map cur.derivedFrom
  | _ => pure []

/-- Every result of a path on a document. -/
def evalAll (depth : Nat) (json : Text) (path : Path) : Part (List Selection) :=
  match path.getLast? with
  | some last =>
    if !last.gathers then asResults <$> eval depth json path
    else
      match path.dropLast, last with
      | [], .lines each => items depth (wholeText json) (.lines each)
      | init, last => do
        let cur ← eval depth json init
        if cur.isPresent then items depth cur last else return []
  | none => asResults <$> eval depth json path

/-! ## From the texts of paths -/

/-- Follows a path, given as text, from a document. -/
def get? (depth : Nat) (json path : Text) : Part (Except PathError Selection) := do
  match ← (compile path).run with
  | .ok segments => return .ok (← eval depth json segments)
  | .error e => return .error e

/-- Every result of a path, given as text. -/
def getAll (depth : Nat) (json path : Text) : Part (List Selection) := do
  match ← (compile path).run with
  | .ok segments => evalAll depth json segments
  | .error _ => return []

/-- Follows a path, given as text, from a selection. -/
def getFrom (depth : Nat) (cur : Selection) (path : Text) : Part Selection := do
  match ← (compile path).run with
  | .ok segments => resolve depth cur segments
  | .error _ => return missing

/-! ## Batches -/

/-- Puts a result in a place that there must be. -/
def put (results : List Selection) (slot : Nat) (r : Selection) : Part (List Selection) :=
  .assert (slot < results.length) fun _ => .some (results.set slot r)

/-- Tries a member, whose key is `literal`, on the pending paths. Those that it answers are dropped. -/
def retain (depth : Nat) (json literal : Text) (value : Span) :
    List Pending → List Selection → Part (List Selection × List Pending)
  | [], results => pure (results, [])
  | p :: rest, results => do
    if ← keyEquals literal p.name then
      let r ← resolve depth (← view json (some 0) value) p.rest
      retain depth json literal value rest (← put results p.slot r)
    else
      let left ← retain depth json literal value rest results
      return (left.1, p :: left.2)

/-- One pass over the members of a document. -/
def answer (depth : Nat) (json : Text) (results : List Selection) (pending : List Pending) :
    List (Span × Span) → Part (List Selection)
  | [] => pure results
  | m :: rest => do
    if pending.isEmpty then return results
    else
      let literal ← slice json m.1.start m.1.stop
      let left ← retain depth json literal m.2 pending results
      answer depth json left.1 left.2 rest

/-- Where the results of a batch start from. -/
def firstResult (depth : Nat) (json : Text) : Except PathError Path → Part Selection
  | .ok (.field _ :: _) => pure missing
  | .ok path => eval depth json path
  | .error _ => pure missing

/-- Follows several paths from one document. -/
def getMany (depth : Nat) (json : Text) (paths : List Text) : Part (List Selection) := do
  let compiled ← paths.mapM fun path => (compile path).run
  let results ← compiled.mapM (firstResult depth json)
  if (pendingPaths compiled).isEmpty then return results
  else
    match ← firstValue json with
    | none => return results
    | some root =>
      let found ← members json.asOctets root.start
      answer depth json results (pendingPaths compiled) found

/-! ## Where they lead -/

/-- Compilation is defined for every text. -/
theorem compile_eq (t : Text) : (compile t).run = .some (Path.compile t) := by
  rw [(compile_mirrors t).run_eq]
  cases Path.compile t <;> rfl

section Documents

variable (ev : Evaluator)

theorem delimited_wholeText (json : Text) :
    Delimited (wholeText json).kind (wholeText json).raw :=
  ⟨by rintro ⟨⟩, by rintro ⟨⟩⟩

theorem eval_eq (hoff : ev.options.transformers = false) (json : Text) (path : Path) :
    eval ev.options.maxDepth json path = .some (ev.eval json path) := by
  unfold eval
  split
  · next each rest =>
      have hwhole := delimited_wholeText json
      rw [step_eq ev hoff (.lines each) hwhole, some_bind]
      exact resolve_eq ev hoff rest (isRightFor_delimited.step ev hwhole (.lines each))
  · next hlines =>
      have hhead : ∀ each, path.head? ≠ some (.lines each) := by
        intro each hhead
        obtain ⟨rest, hrest⟩ := List.head?_eq_some_iff.1 hhead
        exact hlines each rest hrest
      rw [document_eq, some_bind, ev.eval_of_ne_lines json hhead]
      exact resolve_eq ev hoff path (isRightFor_delimited.document json)

theorem items_eq (hoff : ev.options.transformers = false) (s : Segment) {cur : Selection}
    (h : Delimited cur.kind cur.raw) :
    items ev.options.maxDepth cur s = .some (ev.items cur s) := by
  have hfollow := fun (each : Path) (found : List Selection)
      (hfound : ∀ e ∈ found, Delimited e.kind e.raw) =>
    mapM_self fun e he => resolve_eq ev hoff each (hfound e he)
  cases s with
  | collect each =>
      rw [items, Evaluator.items, array_eq, some_bind,
        hfollow each _ fun e he => isRightFor_delimited.of_mem_array h he, some_bind]
      exact (apply_ite Part.some _ _ _).symm
  | query condition all each =>
      cases all with
      | false => rfl
      | true =>
          have hholds := fun e (he : e ∈ cur.elementViews) =>
            holds_eq ev hoff condition (delimited_of_mem_elementViews he)
          rw [items, Evaluator.items, octets_opensArray, elementViews_eq, some_bind,
            filterM_self hholds, some_bind,
            hfollow each _ fun e he => delimited_of_mem_elementViews (List.mem_filter.1 he).1,
            some_bind]
          cases harray : opensArray cur.raw with
          | true => rfl
          | false =>
              rw [elementViews_eq_nil harray]
              rfl
  | descend pattern each =>
      rw [items, Evaluator.items, descendants_eq, some_bind,
        hfollow each _ fun e he => (isRightFor_delimited.parts cur).of_mem_descendants he]
      exact some_bind _ _
  | lines each =>
      rw [items, Evaluator.items, streamViews_eq, some_bind,
        hfollow each _ fun e he => (isRightFor_delimited.parts cur).of_mem_streamViews he]
      exact some_bind _ _
  | _ => rfl

theorem evalAll_eq (hoff : ev.options.transformers = false) (json : Text) (path : Path) :
    evalAll ev.options.maxDepth json path = .some (ev.evalAll json path) := by
  have hone : asResults <$> eval ev.options.maxDepth json path =
      .some (asResults (ev.eval json path)) := by
    rw [eval_eq ev hoff]
    exact Part.map_some _ _
  have hinner : ∀ (init : Path) (last : Segment), (do
      let cur ← eval ev.options.maxDepth json init
      if cur.isPresent then items ev.options.maxDepth cur last else return [] :
        Part (List Selection)) =
      .some (if (ev.eval json init).isPresent then ev.items (ev.eval json init) last else []) := by
    intro init last
    rw [eval_eq ev hoff, some_bind, items_eq ev hoff _ (isRightFor_delimited.eval ev json init)]
    exact (apply_ite Part.some _ _ _).symm
  unfold evalAll Evaluator.evalAll
  cases path.getLast? with
  | none => exact hone
  | some last =>
      dsimp only
      split
      · exact hone
      · cases path.dropLast with
        | cons s init => exact hinner (s :: init) last
        | nil =>
            cases last with
            | lines each => exact items_eq ev hoff (.lines each) (delimited_wholeText json)
            | _ => exact hinner [] _

theorem get?_eq (hoff : ev.options.transformers = false) (json path : Text) :
    get? ev.options.maxDepth json path = .some (ev.get? json path) := by
  rw [get?, Evaluator.get?, compile_eq, some_bind]
  cases Path.compile path with
  | ok segments =>
      dsimp only
      rw [eval_eq ev hoff]
      exact some_bind _ _
  | error e => rfl

theorem getAll_eq (hoff : ev.options.transformers = false) (json path : Text) :
    getAll ev.options.maxDepth json path = .some (ev.getAll json path) := by
  rw [getAll, Evaluator.getAll, compile_eq, some_bind]
  cases Path.compile path with
  | ok segments => exact evalAll_eq ev hoff json segments
  | error e => rfl

theorem getFrom_eq (hoff : ev.options.transformers = false) {cur : Selection}
    (h : Delimited cur.kind cur.raw) (path : Text) :
    getFrom ev.options.maxDepth cur path = .some (ev.getFrom cur path) := by
  rw [getFrom, Evaluator.getFrom, compile_eq, some_bind]
  cases Path.compile path with
  | ok segments => exact resolve_eq ev hoff segments h
  | error e => rfl

/-- A member is tried on every pending path, and each result has its place. -/
theorem retain_eq (hoff : ev.options.transformers = false) {json : Text} {m : Member}
    (hvalue : m.value.IsIn json) (hkey : Fills .string m.key.raw) {pending : List Pending}
    {results : List Selection} (hslots : ∀ p ∈ pending, p.slot < results.length) :
    retain ev.options.maxDepth json m.key.raw (.of m.value) pending results =
      .some ((pending.filter (·.name == Quoted.text m.key.raw)).foldl
          (ev.place (ofOccurrence (some 0) m.value)) results,
        pending.filter fun p => !(p.name == Quoted.text m.key.raw)) := by
  induction pending generalizing results with
  | nil => rfl
  | cons p rest ih =>
      have hslot := hslots p List.mem_cons_self
      have hrest := fun q hq => hslots q (List.mem_cons_of_mem p hq)
      rw [retain, keyEquals_eq hkey, some_bind, BEq.comm, List.filter_cons, List.filter_cons]
      cases p.name == Quoted.text m.key.raw with
      | true =>
          have hput : put results p.slot (ev.resolve (ofOccurrence (some 0) m.value) p.rest) =
              .some (ev.place (ofOccurrence (some 0) m.value) results p) := Part.assert_pos hslot
          rw [if_pos rfl, view_eq hvalue.1, some_bind,
            resolve_eq ev hoff p.rest (delimited_of_fills hvalue.2), some_bind, hput, some_bind]
          refine ih fun q hq => ?_
          rw [Evaluator.place, List.length_set]
          exact hrest q hq
      | false =>
          rw [if_neg Bool.false_ne_true, ih hrest]
          exact some_bind _ _

theorem answer_eq (hoff : ev.options.transformers = false) {json : Text} {found : List Member}
    (hfound : ∀ m ∈ found, m.value.IsIn json ∧ m.key.IsIn json ∧ m.key.kind = .string)
    {pending : List Pending} {results : List Selection}
    (hslots : ∀ p ∈ pending, p.slot < results.length) :
    answer ev.options.maxDepth json results pending (found.map spans) =
      .some (ev.answer results pending found) := by
  induction found generalizing pending results with
  | nil => rfl
  | cons m found ih =>
      obtain ⟨hvalue, ⟨hstands, hkey⟩, hkind⟩ := hfound m List.mem_cons_self
      rw [hkind] at hkey
      have hliteral : slice json (spans m).1.start (spans m).1.stop = .some m.key.raw :=
        slice_of hstands
      have hretain : retain ev.options.maxDepth json m.key.raw (spans m).2 pending results = _ :=
        retain_eq ev hoff hvalue hkey hslots
      rw [List.map_cons, answer, Evaluator.answer]
      split
      · rfl
      · rw [hliteral, some_bind, hretain, some_bind, List.partition_eq_filter_filter]
        refine ih (fun n hn => hfound n (List.mem_cons_of_mem m hn)) fun p hp => ?_
        rw [Evaluator.length_foldl_place]
        exact hslots p (List.mem_filter.1 hp).1

/-- Where no path is pending, the members are passed over. -/
theorem answer_nil (results : List Selection) (found : List Member) :
    ev.answer results [] found = results := by
  cases found <;> rfl

theorem firstResult_eq (hoff : ev.options.transformers = false) (json : Text)
    (path : Except PathError Path) :
    firstResult ev.options.maxDepth json path = .some (ev.firstResult json path) := by
  unfold firstResult Evaluator.firstResult
  rcases path with e | _ | ⟨s, rest⟩
  · rfl
  · exact eval_eq ev hoff json []
  · cases s with
    | field name => rfl
    | _ => exact eval_eq ev hoff json _

/-- A batch is answered, with a place for each of its results. -/
theorem getMany_eq (hoff : ev.options.transformers = false) (json : Text) (paths : List Text) :
    getMany ev.options.maxDepth json paths = .some (ev.getMany json paths) := by
  have hends := ends_start json
  have hcompiled : paths.mapM (fun path => (compile path).run) = .some (paths.map Path.compile) :=
    mapM_self fun path _ => compile_eq path
  have hresults : (paths.map Path.compile).mapM (firstResult ev.options.maxDepth json) = _ :=
    mapM_self fun path _ => firstResult_eq ev hoff json path
  have hslots : ∀ p ∈ pendingPaths (paths.map Path.compile),
      p.slot < ((paths.map Path.compile).map (ev.firstResult json)).length := by
    intro p hp
    rw [List.length_map]
    exact (List.getElem?_eq_some_iff.1 (Evaluator.mem_pendingPaths.1 hp)).1
  have hroot := (Place.start_liesIn json).skipSpace
  have hfound : ∀ m ∈ membersAt (Place.start json).skipSpace,
      m.value.IsIn json ∧ m.key.IsIn json ∧ m.key.kind = .string :=
    fun m hm => ⟨isIn_of_mem_membersAt hroot hm, key_of_mem_membersAt hroot hm⟩
  rw [getMany, Evaluator.getMany, hcompiled, some_bind, hresults, some_bind, firstValue_eq,
    some_bind, firstValue?]
  generalize pendingPaths (paths.map Path.compile) = pending at hslots
  cases hvalue : (Place.start json).skipSpace.value? with
  | none => exact ite_self _
  | some r =>
      obtain ⟨root, next⟩ := r
      have hstart : (Span.of root).start = (Place.start json).skipSpace.offset :=
        (Place.eq_of_value? hvalue).2.1
      dsimp only [Option.map_some]
      rw [hstart, members_place (ends_skipSpace (ends_start json)), some_bind,
        answer_eq ev hoff hfound hslots]
      split
      · next hnone =>
          rw [List.isEmpty_iff.1 hnone, answer_nil]
          rfl
      · rfl

end Documents

/-! ## All of it -/

/-- What a visitor sees is delimited: the selection itself, or what is found in it. -/
theorem delimited_of_mem_visits {s : Selection} (h : Delimited s.kind s.raw)
    {visit : Selection × Selection} (hv : visit ∈ s.visits) :
    Delimited visit.1.kind visit.1.raw ∧ Delimited visit.2.kind visit.2.raw := by
  unfold Selection.visits at hv
  split at hv
  · cases hv
  · split at hv
    · obtain ⟨m, hm, rfl⟩ := List.mem_map.1 hv
      exact ⟨delimited_of_fills (key_of_mem_members hm).1.2,
        delimited_of_fills (isIn_of_mem_members hm).2⟩
    · split at hv
      · obtain ⟨v, hmem, rfl⟩ := List.mem_map.1 hv
        exact ⟨isRightFor_delimited.nothing, delimited_of_fills (isIn_of_mem_elements hmem).2⟩
      · rw [List.mem_singleton.1 hv]
        exact ⟨isRightFor_delimited.nothing, h⟩

/--
With transformers off, compiling and evaluating are defined for every text of a document, every text
of a path and every depth, and they give what the readers on places give. So no index is out of
range, no text is cut inside a character, no depth is subtracted from zero, and every loop ends. What
is reached from the document can be read, visited, compared and searched further in the same way.
No position that an error reports is behind the end of the path.
-/
theorem engine_defined (ev : Evaluator) (hoff : ev.options.transformers = false)
    (json path : Text) (paths : List Text) :
    (compile path).run = .some (Path.compile path) ∧
    (∀ e, Path.compile path = .error e → e.Within (Text.byteLength path)) ∧
    get? ev.options.maxDepth json path = .some (ev.get? json path) ∧
    getAll ev.options.maxDepth json path = .some (ev.getAll json path) ∧
    getMany ev.options.maxDepth json paths = .some (ev.getMany json paths) ∧
    ∀ s, Reached json s →
      Accessible s ∧
      (∀ visit ∈ s.visits, Accessible visit.1 ∧ Accessible visit.2) ∧
      (∀ t, Reached json t → ∀ caseSensitive,
        less s t caseSensitive = .some (s.less t caseSensitive)) ∧
      getFrom ev.options.maxDepth s path = .some (ev.getFrom s path) := by
  refine ⟨compile_eq path, fun e => (compile_mirrors path).within, get?_eq ev hoff json path,
    getAll_eq ev hoff json path, getMany_eq ev hoff json paths, fun s hs => ?_⟩
  have hdelimited := hs.located.delimited
  refine ⟨accessible_of_delimited hdelimited, fun visit hv => ?_, fun t ht => ?_,
    getFrom_eq ev hoff hdelimited path⟩
  · obtain ⟨hkey, hvalue⟩ := delimited_of_mem_visits hdelimited hv
    exact ⟨accessible_of_delimited hkey, accessible_of_delimited hvalue⟩
  · exact less_eq hdelimited ht.located.delimited

/-- An accented key, whose value closes with the wrong bracket, and a path that does not close. -/
theorem engine_defined_of_accented :
    Path.compile ['é', '.', '['] = .error (.unbalanced 3 4) ∧
      PathError.Within (Text.byteLength ['é', '.', '[']) (.unbalanced 3 4) ∧
      truthy (Evaluator.get ⟨⟨false, 1⟩, fun _ => none⟩
        ['\x7b', '"', 'é', '"', ':', '[', ' ', '\x7d', '\x7d'] ['é']) = .some false := by
  have h := engine_defined ⟨⟨false, 1⟩, fun _ => none⟩ rfl
    ['\x7b', '"', 'é', '"', ':', '[', ' ', '\x7d', '\x7d'] ['é', '.', '['] []
  have hcompile : Path.compile ['é', '.', '['] = .error (.unbalanced 3 4) := by
    with_unfolding_all rfl
  have htruthy := (h.2.2.2.2.2 _ (.get ⟨⟨false, 1⟩, fun _ => none⟩ ['é'])).1.truthy
  have hfalse : Selection.truthy (Evaluator.get ⟨⟨false, 1⟩, fun _ => none⟩
      ['\x7b', '"', 'é', '"', ':', '[', ' ', '\x7d', '\x7d'] ['é']) = false := by
    decide +kernel
  rw [hfalse] at htruthy
  exact ⟨hcompile, h.2.1 _ hcompile, htruthy⟩

end DotPath.Indexed
