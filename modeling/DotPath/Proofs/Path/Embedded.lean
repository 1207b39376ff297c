import Mathlib.Data.List.DropRight
import DotPath.Proofs.Path.Plain

/-!
# Escaped keys inside other components

An escaped key is put into a selector, into a query or behind the sign for all elements. Before it
is read there, the text is looked over for the bracket that closes the group, for pipes, commas,
ampersands and operators. Each of these scans goes over a guarded text as if it were not there,
since it stops at bare marks only.

One thing is done to the text besides: entries and comparisons lose the space around them. Space is
no mark, so a key that begins or ends with space is read without it, and a key that is nothing else
is not read at all. The path behind the sign for all elements keeps its space.

## Main results

* `GoesOver`, `Guarded.scan_append`: what a scan has to do so that it goes over a guarded text.
* `compile_collect`, `compile_selector`, `compile_query`: what is read, for every key.
* `compile_escapeComponent_inside`: the keys that are read back as they are.
-/

namespace DotPath

open Json Place

/-! ## Space around a text -/

namespace Text

/-- A text without space at its ends loses nothing more. -/
theorem trim_trim (p : Char → Bool) (t : Text) : trim p (trim p t) = trim p t := by
  have hfront : (trim p t).dropWhile p = trim p t := by
    cases hv : trim p t with
    | nil => rfl
    | cons c v =>
        obtain ⟨w, hw⟩ : trim p t <+: t.dropWhile p := List.rdropWhile_prefix p _
        rw [hv] at hw
        have hc : p c = false := lacks_dropWhile p t c (by rw [← hw]; rfl)
        exact List.dropWhile_cons_of_neg (by rw [hc]; exact Bool.false_ne_true)
  calc trim p (trim p t) = ((trim p t).dropWhile p).rdropWhile p := rfl
    _ = (trim p t).rdropWhile p := by rw [hfront]
    _ = trim p t := List.rdropWhile_idempotent p _

end Text

namespace Place

theorem rest_trim (p : Place) (c : Char → Bool) : (p.trim c).rest = Text.trim c p.rest := by
  rw [trim, rest_skipWhile]
  rfl

theorem upTo_append (k j : Nat) (s t : Text) : upTo ⟨k, s ++ t⟩ ⟨j, t⟩ = ⟨k, s⟩ := by
  have hlength : (s ++ t).length - t.length = s.length := by
    rw [List.length_append]
    omega
  rw [upTo, hlength, List.take_left]

end Place

theorem not_mem_pathMarks_of_isPathSpace {c : Char} (hc : isPathSpace c = true) :
    c ∉ pathMarks := by
  have hnone : pathMarks.all (!isPathSpace ·) = true := rfl
  intro hmem
  have hmark := List.all_eq_true.1 hnone c hmem
  rw [hc] at hmark
  cases hmark

theorem dropWhile_escapeComponent (key : Text) :
    (escapeComponent key).dropWhile isPathSpace = escapeComponent (key.dropWhile isPathSpace) := by
  induction key with
  | nil => rfl
  | cons c key ih =>
      by_cases hc : isPathSpace c = true
      · rw [escapeComponent_cons, if_neg (not_mem_pathMarks_of_isPathSpace hc),
          List.dropWhile_cons_of_pos hc, List.dropWhile_cons_of_pos hc, ih]
      · rw [List.dropWhile_cons_of_neg hc, escapeComponent_cons]
        split
        · exact List.dropWhile_cons_of_neg (by decide)
        · exact List.dropWhile_cons_of_neg hc

theorem rdropWhile_escapeComponent (key : Text) :
    (escapeComponent key).rdropWhile isPathSpace =
      escapeComponent (key.rdropWhile isPathSpace) := by
  induction key using List.reverseRecOn with
  | nil => rfl
  | append_singleton key c ih =>
      have hconcat : escapeComponent (key ++ [c]) = escapeComponent key ++ escapeComponent [c] :=
        List.flatMap_append
      by_cases hc : isPathSpace c = true
      · have hone : escapeComponent [c] = [c] := by
          rw [escapeComponent_cons, if_neg (not_mem_pathMarks_of_isPathSpace hc)]
          rfl
        rw [hconcat, hone, List.rdropWhile_concat_pos _ _ _ hc,
          List.rdropWhile_concat_pos _ _ _ hc, ih]
      · -- With its backslash or without, the character stays the last one.
        obtain ⟨u, hu⟩ : ∃ u, escapeComponent (key ++ [c]) = u ++ [c] := by
          rw [hconcat, escapeComponent_cons]
          split
          · exact ⟨escapeComponent key ++ ['\\'], by rw [List.append_assoc]; rfl⟩
          · exact ⟨escapeComponent key, rfl⟩
        rw [List.rdropWhile_concat_neg _ _ _ hc, hu, List.rdropWhile_concat_neg _ _ _ hc]

/-- Escaping a key leaves the space around it as it is. -/
theorem trim_escapeComponent (key : Text) :
    Text.trim isPathSpace (escapeComponent key) =
      escapeComponent (Text.trim isPathSpace key) := by
  calc Text.trim isPathSpace (escapeComponent key)
      = ((escapeComponent key).dropWhile isPathSpace).rdropWhile isPathSpace := rfl
    _ = (escapeComponent (key.dropWhile isPathSpace)).rdropWhile isPathSpace := by
        rw [dropWhile_escapeComponent]
    _ = escapeComponent (Text.trim isPathSpace key) := rdropWhile_escapeComponent _

/-! ## Scans over a guarded text -/

/-- A bare character without a meaning of its own leaves every scan as it is. -/
theorem scan_of_not_mem_pathMarks {c : Char} (hc : c ∉ pathMarks) :
    (closingOf? c = none ∧ isGroupEnd c = false) ∧ c ≠ '"' ∧ c ≠ '|' ∧
      ∀ t, operator? (c :: t) = none := by
  simp only [pathMarks, List.mem_cons, not_or] at hc
  refine ⟨⟨?_, ?_⟩, ?_, ?_, ?_⟩
  · simp [closingOf?, hc]
  · simp [isGroupEnd, hc]
  · simp [hc]
  · simp [hc]
  · intro t
    unfold operator?
    split <;> simp_all

/-- Brackets are bare characters, and a closing one opens nothing. -/
theorem bare_of_closingOf? {opening due : Char} (h : closingOf? opening = some due) :
    (opening ≠ '\\' ∧ opening ≠ '"') ∧ (due ≠ '\\' ∧ due ≠ '"') ∧
      closingOf? due = none ∧ isGroupEnd due = true := by
  unfold closingOf? at h
  split_ifs at h
  all_goals simp_all
  all_goals subst h
  all_goals decide

/-- A group that the scan goes over is closed by the bracket behind it. -/
theorem groupEnd_of_closeFrom {opening due : Char} (hopen : closingOf? opening = some due) {k : Nat}
    {t tail : Text} (hgo : closeFrom k [due] ⟨k + opening.utf8Size, t ++ due :: tail⟩ =
      closeFrom k [due] ⟨k + opening.utf8Size + Text.byteLength t, due :: tail⟩) :
    groupEnd ⟨k, opening :: (t ++ due :: tail)⟩ =
      .ok ⟨k + opening.utf8Size + Text.byteLength t, due :: tail⟩ := by
  obtain ⟨⟨hslash, hquote⟩, ⟨hslash', hquote'⟩, hdue, hend⟩ := bare_of_closingOf? hopen
  have hskip : (Place.mk k (opening :: (t ++ due :: tail))).skip 1 =
      ⟨k + opening.utf8Size, t ++ due :: tail⟩ := rfl
  rw [groupEnd, closeFrom_bare (unit?_bare rfl hslash hquote), hopen, hskip]
  show closeFrom k [due] _ = _
  rw [hgo, closeFrom_bare (unit?_bare rfl hslash' hquote'), hdue, if_pos hend]
  simp

/--
A scan that goes over what a backslash protects, and over bare characters without a meaning of their
own.
-/
structure GoesOver {α : Type} (scan : Place → α) : Prop where
  unit : ∀ {p q : Place}, p.unit? = .ok (some (none, q)) → scan p = scan q
  bare : ∀ {p q : Place} {c : Char} {t : Text}, c ∉ pathMarks → p.rest = c :: t →
    p.unit? = .ok (some (some c, q)) → scan p = scan q

theorem closeFrom_goesOver (opening : Nat) (stack : List Char) :
    GoesOver (closeFrom opening stack) := by
  refine ⟨closeFrom_unit, ?_⟩
  intro p q c t hc _ hunit
  obtain ⟨⟨hopen, hend⟩, -⟩ := scan_of_not_mem_pathMarks hc
  rw [closeFrom_bare hunit, hopen, hend]
  rfl

theorem pipeFrom_goesOver (depth : Nat) : GoesOver (pipeFrom depth) := by
  refine ⟨pipeFrom_unit, ?_⟩
  intro p q c t hc _ hunit
  obtain ⟨⟨hopen, hend⟩, -, hpipe, -⟩ := scan_of_not_mem_pathMarks hc
  rw [pipeFrom_bare hunit, depthAfter, hopen, hend]
  simp [hpipe]

theorem splitFrom_goesOver {mark : Char} (hmark : mark ∈ pathMarks) (rest : Text) (part : Place)
    (depth : Nat) : GoesOver (splitFrom (mark :: rest) part depth) := by
  refine ⟨splitFrom_unit, ?_⟩
  intro p q c t hc hp hunit
  obtain ⟨⟨hopen, hend⟩, -⟩ := scan_of_not_mem_pathMarks hc
  have hne : mark ≠ c := by
    rintro rfl
    exact hc hmark
  rw [splitFrom_bare hunit, depthAfter, hopen, hend, hp]
  simp [hne]

theorem operatorFrom_goesOver (depth : Nat) : GoesOver (operatorFrom depth) := by
  refine ⟨operatorFrom_unit, ?_⟩
  intro p q c t hc hp hunit
  obtain ⟨⟨hopen, hend⟩, -, -, hnone⟩ := scan_of_not_mem_pathMarks hc
  rw [operatorFrom_bare hunit, hp, hnone, depthAfter, hopen, hend]
  cases depth with
  | zero => rfl
  | succ depth => rfl

namespace Guarded

variable {t : Text}

/-- A scan goes over a guarded text as if it were not there. -/
theorem scan_append {α : Type} {scan : Place → α} (h : Guarded t) (hscan : GoesOver scan) (k : Nat)
    (tail : Text) : scan ⟨k, t ++ tail⟩ = scan ⟨k + Text.byteLength t, tail⟩ := by
  induction h generalizing k with
  | nil => rfl
  | @bare c t hc _ ih =>
      obtain ⟨⟨hslash, -⟩, -⟩ := of_not_mem_pathMarks hc
      obtain ⟨-, hquote, -⟩ := scan_of_not_mem_pathMarks hc
      have hskip : (Place.mk k (c :: t ++ tail)).skip 1 = ⟨k + c.utf8Size, t ++ tail⟩ := rfl
      rw [hscan.bare hc rfl (unit?_bare rfl hslash hquote), hskip, ih, Text.byteLength_cons,
        Nat.add_assoc]
  | @escaped c t _ ih =>
      have hskip : (Place.mk k ('\\' :: c :: t ++ tail)).skip 2 =
          ⟨k + ('\\'.utf8Size + c.utf8Size), t ++ tail⟩ := rfl
      rw [hscan.unit (unit?_backslash rfl), hskip, ih, Text.byteLength_cons,
        Text.byteLength_cons, Nat.add_assoc, Nat.add_assoc]

/-- It goes to the end, if the text ends there. -/
theorem scan_eq {α : Type} {scan : Place → α} (h : Guarded t) (hscan : GoesOver scan) (k : Nat) :
    scan ⟨k, t⟩ = scan ⟨k + Text.byteLength t, []⟩ := by
  have happend := h.scan_append hscan k []
  rwa [List.append_nil] at happend

/-- The bracket behind a guarded text is the one that closes the group in front of it. -/
theorem groupEnd_append (h : Guarded t) {opening due : Char} (hopen : closingOf? opening = some due)
    (k : Nat) (tail : Text) :
    groupEnd ⟨k, opening :: (t ++ due :: tail)⟩ =
      .ok ⟨k + opening.utf8Size + Text.byteLength t, due :: tail⟩ :=
  groupEnd_of_closeFrom hopen (h.scan_append (closeFrom_goesOver k [due]) _ _)

/-- No pipe outside groups stands in a guarded text. -/
theorem pipeFrom_eq (h : Guarded t) (k : Nat) :
    pipeFrom 0 ⟨k, t⟩ = .ok ⟨k + Text.byteLength t, []⟩ := by
  rw [h.scan_eq (pipeFrom_goesOver 0), pipeFrom_nil rfl]

/-- A guarded text is one part, whatever mark parts are separated by. -/
theorem splitParts_eq (h : Guarded t) {mark : Char} (hmark : mark ∈ pathMarks) (rest : Text)
    (k : Nat) : splitParts (mark :: rest) ⟨k, t⟩ = .ok [⟨k, t⟩] := by
  rw [splitParts, h.scan_eq (splitFrom_goesOver hmark rest ⟨k, t⟩ 0), splitFrom_nil rfl]

/-- No operator outside groups stands in a guarded text. -/
theorem operatorFrom_eq (h : Guarded t) (k : Nat) : operatorFrom 0 ⟨k, t⟩ = .ok none := by
  rw [h.scan_eq (operatorFrom_goesOver 0), operatorFrom_nil rfl]

end Guarded

/-! ## What is read around a guarded text -/

/-- The reader reads a guarded text as one plain component, wherever it stands. -/
def ReadsPlain (nested : PathReader) : Prop :=
  ∀ {t : Text}, t ≠ [] → Guarded t → ∀ k, nested ⟨k, t⟩ = .ok [plainSegment t]

theorem compileWithin_readsPlain (levels : Nat) :
    ReadsPlain (compileWithin (levels + 1) false) := by
  intro t hne h k
  rw [compileWithin, readPath_plain _ _ _ _ hne h]

section Around

variable {nested : PathReader} {t : Text}

/-- A path for each element goes up to the end of a guarded text. -/
theorem readEach_guarded (hn : ReadsPlain nested) (hne : t ≠ []) (h : Guarded t) (k : Nat) :
    readEach nested ⟨k, '.' :: t⟩ =
      .ok ([plainSegment t], ⟨k + 1 + Text.byteLength t, []⟩) := by
  have hstart : eachStart ⟨k, '.' :: t⟩ = ⟨k + 1, t⟩ := by
    unfold eachStart
    split
    · next c u hdots =>
        cases hdots
        cases h.head_ne.2.1
    · rfl
  have hpart : (Place.mk (k + 1) t).upTo ⟨k + 1 + Text.byteLength t, []⟩ = ⟨k + 1, t⟩ := by
    have happend := upTo_append (k + 1) (k + 1 + Text.byteLength t) t []
    rwa [List.append_nil] at happend
  have hlength : ¬ ([] : Text).length = t.length := by
    intro hzero
    exact hne (List.length_eq_zero_iff.1 hzero.symm)
  rw [readEach, hstart, h.pipeFrom_eq]
  dsimp only
  rw [if_neg hlength, hpart, hn hne h]
  rfl

/-- An entry that is one plain component has the name that the component leads to as its key. -/
theorem defaultKey_escapeComponent {key : Text} (hne : key ≠ []) (source : Text) :
    defaultKey [plainSegment (escapeComponent key)] source = nameRead key := by
  rw [plainSegment_escapeComponent hne, nameRead]
  split <;> rfl

theorem readEntry_guarded (hn : ReadsPlain nested) (hne : t ≠ []) (h : Guarded t) (k : Nat) :
    readEntry nested ⟨k, t⟩ = .ok (defaultKey [plainSegment t] t, [plainSegment t]) := by
  unfold readEntry
  split
  · next u hquote =>
      obtain rfl : t = '"' :: u := hquote
      cases h with
      | bare hc _ => exact absurd (by decide) hc
  · rw [hn hne h]
    rfl

/-- A part that is an escaped key is trimmed to the key without the space around it. -/
theorem trim_mk_escapeComponent (k : Nat) (key : Text) :
    ∃ j, (Place.mk k (escapeComponent key)).trim isPathSpace =
      ⟨j, escapeComponent (Text.trim isPathSpace key)⟩ := by
  have hrest := rest_trim ⟨k, escapeComponent key⟩ isPathSpace
  rw [trim_escapeComponent] at hrest
  exact ⟨_, congrArg (Place.mk _) hrest⟩

/-- The only entry of a selector is the component in it. -/
theorem readEntries_escapeComponent (hn : ReadsPlain nested) {key : Text} (hne : key ≠ [])
    (htrim : Text.trim isPathSpace key = key) (k : Nat) :
    readEntries nested [⟨k, escapeComponent key⟩] =
      .ok [(nameRead key, [plainSegment (escapeComponent key)])] := by
  obtain ⟨j, hpart⟩ := trim_mk_escapeComponent k key
  rw [htrim] at hpart
  have hescaped := escapeComponent_ne_nil hne
  have hentry := readEntry_guarded hn hescaped (guarded_escapeComponent key) j
  rw [defaultKey_escapeComponent hne] at hentry
  rw [readEntries, hpart, if_neg (by simpa using hescaped), hentry, readEntries]
  rfl

/-- In brackets, a key is read without the space around it, if there is anything else to it. -/
theorem readSelector_escapeComponent (hn : ReadsPlain nested) {opening due : Char}
    (hopen : closingOf? opening = some due) (key : Text) (k : Nat) :
    ∃ stop : Place, stop.rest = [] ∧
      readSelector nested ⟨k, opening :: (escapeComponent key ++ [due])⟩ =
        (if Text.trim isPathSpace key = [] then Except.error (PathError.emptySelector k)
        else Except.ok (Segment.select (opening == '[')
          [(nameRead (Text.trim isPathSpace key),
            [plainSegment (escapeComponent (Text.trim isPathSpace key))])])).map (·, stop) := by
  have hguarded := guarded_escapeComponent (Text.trim isPathSpace key)
  have hclose := (guarded_escapeComponent key).groupEnd_append hopen k []
  obtain ⟨j, hinner⟩ := trim_mk_escapeComponent (k + opening.utf8Size) key
  rw [← upTo_append (k + opening.utf8Size)
    (k + opening.utf8Size + Text.byteLength (escapeComponent key)) (escapeComponent key) [due]]
    at hinner
  refine ⟨(Place.mk (k + opening.utf8Size + Text.byteLength (escapeComponent key)) [due]).skip 1,
    rfl, ?_⟩
  rw [readSelector, hclose]
  dsimp only
  have hskip : (Place.mk k (opening :: (escapeComponent key ++ [due]))).skip 1 =
      ⟨k + opening.utf8Size, escapeComponent key ++ [due]⟩ := rfl
  rw [hskip, hinner]
  by_cases hcore : Text.trim isPathSpace key = []
  · rw [hcore]
    rfl
  · have hescaped := escapeComponent_ne_nil hcore
    rw [if_neg hcore, if_neg (by simpa using hescaped), hguarded.splitParts_eq (by decide)]
    dsimp only
    rw [readEntries_escapeComponent hn hcore (Text.trim_trim isPathSpace key)]
    rfl

/-- A comparison that is one component has no operator. -/
theorem readComparison_escapeComponent (hn : ReadsPlain nested) (key : Text) (k : Nat) :
    ∃ position, readComparison nested ⟨k, escapeComponent key⟩ =
      if Text.trim isPathSpace key = [] then .error (.invalidQuery position)
      else .ok (.holds [plainSegment (escapeComponent (Text.trim isPathSpace key))]) := by
  have hguarded := guarded_escapeComponent (Text.trim isPathSpace key)
  obtain ⟨j, hpart⟩ := trim_mk_escapeComponent k key
  refine ⟨j, ?_⟩
  rw [readComparison, hpart]
  by_cases hcore : Text.trim isPathSpace key = []
  · rw [hcore]
    rfl
  · have hescaped := escapeComponent_ne_nil hcore
    rw [if_neg hcore, if_neg (by simpa using hescaped), hguarded.operatorFrom_eq]
    dsimp only
    rw [hn hescaped hguarded]
    rfl

/-- A condition that is not split at all is one comparison. -/
theorem readCondition_of_one_term {k : Nat}
    (hbars : splitParts ['|', '|'] ⟨k, t⟩ = .ok [⟨k, t⟩])
    (hands : splitParts ['&', '&'] ⟨k, t⟩ = .ok [⟨k, t⟩]) :
    readCondition nested ⟨k, t⟩ = readComparison nested ⟨k, t⟩ := by
  rw [readCondition, hbars]
  simp only [bind, Except.bind, List.mapM_cons, List.mapM_nil]
  rw [hands]
  simp only [bind, Except.bind, List.mapM_cons, List.mapM_nil]
  cases readComparison nested ⟨k, t⟩ with
  | error e => rfl
  | ok c => rfl

/-- A condition without marks has one alternative with one term. -/
theorem readCondition_guarded (h : Guarded t) (k : Nat) :
    readCondition nested ⟨k, t⟩ = readComparison nested ⟨k, t⟩ :=
  readCondition_of_one_term (h.splitParts_eq (by decide) _ k) (h.splitParts_eq (by decide) _ k)

/-- The condition of a query is all that stands in its group. -/
theorem readQuery_all (nested : PathReader) (condition : ConditionReader) {k : Nat}
    (hclose : groupEnd ⟨k + 1, '(' :: (t ++ [')', '#'])⟩ =
      .ok ⟨k + 1 + '('.utf8Size + Text.byteLength t, [')', '#']⟩) :
    ∃ stop : Place, stop.rest = [] ∧
      readQuery nested condition ⟨k, '#' :: '(' :: (t ++ [')', '#'])⟩ =
        ((condition ⟨k + 1 + 1, t⟩).map fun c => Segment.query c true []).map (·, stop) := by
  have hpart := upTo_append (k + 1 + 1) (k + 1 + '('.utf8Size + Text.byteLength t) t [')', '#']
  refine ⟨⟨k + 1 + '('.utf8Size + Text.byteLength t + 1 + 1, []⟩, rfl, ?_⟩
  have hskip : (Place.mk k ('#' :: '(' :: (t ++ [')', '#']))).skip 1 =
      ⟨k + 1, '(' :: (t ++ [')', '#'])⟩ := rfl
  have hskip' : (Place.mk (k + 1) ('(' :: (t ++ [')', '#']))).skip 1 =
      ⟨k + 1 + 1, t ++ [')', '#']⟩ := rfl
  rw [readQuery]
  dsimp only
  rw [hskip, hclose]
  dsimp only
  rw [hskip', hpart]
  cases condition ⟨k + 1 + 1, t⟩ with
  | error e => rfl
  | ok c => rfl

end Around

/-! ## Whole paths -/

/-- A path that begins with no dot is read component by component. -/
theorem compile_cons {c : Char} (hc : c ≠ '.') (t : Text) :
    Path.compile (c :: t) =
      readComponents (compileWithin maxNesting false) (conditionWithin maxNesting)
        ⟨0, c :: t⟩ := by
  rw [compile_eq_readPath (List.cons_ne_nil c t), readPath, Place.start]
  split
  · next hnil => cases hnil
  · next u hdots =>
      cases hdots
      exact absurd rfl hc
  · rfl

/-- A component that takes the whole text is the path, and what is wrong with it is wrong at all. -/
theorem compile_of_component {c : Char} (hc : c ≠ '.') {t : Text} {stop : Place}
    (hstop : stop.rest = []) {answer : Except PathError Segment}
    (h : readComponent (compileWithin maxNesting false) (conditionWithin maxNesting) ⟨0, c :: t⟩ =
      answer.map (·, stop)) :
    Path.compile (c :: t) = answer.map ([·]) := by
  rw [compile_cons hc]
  cases answer with
  | error e =>
      rw [readComponents]
      split
      · next hs =>
          rw [h] at hs
          cases hs
          rfl
      · next hs =>
          rw [h] at hs
          cases hs
  | ok s =>
      rw [readComponents_of h, readRest_nil hstop]
      rfl

/-- Behind the sign for all elements, an escaped key is read as everywhere. -/
theorem compile_collect {key : Text} (hne : key ≠ []) :
    Path.compile ('#' :: '.' :: escapeComponent key) =
      .ok [.collect [plainSegment (escapeComponent key)]] := by
  have hescaped := escapeComponent_ne_nil hne
  have heach := readEach_guarded (compileWithin_readsPlain 63) hescaped
    (guarded_escapeComponent key) 1
  have hread : readComponent (compileWithin maxNesting false) (conditionWithin maxNesting)
      ⟨0, '#' :: '.' :: escapeComponent key⟩ =
        (Except.ok (.collect [plainSegment (escapeComponent key)])).map
          (·, ⟨1 + 1 + Text.byteLength (escapeComponent key), []⟩) := by
    rw [readComponent_collect rfl]
    show (readEach (compileWithin maxNesting false) ⟨1, '.' :: escapeComponent key⟩).map _ = _
    rw [maxNesting, heach]
    rfl
  exact compile_of_component (by decide) rfl hread

/-- In a selector, a key is read without the space around it. -/
theorem compile_selector {opening due : Char} (hopening : isOpening opening = true)
    (hdue : closingOf? opening = some due) (key : Text) :
    Path.compile (opening :: (escapeComponent key ++ [due])) =
      if Text.trim isPathSpace key = [] then .error (.emptySelector 0)
      else .ok [.select (opening == '[')
        [(nameRead (Text.trim isPathSpace key),
          [plainSegment (escapeComponent (Text.trim isPathSpace key))])]] := by
  obtain ⟨stop, hstop, hread⟩ :=
    readSelector_escapeComponent (compileWithin_readsPlain 63) hdue key 0
  have hopen : opening = '\x7b' ∨ opening = '[' := by
    simpa [isOpening] using hopening
  have hcomponent : readComponent (compileWithin maxNesting false) (conditionWithin maxNesting)
      ⟨0, opening :: (escapeComponent key ++ [due])⟩ =
        readSelector (compileWithin maxNesting false)
          ⟨0, opening :: (escapeComponent key ++ [due])⟩ := by
    rcases hopen with rfl | rfl
    · rfl
    · rfl
  have hdot : opening ≠ '.' := by
    rcases hopen with rfl | rfl
    · decide
    · decide
  rw [compile_of_component hdot hstop (hcomponent.trans hread)]
  split <;> rfl

/-- A query for all elements is its condition, if its group is closed where the text ends. -/
theorem compile_query_all {t : Text} (hclose : groupEnd ⟨1, '(' :: (t ++ [')', '#'])⟩ =
      .ok ⟨1 + '('.utf8Size + Text.byteLength t, [')', '#']⟩) :
    Path.compile ('#' :: '(' :: (t ++ [')', '#'])) =
      (conditionWithin maxNesting ⟨2, t⟩).map fun c => [.query c true []] := by
  obtain ⟨stop, hstop, hread⟩ := readQuery_all (k := 0) (compileWithin maxNesting false)
    (conditionWithin maxNesting) hclose
  have hcomponent : readComponent (compileWithin maxNesting false) (conditionWithin maxNesting)
      ⟨0, '#' :: '(' :: (t ++ [')', '#'])⟩ =
        readQuery (compileWithin maxNesting false) (conditionWithin maxNesting)
          ⟨0, '#' :: '(' :: (t ++ [')', '#'])⟩ := rfl
  rw [compile_of_component (by decide) hstop (hcomponent.trans hread)]
  cases conditionWithin maxNesting ⟨2, t⟩ with
  | error e => rfl
  | ok c => rfl

/-- In a query, a key is read without the space around it. -/
theorem compile_query (key : Text) :
    ∃ position, Path.compile ('#' :: '(' :: (escapeComponent key ++ [')', '#'])) =
      if Text.trim isPathSpace key = [] then .error (.invalidQuery position)
      else .ok [.query
        (.holds [plainSegment (escapeComponent (Text.trim isPathSpace key))]) true []] := by
  have hguarded := guarded_escapeComponent key
  obtain ⟨position, hcomparison⟩ :=
    readComparison_escapeComponent (compileWithin_readsPlain 62) key 2
  have hcondition : conditionWithin maxNesting ⟨2, escapeComponent key⟩ =
      readComparison (compileWithin 63 false) ⟨2, escapeComponent key⟩ := by
    rw [maxNesting, conditionWithin, readCondition_guarded hguarded]
  refine ⟨position, ?_⟩
  rw [compile_query_all (hguarded.groupEnd_append rfl 1 ['#']), hcondition, hcomparison]
  split <;> rfl

/-! ## The keys that are read back -/

theorem plainSegment_escapeComponent_of_no_digits {key : Text} (hne : key ≠ [])
    (h : key.all Char.isDigit = false) : plainSegment (escapeComponent key) = .field key := by
  rw [plainSegment_escapeComponent hne, h]
  rfl

/-- No other key is read where a key is. -/
theorem eq_of_plainSegment_escapeComponent {key name : Text} (hne : key ≠ [])
    (h : plainSegment (escapeComponent key) = .field name) : key = name := by
  rw [plainSegment_escapeComponent hne] at h
  split at h
  · cases h
  · exact Segment.field.inj h

/--
Behind the sign for all elements, an escaped key that is no digits is read back as it is. In a
selector of either kind and in a query it is read back as it is exactly if it has no space at its
ends. Otherwise the text is refused or another key is read, whatever key the entry gets.
-/
theorem compile_escapeComponent_inside {key : Text} (hne : key ≠ [])
    (hdigits : key.all Char.isDigit = false) :
    Path.compile ('#' :: '.' :: escapeComponent key) = .ok [.collect [.field key]] ∧
      (Text.trim isPathSpace key = key →
        Path.compile ('\x7b' :: (escapeComponent key ++ ['\x7d'])) =
            .ok [.select false [(key, [.field key])]] ∧
          Path.compile ('[' :: (escapeComponent key ++ [']'])) =
            .ok [.select true [(key, [.field key])]] ∧
          Path.compile ('#' :: '(' :: (escapeComponent key ++ [')', '#'])) =
            .ok [.query (.holds [.field key]) true []]) ∧
      (Text.trim isPathSpace key ≠ key → ∀ name,
        Path.compile ('\x7b' :: (escapeComponent key ++ ['\x7d'])) ≠
            .ok [.select false [(name, [.field key])]] ∧
          Path.compile ('[' :: (escapeComponent key ++ [']'])) ≠
            .ok [.select true [(name, [.field key])]] ∧
          Path.compile ('#' :: '(' :: (escapeComponent key ++ [')', '#'])) ≠
            .ok [.query (.holds [.field key]) true []]) := by
  have hfield := plainSegment_escapeComponent_of_no_digits hne hdigits
  obtain ⟨position, hquery⟩ := compile_query key
  refine ⟨?_, ?_, ?_⟩
  · rw [compile_collect hne, hfield]
  · intro htrim
    have hname : nameRead key = key := by
      rw [nameRead, hdigits]
      rfl
    rw [compile_selector rfl rfl, compile_selector rfl rfl, hquery, htrim, hfield, hname,
      if_neg hne, if_neg hne, if_neg hne]
    exact ⟨rfl, rfl, rfl⟩
  · intro hspace name
    -- Wherever a key is read, it is the one without the space, and that is another key.
    have hother : Text.trim isPathSpace key ≠ [] →
        plainSegment (escapeComponent (Text.trim isPathSpace key)) ≠ .field key := by
      intro hcore hread
      exact hspace (eq_of_plainSegment_escapeComponent hcore hread)
    rw [compile_selector rfl rfl, compile_selector rfl rfl, hquery]
    by_cases hcore : Text.trim isPathSpace key = []
    · simp only [if_pos hcore]
      exact ⟨nofun, nofun, nofun⟩
    · simp only [if_neg hcore]
      refine ⟨?_, ?_, ?_⟩
      · intro h
        simp only [Except.ok.injEq, List.cons.injEq, Segment.select.injEq, Prod.mk.injEq] at h
        exact hother hcore h.1.2.1.2.1
      · intro h
        simp only [Except.ok.injEq, List.cons.injEq, Segment.select.injEq, Prod.mk.injEq] at h
        exact hother hcore h.1.2.1.2.1
      · intro h
        simp only [Except.ok.injEq, List.cons.injEq, Segment.query.injEq,
          Condition.holds.injEq] at h
        exact hother hcore h.1.1.1

/-- A key with a comma, an operator and space inside is read back everywhere. -/
theorem compile_escapeComponent_inside_of_marks :
    "a, b=\"c".toList ≠ [] ∧ "a, b=\"c".toList.all Char.isDigit = false ∧
      Text.trim isPathSpace "a, b=\"c".toList = "a, b=\"c".toList ∧
      Path.compile "#.a\\, b\\=\\\"c".toList = .ok [.collect [.field "a, b=\"c".toList]] ∧
      Path.compile "\x7ba\\, b\\=\\\"c\x7d".toList =
        .ok [.select false [("a, b=\"c".toList, [.field "a, b=\"c".toList])]] := by
  have hne : "a, b=\"c".toList ≠ [] := by decide
  have hdigits : "a, b=\"c".toList.all Char.isDigit = false := by decide
  have htrim : Text.trim isPathSpace "a, b=\"c".toList = "a, b=\"c".toList := by decide
  have h := compile_escapeComponent_inside hne hdigits
  exact ⟨hne, hdigits, htrim, h.1, (h.2.1 htrim).1⟩

/-- A key that begins with space loses it in a selector. -/
theorem compile_escapeComponent_inside_loses_space :
    Path.compile ('\x7b' :: (escapeComponent " a".toList ++ ['\x7d'])) =
      .ok [.select false [(['a'], [.field ['a']])]] := by
  have hopening : isOpening '\x7b' = true := rfl
  have hdue : closingOf? '\x7b' = some '\x7d' := rfl
  exact compile_selector hopening hdue " a".toList

end DotPath
