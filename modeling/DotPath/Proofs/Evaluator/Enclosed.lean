import DotPath.Proofs.Evaluator.Alike
import DotPath.Proofs.Path.Embedded
import DotPath.Proofs.Path.Levels

/-!
# Paths in brackets

A path in square brackets is a selector with one entry, and leads to an array of what the path leads
to. To get there, the text of the path has to survive being delimited: the scan for the end of the
selector must not stop inside it, the scan for commas must not cut it, and no space must be lost at
its ends. Then it is read as a part of a longer text, one level deeper and not at the top.

`Path.isEntry` is the condition that the two scans need. They keep a stack of brackets and a number
of them. On a text in balance both of them follow the brackets that are due, so what is shown for a
scan is what it does at one bare character.

## Main definitions

* `Path.isEntry`: a text in balance without a comma outside brackets.
* `FollowsDue`: what a scan has to do so that it goes over such a text.

## Main results

* `Balances.scan_append`: a scan that follows the brackets that are due goes over the text.
* `compile_enclosed`: a path in brackets is read as one entry.
* `get_enclosed`: and leads to an array of what the path leads to.
-/

namespace DotPath

open Json Place

/-! ## Texts in balance -/

/--
The closing brackets that are due after a bare character, the innermost first, given those that are
due before it. A bracket that is not the one due next has no place in the text, and neither has a
comma where none is due.
-/
def dueAfter? (due : List Char) (c : Char) : Option (List Char) :=
  match closingOf? c with
  | some closing => some (closing :: due)
  | none =>
    if isGroupEnd c then if due.head? = some c then some due.tail else none
    else if c = ',' ∧ due = [] then none
    else some due

/--
Whether a text closes what is open: the brackets that are `due`, a string literal if `quoted`, and
what it opens itself. A backslash protects the character after it, and there has to be one. Each
bracket is closed by one of its kind, and commas stand inside brackets only. String literals may
hold anything.
-/
def balancesFrom (due : List Char) (quoted : Bool) : Text → Bool
  | [] => due.isEmpty && !quoted
  | ['\\'] => false
  | '\\' :: _ :: rest => balancesFrom due quoted rest
  | c :: rest =>
    if c == '"' then balancesFrom due (!quoted) rest
    else if quoted then balancesFrom due quoted rest
    else
      match dueAfter? due c with
      | some due => balancesFrom due quoted rest
      | none => false

/-- Whether a text is in balance and has no comma outside brackets. -/
def Path.isEntry (t : Text) : Bool :=
  balancesFrom [] false t

/-- A text in balance, unit by unit. -/
inductive Balances : List Char → Text → Prop where
  | nil : Balances [] []
  | escaped {due : List Char} (c : Char) {t : Text} : Balances due t → Balances due ('\\' :: c :: t)
  | literal {due : List Char} {body t : Text} :
      IsRun body → Balances due t → Balances due ('"' :: (body ++ '"' :: t))
  | bare {due due' : List Char} {c : Char} {t : Text} : c ≠ '\\' → c ≠ '"' →
      dueAfter? due c = some due' → Balances due' t → Balances due (c :: t)

theorem ne_backslash {c : Char} {rest : Text} (hend : c = '\\' → rest = [] → False)
    (hescape : ∀ d rest', c = '\\' → rest = d :: rest' → False) : c ≠ '\\' := by
  intro hslash
  cases rest with
  | nil => exact hend hslash rfl
  | cons d rest => exact hescape d rest hslash rfl

/-- A string literal that is open is closed first, and balance is what comes after it. -/
theorem balances_of_balancesFrom {due : List Char} {quoted : Bool} {t : Text}
    (h : balancesFrom due quoted t = true) :
    if quoted then ∃ body rest, t = body ++ '"' :: rest ∧ IsRun body ∧ Balances due rest
    else Balances due t := by
  fun_induction balancesFrom due quoted t with
  | case1 due quoted =>
      rw [Bool.and_eq_true, List.isEmpty_iff, Bool.not_eq_true'] at h
      obtain ⟨rfl, rfl⟩ := h
      exact .nil
  | case2 => cases h
  | case3 due quoted c rest ih =>
      cases quoted with
      | false => exact .escaped c (ih h)
      | true =>
          obtain ⟨body, rest', rfl, hbody, hrest⟩ := ih h
          exact ⟨'\\' :: c :: body, rest', rfl, .escaped c hbody, hrest⟩
  | case4 due quoted c rest hend hescape hquote ih =>
      obtain rfl : c = '"' := beq_iff_eq.1 hquote
      cases quoted with
      | false =>
          obtain ⟨body, rest', rfl, hbody, hrest⟩ := ih h
          exact .literal hbody hrest
      | true => exact ⟨[], rest, rfl, .nil, ih h⟩
  | case5 due c rest hend hescape hquote ih =>
      obtain ⟨body, rest', rfl, hbody, hrest⟩ := ih h
      have hslash := ne_backslash hend hescape
      exact ⟨c :: body, rest', rfl, .plain (by simpa using hquote) hslash hbody, hrest⟩
  | case6 due quoted c rest hend hescape hquote hplain due' hdue ih =>
      rw [Bool.not_eq_true] at hplain
      subst hplain
      have hslash := ne_backslash hend hescape
      exact .bare hslash (by simpa using hquote) hdue (ih h)
  | case7 => cases h

/-! ## Scans over texts in balance -/

/-- A bare character opens a bracket, closes the one that is due next, or does neither. -/
theorem dueAfter?_cases {due due' : List Char} {c : Char} (h : dueAfter? due c = some due') :
    (∃ closing, closingOf? c = some closing ∧ due' = closing :: due) ∨
      (closingOf? c = none ∧ isGroupEnd c = true ∧ due = c :: due') ∨
        closingOf? c = none ∧ isGroupEnd c = false ∧ due' = due := by
  unfold dueAfter? at h
  split at h
  · next closing hopen =>
      cases h
      exact .inl ⟨closing, hopen, rfl⟩
  · next hopen =>
      split at h
      · next hend =>
          split at h
          · next hhead =>
              cases h
              exact .inr (.inl ⟨hopen, hend, (List.cons_head?_tail hhead).symm⟩)
          · cases h
      · next hend =>
          split at h
          · cases h
          · cases h
            exact .inr (.inr ⟨hopen, Bool.eq_false_iff.2 hend, rfl⟩)

/--
A scan that goes over what a backslash or quotes protect, and that looks at a bare character for the
brackets that are due after it only.
-/
structure FollowsDue {α : Type} (scan : List Char → Place → α) : Prop where
  unit : ∀ {due : List Char} {p q : Place}, p.unit? = .ok (some (none, q)) →
    scan due p = scan due q
  bare : ∀ {due due' : List Char} {p q : Place} {c : Char} {t : Text}, p.rest = c :: t →
    p.unit? = .ok (some (some c, q)) → dueAfter? due c = some due' → scan due p = scan due' q

/-- It goes over a text in balance as if it were not there. -/
theorem Balances.scan_append {α : Type} {scan : List Char → Place → α} {due : List Char} {t : Text}
    (h : Balances due t) (hscan : FollowsDue scan) (k : Nat) (tail : Text) :
    scan due ⟨k, t ++ tail⟩ = scan [] ⟨k + Text.byteLength t, tail⟩ := by
  induction h generalizing k with
  | nil => rfl
  | @escaped due c t _ ih =>
      have hskip : (Place.mk k ('\\' :: c :: t ++ tail)).skip 2 =
          ⟨k + ('\\'.utf8Size + c.utf8Size), t ++ tail⟩ := rfl
      rw [hscan.unit (unit?_backslash rfl), hskip, ih, Text.byteLength_cons,
        Text.byteLength_cons, Nat.add_assoc, Nat.add_assoc]
  | @literal due body t hbody _ ih =>
      have hliteral := literal?_append k (Fills.string hbody) (t ++ tail)
      have hunit := unit?_literal (p := ⟨k, '"' :: (body ++ ['"']) ++ (t ++ tail)⟩) rfl hliteral
      have hsplit : '"' :: (body ++ '"' :: t) ++ tail = '"' :: (body ++ ['"']) ++ (t ++ tail) := by
        simp
      rw [hsplit, hscan.unit hunit, ih, Nat.add_assoc, ← Text.byteLength_append]
      simp
  | @bare due due' c t hslash hquote hdue _ ih =>
      have hskip : (Place.mk k (c :: t ++ tail)).skip 1 = ⟨k + c.utf8Size, t ++ tail⟩ := rfl
      rw [hscan.bare rfl (unit?_bare rfl hslash hquote) hdue, hskip, ih, Text.byteLength_cons,
        Nat.add_assoc]

/-- The scan for the end of a group, in a group that `last` closes. -/
theorem closeFrom_followsDue (opening : Nat) (last : Char) :
    FollowsDue fun due p => closeFrom opening (due ++ [last]) p := by
  refine ⟨closeFrom_unit, ?_⟩
  intro due due' p q c t _ hunit hdue
  rcases dueAfter?_cases hdue with ⟨closing, hopen, rfl⟩ | ⟨hopen, hend, rfl⟩ |
    ⟨hopen, hend, rfl⟩
  · rw [closeFrom_bare hunit, hopen]
    rfl
  · rw [closeFrom_bare hunit, hopen]
    simp [hend]
  · rw [closeFrom_bare hunit, hopen]
    simp [hend]

theorem depthAfter_of_dueAfter? {due due' : List Char} {c : Char}
    (h : dueAfter? due c = some due') : depthAfter due.length c = due'.length := by
  rcases dueAfter?_cases h with ⟨closing, hopen, rfl⟩ | ⟨hopen, hend, rfl⟩ | ⟨hopen, hend, rfl⟩
  · simp [depthAfter, hopen]
  · simp [depthAfter, hopen, hend]
  · simp [depthAfter, hopen, hend]

/-- The scan for commas. It counts the brackets that are due. -/
theorem splitFrom_followsDue (part : Place) :
    FollowsDue fun due p => splitFrom [','] part due.length p := by
  refine ⟨splitFrom_unit, ?_⟩
  intro due due' p q c t hrest hunit hdue
  -- A comma where no bracket is due would have no place in the text.
  have hgo : ¬ (due.length == 0 && [','].isPrefixOf p.rest) = true := by
    intro hsep
    rw [hrest] at hsep
    simp only [Bool.and_eq_true, beq_iff_eq, List.length_eq_zero_iff, List.isPrefixOf_cons_cons,
      List.isPrefixOf_nil_left, and_true] at hsep
    obtain ⟨rfl, rfl⟩ := hsep
    cases (show dueAfter? [] ',' = none from rfl).symm.trans hdue
  show splitFrom [','] part due.length p = splitFrom [','] part due'.length q
  rw [splitFrom_bare hunit, if_neg hgo, depthAfter_of_dueAfter? hdue]

/-- The bracket behind a text in balance is the one that closes the group in front of it. -/
theorem Balances.groupEnd_append {t : Text} (h : Balances [] t) {opening due : Char}
    (hopen : closingOf? opening = some due) (k : Nat) (tail : Text) :
    groupEnd ⟨k, opening :: (t ++ due :: tail)⟩ =
      .ok ⟨k + opening.utf8Size + Text.byteLength t, due :: tail⟩ :=
  groupEnd_of_closeFrom hopen (h.scan_append (closeFrom_followsDue k due) _ _)

/-- A text in balance has one part. -/
theorem Balances.splitParts_eq {t : Text} (h : Balances [] t) (k : Nat) :
    splitParts [','] ⟨k, t⟩ = .ok [⟨k, t⟩] := by
  have hscan := h.scan_append (splitFrom_followsDue ⟨k, t⟩) k []
  rw [List.append_nil] at hscan
  exact hscan.trans (splitFrom_nil rfl)

/-! ## One level deeper -/

/--
A path that compiles and does not need the last level is read the same inside another one, wherever
it stands there.
-/
theorem compileWithin_inside {t : Text} {path : Path} (h : Path.compile t = .ok path)
    (hlevels : compileWithin maxNesting true (Place.start t) ≠ .error (.tooDeep maxNesting))
    (hdots : ¬ ['.', '.'] <+: t) (k : Nat) : compileWithin maxNesting false ⟨k, t⟩ = .ok path := by
  have hsteady := within_steady 63
  have hbelow := within_below 63
  rw [compile_eq_readPath (ne_nil_of_compile h), readPath_top _ _ _ hdots] at h
  rw [maxNesting, compileWithin, readPath_top _ _ _ hdots] at hlevels
  -- With a level less at the top the answer is the same, and that is how paths are read inside.
  have hread := (readPath_below hbelow.1 hbelow.2 (Place.start t)).resolve_left hlevels
  rw [maxNesting, compileWithin]
  exact readPath_steady hsteady.1 hsteady.2 (hread.trans h) k

/-! ## A selector with one entry -/

/-- A text without space at its ends is not changed where a part is trimmed. -/
theorem trim_mk {t : Text} (h : Text.trim isPathSpace t = t) (k : Nat) :
    ∃ j, (Place.mk k t).trim isPathSpace = ⟨j, t⟩ :=
  ⟨_, congrArg (Place.mk _) ((rest_trim ⟨k, t⟩ isPathSpace).trans h)⟩

section Entry

variable {nested : PathReader} {t : Text} {path : Path}

/-- A part that does not begin with a key is an entry under the key that its path gives. -/
theorem readEntries_singleton (hn : ∀ k, nested ⟨k, t⟩ = .ok path) (hne : t ≠ [])
    (hquote : t.head? ≠ some '"') (htrim : Text.trim isPathSpace t = t) (k : Nat) :
    readEntries nested [⟨k, t⟩] = .ok [(defaultKey path t, path)] := by
  obtain ⟨j, hpart⟩ := trim_mk htrim k
  have hentry : readEntry nested ⟨j, t⟩ = .ok (defaultKey path t, path) := by
    unfold readEntry
    split
    · next u hu =>
        rw [show t = '"' :: u from hu] at hquote
        exact absurd rfl hquote
    · rw [hn j]
      rfl
  rw [readEntries, hpart, if_neg (by simpa using hne), hentry, readEntries]
  rfl

/-- In brackets, a text in balance is read as one entry. -/
theorem readSelector_singleton (hn : ∀ k, nested ⟨k, t⟩ = .ok path) (hne : t ≠ [])
    (hquote : t.head? ≠ some '"') (htrim : Text.trim isPathSpace t = t) (hbalance : Balances [] t) :
    ∃ stop : Place, stop.rest = [] ∧ readSelector nested ⟨0, '[' :: (t ++ [']'])⟩ =
      .ok (.select true [(defaultKey path t, path)], stop) := by
  have hclose := hbalance.groupEnd_append (show closingOf? '[' = some ']' from rfl) 0 []
  obtain ⟨j, hinner⟩ := trim_mk htrim (0 + '['.utf8Size)
  rw [← upTo_append _ (0 + '['.utf8Size + Text.byteLength t) t [']']] at hinner
  refine ⟨(Place.mk (0 + '['.utf8Size + Text.byteLength t) [']']).skip 1, rfl, ?_⟩
  rw [readSelector, hclose]
  dsimp only
  have hskip : (Place.mk 0 ('[' :: (t ++ [']']))).skip 1 = ⟨0 + '['.utf8Size, t ++ [']']⟩ := rfl
  rw [hskip, hinner, if_neg (by simpa using hne), hbalance.splitParts_eq]
  dsimp only
  rw [readEntries_singleton hn hne hquote htrim]
  rfl

end Entry

/--
A path in brackets compiles to an array with one entry: the same path, under the key that it gives.
-/
theorem compile_enclosed {t : Text} {path : Path} (h : Path.compile t = .ok path)
    (hlevels : compileWithin maxNesting true (Place.start t) ≠ .error (.tooDeep maxNesting))
    (hdots : ¬ ['.', '.'] <+: t) (hquote : t.head? ≠ some '"')
    (htrim : Text.trim isPathSpace t = t) (hentry : Path.isEntry t = true) :
    Path.compile ('[' :: (t ++ [']'])) = .ok [.select true [(defaultKey path t, path)]] := by
  have hbalance : Balances [] t := balances_of_balancesFrom hentry
  obtain ⟨stop, hstop, hread⟩ := readSelector_singleton (compileWithin_inside h hlevels hdots)
    (ne_nil_of_compile h) hquote htrim hbalance
  have hcomponent : readComponent (compileWithin maxNesting false) (conditionWithin maxNesting)
      ⟨0, '[' :: (t ++ [']'])⟩ =
        (Except.ok (Segment.select true [(defaultKey path t, path)])).map (·, stop) := hread
  exact compile_of_component (by decide) hstop hcomponent

/-! ## What the selector leads to -/

namespace Evaluator

open Selection

/-- An array with one entry holds what the entry leads to, or nothing. -/
theorem raw_assemble_singleton {s : Selection} (h : Located s) (key : Text) :
    (assemble true [(key, s)]).raw = '[' :: (s.raw ++ [']']) := by
  have hkept : composeArray ((([(key, s)] : List (Text × Selection)).filter (·.2.isPresent)).map
      (·.2.raw)) = '[' :: (s.raw ++ [']']) := by
    cases hpresent : s.isPresent with
    | true => simp [hpresent, composeArray]
    | false =>
        have hraw : s.raw = [] := by simpa [isPresent] using hpresent
        simp [hpresent, hraw, composeArray]
  have hinside : Passes s.raw := by
    rcases h with ⟨-, hraw⟩ | hfills
    · rw [hraw]
      exact passes_nil
    · exact hfills.passes
  have hfills : Fills .container ('[' :: (s.raw ++ [']'])) := fills_container rfl rfl hinside
  rw [assemble]
  dsimp only
  rw [if_pos rfl, hkept, ofText, hfills.firstValue?]

/--
A sub-path means the same in a selector, and so does its result. A path that compiles with a level
to spare, begins with neither two dots nor a quote, has no space at its ends, and is in balance
without a comma outside brackets is read in brackets as the one entry of an array. On every text
that begins with a value, the array holds what the path leads to by itself, and nothing if that is
nothing.
-/
theorem get_enclosed {t : Text} {path : Path} (h : Path.compile t = .ok path)
    (hlevels : compileWithin maxNesting true (Place.start t) ≠ .error (.tooDeep maxNesting))
    (hdots : ¬ ['.', '.'] <+: t) (hquote : t.head? ≠ some '"')
    (htrim : Text.trim isPathSpace t = t) (hentry : Path.isEntry t = true) :
    Path.compile ('[' :: (t ++ [']'])) = .ok [.select true [(defaultKey path t, path)]] ∧
      ∀ (ev : Evaluator) (json : Text), (firstValue? json).isSome = true →
        (ev.get json ('[' :: (t ++ [']']))).raw = '[' :: ((ev.get json t).raw ++ [']']) ∧
          ((ev.get json t).isPresent = false →
            (ev.get json ('[' :: (t ++ [']']))).raw = ['[', ']']) := by
  have hcompile := compile_enclosed h hlevels hdots hquote htrim hentry
  refine ⟨hcompile, fun ev json hvalue => ?_⟩
  have hget : ev.get json t = ev.resolve (document json) path := by
    rw [get_eq_getFrom_document ev json hdots, getFrom, h]
  obtain ⟨v, hv⟩ := Option.isSome_iff_exists.1 hvalue
  have harray : ev.get json ('[' :: (t ++ [']'])) =
      assemble true [(defaultKey path t, ev.get json t)] := by
    rw [get, hcompile, hget]
    simp [eval, resolve, step, resolveEntries, isPresent_document hv]
  have hlocated : Located (ev.get json t) := (Reached.get ev t).located
  have hraw : (ev.get json ('[' :: (t ++ [']']))).raw = '[' :: ((ev.get json t).raw ++ [']']) := by
    rw [harray]
    exact raw_assemble_singleton hlocated _
  refine ⟨hraw, fun habsent => ?_⟩
  have hnone : (ev.get json t).raw = [] := by simpa [isPresent] using habsent
  rw [hraw, hnone]
  rfl

/-- A path with a bracket and a comma in a string, and with selectors of its own. -/
def nestedText : Text :=
  "a.#(b==\"],\")#.\x7bb,\"c\":[d]\x7d".toList

def nestedPath : Path :=
  [.field ['a'], .query (.compare [.field ['b']] .equal (.text "],".toList)) true
    [.select false [(['b'], [.field ['b']]), (['c'], [.select true [(['d'], [.field ['d']])]])]]]

def nestedDocument : Text :=
  "\x7b\"a\":[\x7b\"b\":\"],\",\"d\":1\x7d,\x7b\"b\":2\x7d]\x7d".toList

theorem get_enclosed_of_nested :
    Path.compile nestedText = .ok nestedPath ∧
      compileWithin maxNesting true (Place.start nestedText) ≠ .error (.tooDeep maxNesting) ∧
      ¬ ['.', '.'] <+: nestedText ∧ nestedText.head? ≠ some '"' ∧
      Text.trim isPathSpace nestedText = nestedText ∧ Path.isEntry nestedText = true ∧
      (firstValue? nestedDocument).isSome = true ∧
      Path.compile ('[' :: (nestedText ++ [']'])) = .ok [.select true [(nestedText, nestedPath)]] ∧
      (Evaluator.get ⟨⟨true, 256⟩, fun _ => none⟩ nestedDocument
        ('[' :: (nestedText ++ [']']))).raw = "[[\x7b\"b\":\"],\",\"c\":[1]\x7d]]".toList := by
  have hcompile : Path.compile nestedText = .ok nestedPath := by with_unfolding_all rfl
  have hread : compileWithin maxNesting true (Place.start nestedText) = .ok nestedPath := by
    with_unfolding_all rfl
  have hlevels : compileWithin maxNesting true (Place.start nestedText) ≠
      .error (.tooDeep maxNesting) := by
    rw [hread]
    exact nofun
  have hdots : ¬ ['.', '.'] <+: nestedText := by decide
  have hquote : nestedText.head? ≠ some '"' := by decide
  have htrim : Text.trim isPathSpace nestedText = nestedText := by decide
  have hentry : Path.isEntry nestedText = true := by decide
  have hvalue : (firstValue? nestedDocument).isSome = true := by decide +kernel
  have hget : (Evaluator.get ⟨⟨true, 256⟩, fun _ => none⟩ nestedDocument nestedText).raw =
      "[\x7b\"b\":\"],\",\"c\":[1]\x7d]".toList := by
    decide +kernel
  obtain ⟨harray, hraw⟩ := get_enclosed hcompile hlevels hdots hquote htrim hentry
  refine ⟨hcompile, hlevels, hdots, hquote, htrim, hentry, hvalue, harray, ?_⟩
  rw [(hraw _ nestedDocument hvalue).1, hget]
  rfl

end Evaluator

end DotPath
