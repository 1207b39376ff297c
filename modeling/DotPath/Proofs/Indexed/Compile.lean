import DotPath.Proofs.Indexed.Component
import DotPath.Proofs.Indexed.Items
import DotPath.Proofs.Path.Levels

/-!
# Compiling paths by index

The readers of paths between two indices. As with the readers on places, those for components take
the readers for inner paths and conditions as arguments, and the levels that are left tie the two
together.

## Main results

* `component_reads`, `expression_mirrors`, `range_mirrors`: the readers do what those on places do.
* `compile_mirrors`: so does the compilation of a whole path, and no error that it reports has a
  position behind the end of the path.
-/

namespace DotPath.Indexed

open Json

/-- Reads the path between two indices. -/
abbrev PathRun := Nat → Nat → Run Path

/-- Reads the condition between two indices. -/
abbrev ConditionRun := Nat → Nat → Run Condition

section Readers

variable (src : Text) (nested : PathRun) (condition : ConditionRun)

/-! ## The readers -/

/-- Reads a per-element path, from the dot in front of it up to the next pipe outside groups. -/
def each (dot stop : Nat) : Run (Path × Nat) := do
  let next ← octetBelow src.asOctets (dot + 1) stop
  let start := if next == some '.' then dot else dot + 1
  let pipe ← findPipe src.asOctets start stop
  if start ≥ pipe then throw (.emptySegment pipe) else return (← nested start pipe, pipe)

/-- Reads a descent, from the key after its two dots on. -/
def descent (start stop : Nat) : Run (Segment × Nat) := do
  let keyStop ← scanPlain src.asOctets start stop
  if keyStop == start then throw (.emptySegment start)
  else
    let key ← slice src start keyStop
    if (← octetBelow src.asOctets keyStop stop) == some '.' then
      let (path, next) ← each src nested keyStop stop
      return (.descend key path, next)
    else return (.descend key [], keyStop)

/-- Reads the path for the values of a stream, from after its two dots up to the next pipe. -/
def lines (start stop : Nat) : Run (Segment × Nat) := do
  let pipe ← findPipe src.asOctets start stop
  return (.lines (← nested start pipe), pipe)

/-- Reads what two dots at the start of a path begin, from after the dots on. -/
def leading (top : Bool) (start stop : Nat) : Run (Segment × Nat) :=
  if top then lines src nested start stop else descent src nested start stop

/-- Reads one entry of a selector. -/
def entry (start stop : Nat) : Run (Text × Path) := do
  if (← octet src.asOctets start) == '"' then
    match ← scanString (← octetsUpTo src.asOctets stop) start with
    | none => throw (.unclosedString start)
    | some keyStop =>
      let key ← stringText (← slice src start keyStop)
      let colon ← pass src.asOctets isPathSpace keyStop stop
      match ← octetBelow src.asOctets colon stop with
      | none => throw (.emptySegment colon)
      | some c =>
        if c != ':' then throw (.unexpectedChar (← charAt src colon) colon)
        else
          let inner ← pass src.asOctets isPathSpace (colon + 1) stop
          if inner == stop then throw (.emptySegment inner) else return (key, ← nested inner stop)
  else
    let path ← nested start stop
    return (defaultKey path (← slice src start stop), path)

/-- Reads one entry of a selector, with the space around it. -/
def spacedEntry (part : Nat × Nat) : Run (Text × Path) := do
  let (start, stop) ← trim src.asOctets part.1 part.2
  if start == stop then throw (.emptySegment start) else entry src nested start stop

/-- Reads a selector, from its opening bracket on. -/
def selector (pos stop : Nat) : Run (Segment × Nat) := do
  let close ← findClose src.asOctets pos stop
  let asArray := (← octet src.asOctets pos) == '['
  let (start, finish) ← trim src.asOctets (pos + 1) close
  if start == finish then throw (.emptySelector pos)
  else
    let parts ← splitTop src.asOctets start finish [',']
    return (.select asArray (← parts.mapM (spacedEntry src nested)), close + 1)

/-- Reads the operand of a comparison. -/
def operand (start stop : Nat) : Run Operand := do
  let text ← slice src start stop
  if text == "~true".toList then return .tilde .true
  else if text == "~false".toList then return .tilde .false
  else if text == "~null".toList then return .tilde .null
  else if text == "~*".toList then return .tilde .any
  else if text == "true".toList then return .bool true
  else if text == "false".toList then return .bool false
  else if text == "null".toList then return .null
  else if text.head? == some '~' then throw (.invalidQuery start)
  else if text.head? == some '"' then
    match ← scanString text.asOctets 0 with
    | none => throw (.unclosedString start)
    | some next =>
      if next != Text.byteLength text then throw (.invalidQuery start)
      else return .text (← stringText text)
  else if (← scanNumber text.asOctets 0) == some (Text.byteLength text) then
    return (Number.float? text).elim (.text text) .number
  else return .text text

/-- Reads a comparison: a path alone, or a path, an operator and an operand. -/
def comparison (part : Nat × Nat) : Run Condition := do
  let (start, stop) ← trim src.asOctets part.1 part.2
  if start == stop then throw (.invalidQuery start)
  else
    match ← findOperator src.asOctets start stop with
    | none => return .holds (← nested start stop)
    | some (x, operator, length) =>
      let (fieldStart, fieldStop) ← trim src.asOctets start x
      let field ← nested fieldStart fieldStop
      let (operandStart, operandStop) ← trim src.asOctets (x + length) stop
      if operandStart == operandStop then throw (.invalidQuery x)
      else return .compare field operator (← operand src operandStart operandStop)

/-- Joins conditions from the left. -/
def joined (join : Condition → Condition → Condition) (position : Nat)
    (conditions : List Condition) : Run Condition :=
  ExceptT.mk (pure (joinConditions join position conditions))

/-- Reads the terms of an alternative. -/
def alternative (part : Nat × Nat) : Run Condition := do
  let terms ← splitTop src.asOctets part.1 part.2 ['&', '&']
  joined .both part.1 (← terms.mapM (comparison src nested))

/-- Reads a condition: alternatives of terms. -/
def expression (start stop : Nat) : Run Condition := do
  let alternatives ← splitTop src.asOctets start stop ['|', '|']
  joined .either start (← alternatives.mapM (alternative src nested))

/-- What a condition selects, by what stands behind its group. -/
def selected (c : Condition) (x stop : Nat) : Run (Segment × Nat) := do
  if (← octetBelow src.asOctets x stop) == some '#' then
    if (← octetBelow src.asOctets (x + 1) stop) == some '.' then
      let (path, next) ← each src nested (x + 1) stop
      return (.query c true path, next)
    else return (.query c true [], x + 1)
  else return (.query c false [], x)

/-- Reads a query, from its number sign on. -/
def query (pos stop : Nat) : Run (Segment × Nat) := do
  let close ← findClose src.asOctets (pos + 1) stop
  let c ← condition (pos + 2) close
  selected src nested c (close + 1) stop

/-- Reads the component that starts with a number sign. -/
def hash (pos stop : Nat) : Run (Segment × Nat) := do
  match ← octetBelow src.asOctets (pos + 1) stop with
  | none => return (.length, pos + 1)
  | some d =>
    if d == '|' then return (.length, pos + 1)
    else if d == '.' then
      let (path, next) ← each src nested (pos + 1) stop
      return (.collect path, next)
    else if d == '(' then query src nested condition pos stop
    else plain src pos stop

/-- Reads the component that starts at an index. -/
def component (pos stop : Nat) : Run (Segment × Nat) := do
  match ← octetBelow src.asOctets pos stop with
  | none => throw (.emptySegment pos)
  | some c =>
    if isSeparator c then throw (.emptySegment pos)
    else if c == '@' then transform src pos stop
    else if c == '!' then literal src pos stop
    else if isOpening c then selector src nested pos stop
    else if c == '#' then hash src nested condition pos stop
    else plain src pos stop

/--
One step from the end of a component, with the segments that have been read: over a separator, or
over a descent that hangs off one. None at the end of the part.
-/
def advanceRound (stop : Nat) : Nat × Path → Run ((Option Nat × Path) ⊕ Nat × Path)
  | (x, path) => do
    match ← octetBelow src.asOctets x stop with
    | none => return .inl (none, path)
    | some c =>
      if isSeparator c && x + 1 == stop then throw (.emptySegment stop)
      else if c == '|' then return .inl (some (x + 1), path)
      else if c == '.' then
        if (← octetBelow src.asOctets (x + 1) stop) == some '.' then
          let (segment, next) ← descent src nested (x + 2) stop
          return .inr (next, path ++ [segment])
        else return .inl (some (x + 1), path)
      else throw (.unexpectedChar (← charAt src x) x)

/-- Where the next component starts, with the descents before it. -/
def advance (stop : Nat) : Nat × Path → Run (Option Nat × Path) :=
  again (advanceRound src nested stop)

/-- One step through a path: a component, and what lies before the next one. -/
def componentRound (stop : Nat) : Nat × Path → Run (Path ⊕ Nat × Path)
  | (pos, path) => do
    let (segment, x) ← component src nested condition pos stop
    let (next, path) ← advance src nested stop (x, path ++ [segment])
    return next.elim (.inl path) fun next => .inr (next, path)

/-- Reads the components from an index on, after those that have been read. -/
def components (stop : Nat) : Nat × Path → Run Path :=
  again (componentRound src nested condition stop)

/-- Goes on with the next component, if there is one. -/
def resume (stop : Nat) (reached : Option Nat × Path) : Run Path :=
  reached.1.elim (pure reached.2) fun next =>
    components src nested condition stop (next, reached.2)

/-- Reads the path between two indices. -/
def range (top : Bool) (start stop : Nat) : Run Path := do
  if start ≥ stop then return []
  else
    let ahead ← octetsBetween src.asOctets start stop
    if ['.', '.'].isPrefixOf ahead then
      let (segment, x) ← leading src nested top (start + 2) stop
      resume src nested condition stop (← advance src nested stop (x, [segment]))
    else components src nested condition stop (start, [])

end Readers

mutual
/-- Reads a path that may have `levels - 1` levels of paths and conditions inside. -/
def rangeWithin (src : Text) (levels : Nat) (top : Bool) (start stop : Nat) : Run Path :=
  match levels with
  | 0 => throw (.tooDeep maxNesting)
  | levels + 1 =>
    range src (rangeWithin src levels false) (expressionWithin src levels) top start stop

/-- Reads a condition that may have `levels - 1` levels of paths inside. -/
def expressionWithin (src : Text) (levels : Nat) (start stop : Nat) : Run Condition :=
  match levels with
  | 0 => throw (.tooDeep maxNesting)
  | levels + 1 => expression src (rangeWithin src levels false) start stop
end

/-- Compiles a path. -/
def compile (src : Text) : Run Path :=
  if src.isEmpty then throw .empty
  else rangeWithin src (maxNesting + 1) true 0 (Text.byteLength src)

/-! ## What they read -/

section Reads

variable {t : Text} {stop : Nat} {p q : Place} {nested : PathRun} {nested' : PathReader}
  {condition : ConditionRun} {condition' : ConditionReader}

/-- A reader by index does what a reader on places does, on every part of `t`. -/
def Agrees {α : Type} (t : Text) (run : Nat → Nat → Run α) (read : Place → Except PathError α) :
    Prop :=
  ∀ {stop : Nat} {p : Place}, IsPart t stop p →
    Mirrors t id (fun _ => True) (run p.offset stop) (read p)

theorem eachStart_eq {u : Text} (hp : p.rest = '.' :: u) :
    eachStart p = if u.head? == some '.' then p else p.skip 1 := by
  rw [eachStart, hp]
  cases u with
  | nil => rfl
  | cons c u =>
      by_cases hc : c = '.'
      · subst hc
        rfl
      · rw [List.head?_cons, beq_false_of_ne (by simpa using hc)]
        split
        · next heq =>
            cases heq
            exact absurd rfl hc
        · rfl

theorem each_reads (hn : Agrees t nested nested') (h : IsPart t stop p) {u : Text}
    (hp : p.rest = '.' :: u) : Reads t stop (each t nested p.offset stop) (readEach nested' p) := by
  have hdot : (p.skip 1).rest = u := Place.rest_skip_one hp
  have hindex := offset_skip_one hp (by decide)
  obtain ⟨o, ho, hmark⟩ := (h.skip 1).octet_beq (c := '.') (by decide)
  have hstart : (if o == some '.' then p.offset else p.offset + 1) = (eachStart p).offset := by
    rw [hmark, hdot, eachStart_eq hp, ← hindex]
    split <;> rfl
  have hpart : IsPart t stop (eachStart p) := by
    rw [eachStart_eq hp]
    split
    · exact h
    · exact h.skip 1
  rw [hindex] at ho
  rw [each, ho, lift_some, pure_bind, hstart, readEach]
  dsimp only
  rcases (findPipe_mirrors hpart).cases with ⟨e, hrun, hread, he⟩ | ⟨pipe, hrun, hread, hpipe⟩
  · rw [hrun, hread, throw_bind]
    exact .error he
  · have hsuffix := suffix_of_pipeFrom hread
    rw [hrun, hread, pure_bind]
    dsimp only
    by_cases hempty : pipe.rest.length = (eachStart p).rest.length
    · rw [if_pos hempty, if_pos ((hpart.offset_le_iff hpipe hsuffix).2 hempty)]
      exact .error hpipe.offset_le_byteLength
    · rw [if_neg hempty, if_neg fun hle => hempty ((hpart.offset_le_iff hpipe hsuffix).1 hle)]
      exact (hn (hpart.upTo hpipe hsuffix)).map (fun _ => rfl) fun _ _ => hpipe

theorem descent_reads (hn : Agrees t nested nested') (h : IsPart t stop p) :
    Reads t stop (descent t nested p.offset stop) (readDescent nested' p) := by
  have hafter := h.skip (plainLength p.rest)
  have hslice := h.slice_take (plainLength p.rest)
  have hmoved := beq_offset_skip p (plainLength p.rest)
  rw [descent, scanPlain_eq h, lift_some, pure_bind, hmoved]
  by_cases hzero : plainLength p.rest = 0
  · rw [readDescent, hzero]
    exact .error h.offset_le_byteLength
  · rw [isEmpty_take_plainLength hzero, if_neg Bool.false_ne_true, hslice, lift_some, pure_bind,
      readDescent_eq hzero]
    generalize p.skip (plainLength p.rest) = after at hafter
    obtain ⟨o, ho, hdot⟩ := hafter.octet_beq (c := '.') (by decide)
    rw [ho, lift_some, pure_bind, hdot]
    by_cases hhead : after.rest.head? = some '.'
    · obtain ⟨u, hu⟩ := List.head?_eq_some_iff.1 hhead
      rw [hhead, beq_self_eq_true, if_pos rfl, hu]
      exact reads_map (Segment.descend (p.rest.take (plainLength p.rest))) (each_reads hn hafter hu)
    · rw [beq_false_of_ne hhead, if_neg Bool.false_ne_true]
      split
      · next u hu => exact absurd (by rw [hu]; rfl) hhead
      · exact reads_ok _ hafter

theorem lines_reads (hn : Agrees t nested nested') (h : IsPart t stop p) :
    Reads t stop (lines t nested p.offset stop) (readLines nested' p) := by
  rw [lines, readLines]
  rcases (findPipe_mirrors h).cases with ⟨e, hrun, hread, he⟩ | ⟨pipe, hrun, hread, hpipe⟩
  · rw [hrun, hread, throw_bind]
    exact .error he
  · rw [hrun, hread, pure_bind]
    exact (hn (h.upTo hpipe (suffix_of_pipeFrom hread))).map (fun _ => rfl) fun _ _ => hpipe

/-! ### Selectors -/

/-- An entry that begins with a quote has a key in front of its path. -/
theorem keyedEntry_mirrors (hn : Agrees t nested nested') (h : IsPart t stop p) {rest : Text}
    (hrest : p.rest = '"' :: rest) :
    Mirrors t id (fun _ => True) (entry t nested p.offset stop) (readEntry nested' p) := by
  obtain ⟨o, ho, hclass⟩ := h.octet hrest
  have hquote : (o == '"') = true := hclass (isLow_beq (by decide))
  rw [entry, ho, lift_some, pure_bind, hquote, if_pos rfl, h.octetsUpTo, lift_some, pure_bind,
    scanString_literal h.ends hrest, lift_some, pure_bind]
  unfold readEntry
  rw [hrest]
  dsimp only
  cases hkey : p.literal? with
  | none => exact .error h.offset_le_byteLength
  | some r =>
      obtain ⟨key, q⟩ := r
      obtain ⟨hslice, hq⟩ := h.slice_literal? hkey
      have htext := stringText_eq (Place.eq_of_literal? hkey).1
      dsimp only [Option.map_some]
      rw [hslice, lift_some, pure_bind, htext, lift_some, pure_bind,
        pass_eq isLow_isPathSpace.isClass hq, lift_some, pure_bind]
      have hcolon := hq.skipWhile isPathSpace
      generalize q.skipWhile isPathSpace = colon at hcolon
      cases hbehind : colon.rest with
      | nil =>
          rw [hcolon.octet_nil hbehind, lift_some, pure_bind]
          exact .error hcolon.offset_le_byteLength
      | cons d tail =>
          obtain ⟨m, hm, hmark⟩ := hcolon.octet_cons hbehind
          have hbeq : (m == ':') = (d == ':') := hmark (isLow_beq (by decide))
          rw [hm, lift_some, pure_bind]
          dsimp only
          rw [bne, bne, hbeq]
          by_cases hd : d = ':'
          · subst hd
            have hinner := (hcolon.skip 1).skipWhile isPathSpace
            rw [beq_self_eq_true, Bool.not_true, if_neg Bool.false_ne_true,
              if_neg Bool.false_ne_true, ← offset_skip_one hbehind (by decide),
              pass_eq isLow_isPathSpace.isClass (hcolon.skip 1), lift_some, pure_bind]
            generalize (colon.skip 1).skipWhile isPathSpace = inner at hinner
            rw [hinner.beq_stop]
            split
            · exact .error hinner.offset_le_byteLength
            · exact (hn hinner).map (fun _ => rfl) fun _ _ => trivial
          · rw [beq_false_of_ne hd, Bool.not_false, if_pos rfl, if_pos rfl, hcolon.charAt hbehind,
              lift_some, pure_bind]
            exact .error hcolon.offset_le_byteLength

theorem entry_mirrors (hn : Agrees t nested nested') (h : IsPart t stop p) (hp : p.rest ≠ []) :
    Mirrors t id (fun _ => True) (entry t nested p.offset stop) (readEntry nested' p) := by
  obtain ⟨c, rest, hrest⟩ := List.exists_cons_of_ne_nil hp
  by_cases hc : c = '"'
  · exact keyedEntry_mirrors hn h (hc ▸ hrest)
  · obtain ⟨o, ho, hclass⟩ := h.octet hrest
    have hquote : (o == '"') = (c == '"') := hclass (isLow_beq (by decide))
    rw [entry, ho, lift_some, pure_bind, hquote, beq_false_of_ne hc, if_neg Bool.false_ne_true]
    unfold readEntry
    split
    · next hquoted =>
        rw [hrest] at hquoted
        exact absurd (List.cons.inj hquoted).1 hc
    · rcases (hn h).cases with ⟨e, hrun, hread, he⟩ | ⟨path, hrun, hread, -⟩
      · rw [hrun, hread, throw_bind]
        exact .error he
      · rw [hrun, hread, pure_bind, h.slice, lift_some, pure_bind]
        exact .ok trivial

theorem spacedEntry_mirrors (hn : Agrees t nested nested') (h : IsPart t stop p) :
    Mirrors t id (fun _ => True) (spacedEntry t nested (p.offset, stop))
      (let part := p.trim isPathSpace
       if part.rest.isEmpty then .error (.emptySegment part.offset) else readEntry nested' part) := by
  have hpart := h.trim isPathSpace
  rw [spacedEntry, trim_eq h, lift_some, pure_bind]
  generalize p.trim isPathSpace = part at hpart
  dsimp only
  rw [beq_bounds]
  by_cases hempty : part.rest.isEmpty = true
  · rw [if_pos hempty, if_pos hempty]
    exact .error hpart.offset_le_byteLength
  · rw [if_neg hempty, if_neg hempty]
    exact entry_mirrors hn hpart fun hnil => hempty (List.isEmpty_iff.2 hnil)

theorem entries_mirrors (hn : Agrees t nested nested') {parts : List Place}
    (hparts : ∀ part ∈ parts, IsPart t part.finish part) :
    Mirrors t id (fun _ => True) ((parts.map bounds).mapM (spacedEntry t nested))
      (readEntries nested' parts) := by
  induction parts with
  | nil => exact .ok trivial
  | cons part parts ih =>
      have hfirst := spacedEntry_mirrors hn (hparts part List.mem_cons_self)
      have hrest := ih fun other hother => hparts other (List.mem_cons_of_mem part hother)
      have hread : readEntries nested' (part :: parts) =
          (let part := part.trim isPathSpace
           if part.rest.isEmpty then .error (.emptySegment part.offset)
           else readEntry nested' part) >>= fun entry =>
            readEntries nested' parts >>= fun entries => .ok (entry :: entries) := by
        rw [readEntries]
        dsimp only
        split <;> rfl
      rw [List.map_cons, List.mapM_cons, hread]
      exact hfirst.bind fun entry _ => hrest.bind fun entries _ => .ok trivial

theorem isSome_closingOf? {c : Char} (hc : isOpening c = true) : (closingOf? c).isSome = true := by
  simp only [isOpening, Bool.or_eq_true, beq_iff_eq] at hc
  rcases hc with rfl | rfl <;> rfl

theorem selector_reads (hn : Agrees t nested nested') (h : IsPart t stop p) {c : Char}
    {rest : Text} (hp : p.rest = c :: rest) (hc : isOpening c = true) :
    Reads t stop (selector t nested p.offset stop) (readSelector nested' p) := by
  obtain ⟨o, ho, hclass⟩ := h.octet hp
  have hbracket : (o == '[') = (p.rest.head? == some '[') := by
    rw [hp]
    exact hclass (isLow_beq (by decide))
  have hindex := offset_skip_one hp (isLow_isOpening c hc)
  rw [selector, readSelector]
  rcases (findClose_mirrors h).cases with ⟨e, hrun, hread, he⟩ | ⟨close, hrun, hread, hclose⟩
  · rw [hrun, hread, throw_bind]
    exact .error he
  · have hbehind := suffix_of_groupEnd hp (isSome_closingOf? hc) hread
    obtain ⟨d, tail, hd, hend⟩ := exists_of_closeFrom hread
    have hinner := ((h.skip 1).upTo hclose hbehind).trim isPathSpace
    have htrim := trim_eq ((h.skip 1).upTo hclose hbehind)
    have hstart : ((p.skip 1).upTo close).offset = p.offset + 1 := hindex
    rw [hstart] at htrim
    rw [hrun, hread, pure_bind, ho, lift_some, pure_bind, hbracket, htrim, lift_some, pure_bind]
    dsimp only
    generalize ((p.skip 1).upTo close).trim isPathSpace = inner at hinner
    rw [beq_bounds]
    split
    · exact .error h.offset_le_byteLength
    · have hcommas : Mirrors t (List.map bounds) (∀ q ∈ ·, IsPart t q.finish q)
          (splitTop t.asOctets (bounds inner).1 (bounds inner).2 [',']) (splitParts [','] inner) :=
        splitTop_mirrors (by simp) rfl rfl hinner
      rcases hcommas.cases with ⟨e, hsplit, hparts, he⟩ | ⟨parts, hsplit, hparts, hall⟩
      · rw [hsplit, hparts, throw_bind]
        exact .error he
      · rw [hsplit, hparts, pure_bind, ← offset_skip_one hd (isLow_isGroupEnd d hend)]
        exact (entries_mirrors hn hall).map (fun _ => rfl) fun _ _ => hclose.skip 1

/-! ### Conditions -/

/-- Whether a text is a number as a whole. -/
theorem scanNumber_text (u : Text) : ∃ r, scanNumber u.asOctets 0 = .some r ∧
    (r = some (Text.byteLength u) ↔ numberEnd? u = some u.length) := by
  have hscan : scanNumber u.asOctets (Place.start u).offset =
      .some ((numberEnd? u).map fun m => ((Place.start u).skip m).offset) :=
    scanNumber_eq (ends_start u)
  refine ⟨_, hscan, ?_⟩
  cases hn : numberEnd? u with
  | none => exact iff_of_false (by simp) (by simp)
  | some m =>
      obtain ⟨num, rest, rfl, rfl, -⟩ := isNumeral_of_numberEnd? hn
      have hskip : ((Place.start (num ++ rest)).skip num.length).offset = Text.byteLength num := by
        rw [Place.start, Place.skip_append, Nat.zero_add]
      rw [Option.map_some, hskip, Text.byteLength_append, List.length_append,
        Option.some.injEq, Option.some.injEq]
      cases rest with
      | nil => exact ⟨fun _ => rfl, fun _ => rfl⟩
      | cons c rest =>
          have hpos := c.utf8Size_pos
          rw [Text.byteLength_cons, List.length_cons]
          omega

theorem operand_mirrors (h : IsPart t stop p) :
    Mirrors t id (fun _ => True) (operand t p.offset stop) (readOperand p) := by
  rw [operand, h.slice, lift_some, pure_bind, readOperand]
  have hok : ∀ o : Operand, Mirrors t id (fun _ => True) (pure o) (.ok o) := fun o => .ok trivial
  refine .ite (fun _ => hok _) fun _ => .ite (fun _ => hok _) fun _ => ?_
  refine .ite (fun _ => hok _) fun _ => .ite (fun _ => hok _) fun _ => ?_
  refine .ite (fun _ => hok _) fun _ => .ite (fun _ => hok _) fun _ => ?_
  refine .ite (fun _ => hok _) fun _ => .ite (fun _ => .error h.offset_le_byteLength) fun _ => ?_
  refine .ite (fun hquote => ?_) fun _ => ?_
  · obtain ⟨rest, hrest⟩ := List.head?_eq_some_iff.1 (beq_iff_eq.1 hquote)
    have hscan := scanString_literal (ends_start p.rest) hrest
    have hscan : scanString p.rest.asOctets 0 =
        .some ((Place.start p.rest).literal?.map (·.2.offset)) := hscan
    have hliteral : p.literal? = _ := literal?_shift p.offset (Place.start p.rest)
    rw [hscan, lift_some, pure_bind, hliteral]
    cases hv : (Place.start p.rest).literal? with
    | none => exact .error h.offset_le_byteLength
    | some r =>
        obtain ⟨v, q⟩ := r
        obtain ⟨hfills, -, hsource, -⟩ := Place.eq_of_literal? hv
        obtain ⟨-, hq⟩ := (IsPart.start p.rest).slice_literal? hv
        have hsource : p.rest = v.raw ++ q.rest := hsource
        dsimp only [Option.map_some]
        rw [bne, hq.beq_stop]
        by_cases hend : q.rest = []
        · rw [hend, List.append_nil] at hsource
          have hafter : (q.shift p.offset).rest.isEmpty = true := List.isEmpty_iff.2 hend
          rw [hafter, hend, List.isEmpty_nil, Bool.not_true, if_neg Bool.false_ne_true, if_pos rfl,
            hsource, stringText_eq hfills, lift_some, pure_bind]
          exact hok _
        · have hafter : (q.shift p.offset).rest.isEmpty = false := List.isEmpty_eq_false_iff.2 hend
          rw [hafter, List.isEmpty_eq_false_iff.2 hend, Bool.not_false, if_pos rfl,
            if_neg Bool.false_ne_true]
          exact .error h.offset_le_byteLength
  · obtain ⟨r, hr, hwhole⟩ := scanNumber_text p.rest
    rw [hr, lift_some, pure_bind]
    by_cases hnumber : numberEnd? p.rest = some p.rest.length
    · rw [if_pos hnumber, if_pos (beq_iff_eq.2 (hwhole.2 hnumber))]
      cases Number.float? p.rest with
      | none => exact hok _
      | some x => exact hok _
    · rw [if_neg hnumber, if_neg fun h => hnumber (hwhole.1 (beq_iff_eq.1 h))]
      exact hok _

theorem comparison_mirrors (hn : Agrees t nested nested') (h : IsPart t stop p) :
    Mirrors t id (fun _ => True) (comparison t nested (p.offset, stop))
      (readComparison nested' p) := by
  have hpart := h.trim isPathSpace
  rw [comparison, trim_eq h, lift_some, pure_bind, readComparison]
  generalize p.trim isPathSpace = part at hpart
  dsimp only
  rw [beq_bounds]
  refine .ite (fun _ => .error hpart.offset_le_byteLength) fun _ => ?_
  have hfind : Mirrors t (Option.map fun r => (r.1.offset, r.2)) _
      (findOperator t.asOctets (bounds part).1 (bounds part).2) (operatorFrom 0 part) :=
    findOperator_mirrors hpart
  rcases hfind.cases with ⟨e, hrun, hread, he⟩ | ⟨found, hrun, hread, hfound⟩
  · rw [hrun, hread, throw_bind]
    exact .error he
  · rw [hrun, hread, pure_bind]
    cases found with
    | none => exact (hn hpart).map (fun _ => rfl) fun _ _ => trivial
    | some r =>
        obtain ⟨place, operator, length⟩ := r
        obtain ⟨hplace, hsuffix, hoperator⟩ := hfound _ rfl
        obtain ⟨word, rest, hword, rfl, hlow⟩ := exists_of_operator? hoperator
        have hskip : (place.skip word.length).offset = place.offset + word.length :=
          offset_skip_of_low hlow hword
        have hfield : IsPart t place.offset (part.upTo place) := hpart.upTo hplace hsuffix
        have hfieldTrim : trim t.asOctets (bounds part).1 place.offset =
            .some (bounds ((part.upTo place).trim isPathSpace)) := trim_eq hfield
        have hbehind := hplace.skip word.length
        have hoperand := hbehind.trim isPathSpace
        have hoperandTrim : trim t.asOctets (place.skip word.length).offset (bounds part).2 =
            .some (bounds ((place.skip word.length).trim isPathSpace)) := trim_eq hbehind
        rw [hskip] at hoperandTrim
        dsimp only [Option.map_some]
        rw [hfieldTrim, lift_some, pure_bind]
        refine (hn (hfield.trim isPathSpace)).bind fun field _ => ?_
        rw [hoperandTrim, lift_some, pure_bind]
        generalize (place.skip word.length).trim isPathSpace = value at hoperand
        rw [beq_bounds]
        by_cases hempty : value.rest.isEmpty = true
        · rw [if_pos hempty, if_pos hempty]
          exact .error hplace.offset_le_byteLength
        · rw [if_neg hempty, if_neg hempty]
          exact (operand_mirrors hoperand).bind fun o _ => .ok trivial

theorem joined_mirrors {join : Condition → Condition → Condition} {position : Nat}
    (hposition : position ≤ Text.byteLength t) (conditions : List Condition) :
    Mirrors t id (fun _ => True) (joined join position conditions)
      (joinConditions join position conditions) := by
  cases conditions with
  | nil => exact .error hposition
  | cons first rest => exact .ok trivial

/-- The parts of a text, one after the other. -/
theorem mapM_mirrors {α : Type} {run : Nat × Nat → Run α} {read : Place → Except PathError α}
    {parts : List Place}
    (h : ∀ part ∈ parts, Mirrors t id (fun _ => True) (run (bounds part)) (read part)) :
    Mirrors t id (fun _ => True) ((parts.map bounds).mapM run) (parts.mapM read) := by
  induction parts with
  | nil => exact .ok trivial
  | cons part parts ih =>
      rw [List.map_cons, List.mapM_cons, List.mapM_cons]
      refine (h part List.mem_cons_self).bind fun a _ => ?_
      exact (ih fun other hother => h other (List.mem_cons_of_mem part hother)).bind
        fun rest _ => .ok trivial

theorem alternative_mirrors (hn : Agrees t nested nested') (h : IsPart t stop p) :
    Mirrors t id (fun _ => True) (alternative t nested (p.offset, stop))
      (splitParts ['&', '&'] p >>= fun terms => terms.mapM (readComparison nested') >>=
        joinConditions .both p.offset) := by
  have hsplit : Mirrors t (List.map bounds) (∀ q ∈ ·, IsPart t q.finish q)
      (splitTop t.asOctets p.offset stop ['&', '&']) (splitParts ['&', '&'] p) :=
    splitTop_mirrors (by simp) rfl rfl h
  refine hsplit.bind fun terms hterms => ?_
  refine (mapM_mirrors fun term hterm => comparison_mirrors hn (hterms term hterm)).bind
    fun comparisons _ => ?_
  exact joined_mirrors h.offset_le_byteLength comparisons

theorem expression_mirrors (hn : Agrees t nested nested') :
    Agrees t (expression t nested) (readCondition nested') := by
  intro stop p h
  have hsplit : Mirrors t (List.map bounds) (∀ q ∈ ·, IsPart t q.finish q)
      (splitTop t.asOctets p.offset stop ['|', '|']) (splitParts ['|', '|'] p) :=
    splitTop_mirrors (by simp) rfl rfl h
  refine hsplit.bind fun alternatives halternatives => ?_
  refine (mapM_mirrors fun part hpart => alternative_mirrors hn (halternatives part hpart)).bind
    fun conditions _ => ?_
  exact joined_mirrors h.offset_le_byteLength conditions

/-! ### Queries and components -/

theorem selected_reads (hn : Agrees t nested nested') (h : IsPart t stop p) (c : Condition) :
    Reads t stop (selected t nested c p.offset stop) (readSelected nested' c p) := by
  obtain ⟨o, ho, hmark⟩ := h.octet_beq (c := '#') (by decide)
  rw [selected, ho, lift_some, pure_bind, hmark, readSelected]
  by_cases hhash : p.rest.head? = some '#'
  · obtain ⟨u, hu⟩ := List.head?_eq_some_iff.1 hhash
    have hindex := offset_skip_one hu (by decide)
    have hrest : (p.skip 1).rest = u := Place.rest_skip_one hu
    obtain ⟨m, hm, hdot⟩ := (h.skip 1).octet_beq (c := '.') (by decide)
    rw [hhash, beq_self_eq_true, if_pos rfl, ← hindex, hm, lift_some, pure_bind, hdot, hrest]
    by_cases hhead : u.head? = some '.'
    · rw [if_pos (beq_iff_eq.2 hhead)]
      obtain ⟨v, rfl⟩ := List.head?_eq_some_iff.1 hhead
      rw [hu]
      exact reads_map (Segment.query c true) (each_reads hn (h.skip 1) hrest)
    · rw [beq_false_of_ne hhead, if_neg Bool.false_ne_true, hu]
      split
      · next heq =>
          cases heq
          exact absurd rfl hhead
      · exact reads_ok _ (h.skip 1)
      · next hother => exact absurd rfl (hother u)
  · rw [beq_false_of_ne hhash, if_neg Bool.false_ne_true]
    split
    · next heq => exact absurd (by rw [heq]; rfl) hhash
    · next heq => exact absurd (by rw [heq]; rfl) hhash
    · exact reads_ok _ h

theorem query_reads (hn : Agrees t nested nested') (hc : Agrees t condition condition')
    (h : IsPart t stop p) {rest : Text} (hp : p.rest = '#' :: '(' :: rest) :
    Reads t stop (query t nested condition p.offset stop) (readQuery nested' condition' p) := by
  have hopening : (p.skip 1).rest = '(' :: rest := Place.rest_skip_one hp
  have hindex := offset_skip_one hp (by decide)
  have hinside : ((p.skip 1).skip 1).offset = p.offset + 2 := by
    rw [offset_skip_one hopening (by decide), hindex]
  rw [query, ← hindex]
  rcases (findClose_mirrors (h.skip 1)).cases with
    ⟨e, hrun, hread, he⟩ | ⟨close, hrun, hread, hclose⟩
  · have hfails : readQuery nested' condition' p = .error e := by
      rw [readQuery]
      dsimp only
      rw [hread]
    rw [hrun, hfails, throw_bind]
    exact .error he
  · have hbehind := suffix_of_groupEnd hopening rfl hread
    obtain ⟨d, tail, hd, hend⟩ := exists_of_closeFrom hread
    have hinner := ((h.skip 1).skip 1).upTo hclose hbehind
    have hcondition := hc hinner
    have hstart : (((p.skip 1).skip 1).upTo close).offset = p.offset + 2 := hinside
    rw [hstart] at hcondition
    rw [hrun, pure_bind]
    rcases hcondition.cases with ⟨e, hrun, hfound, he⟩ | ⟨c, hrun, hfound, -⟩
    · have hfails : readQuery nested' condition' p = .error e := by
        rw [readQuery]
        dsimp only
        rw [hread]
        dsimp only
        rw [hfound]
      rw [hrun, hfails, throw_bind]
      exact .error he
    · rw [hrun, pure_bind, readQuery_of_group hread hfound,
        ← offset_skip_one hd (isLow_isGroupEnd d hend)]
      exact selected_reads hn (hclose.skip 1) c

/-- What a number sign stands for, by the octet behind it. -/
theorem hash_reads (hn : Agrees t nested nested') (hc : Agrees t condition condition')
    (h : IsPart t stop p) {rest : Text} (hp : p.rest = '#' :: rest) :
    Reads t stop (hash t nested condition p.offset stop) (readComponent nested' condition' p) := by
  have hindex := offset_skip_one hp (by decide)
  have hrest : (p.skip 1).rest = rest := Place.rest_skip_one hp
  rw [hash]
  cases rest with
  | nil =>
      have hnone := (h.skip 1).octet_nil hrest
      rw [hindex] at hnone
      rw [hnone, lift_some, pure_bind, ← hindex, readComponent_length hp (.inl rfl)]
      exact reads_ok _ (h.skip 1)
  | cons d u =>
      obtain ⟨o, ho, hclass⟩ := (h.skip 1).octet_cons hrest
      have hbeq : ∀ {m : Char}, m.toNat < 0x80 → (o == m) = (d == m) := fun hm =>
        hclass (isLow_beq hm)
      rw [hindex] at ho
      rw [ho, lift_some, pure_bind]
      dsimp only
      rw [hbeq (by decide), hbeq (by decide), hbeq (by decide), ← hindex]
      split
      · next hd =>
          obtain rfl := beq_iff_eq.1 hd
          rw [readComponent_length hp (.inr rfl)]
          exact reads_ok _ (h.skip 1)
      · next hpipe =>
          split
          · next hd =>
              obtain rfl := beq_iff_eq.1 hd
              rw [readComponent_collect hp]
              exact reads_map Segment.collect (each_reads hn (h.skip 1) hrest)
          · next hdot =>
              split
              · next hd =>
                  obtain rfl := beq_iff_eq.1 hd
                  rw [readComponent_query hp]
                  exact query_reads hn hc h hp
              · next hparen =>
                  rw [beq_iff_eq] at hpipe hdot hparen
                  rw [readComponent_hash_plain hp hpipe hdot hparen]
                  exact plain_reads h

/-- The component that starts at a place. -/
theorem component_reads (hn : Agrees t nested nested') (hc : Agrees t condition condition')
    (h : IsPart t stop p) :
    Reads t stop (component t nested condition p.offset stop)
      (readComponent nested' condition' p) := by
  rw [component]
  cases hp : p.rest with
  | nil =>
      rw [h.octet_nil hp, lift_some, pure_bind, readComponent, hp]
      exact .error h.offset_le_byteLength
  | cons c rest =>
      obtain ⟨o, ho, hclass⟩ := h.octet_cons hp
      have hbeq : ∀ {m : Char}, m.toNat < 0x80 → (o == m) = (c == m) := fun hm =>
        hclass (isLow_beq hm)
      rw [ho, lift_some, pure_bind]
      dsimp only
      rw [hclass isLow_isSeparator, hbeq (by decide), hbeq (by decide), hclass isLow_isOpening,
        hbeq (by decide)]
      by_cases hhash : c = '#'
      · subst hhash
        exact hash_reads hn hc h hp
      · rw [readComponent_cons hp hhash]
        refine .ite (fun _ => .error h.offset_le_byteLength) fun _ => ?_
        refine .ite (fun hmark => ?_) fun _ => .ite (fun hmark => ?_) fun _ => ?_
        · obtain rfl := beq_iff_eq.1 hmark
          exact transform_reads h hp
        · obtain rfl := beq_iff_eq.1 hmark
          exact literal_reads h hp
        · refine .ite (fun hopening => selector_reads hn h hp hopening) fun _ => ?_
          rw [beq_false_of_ne hhash, if_neg Bool.false_ne_true]
          exact plain_reads h

/-! ### Paths -/

theorem components_eq (pos : Nat) (path : Path) :
    components t nested condition stop (pos, path) =
      component t nested condition pos stop >>= fun r =>
        advance t nested stop (r.2, path ++ [r.1]) >>= resume t nested condition stop := by
  rw [components, again_eq, componentRound, bind_assoc]
  congr 1
  funext r
  dsimp only
  rw [bind_assoc]
  congr 1
  funext reached
  rw [pure_bind, resume]
  cases reached.1 <;> rfl

section Advance

variable {x : Nat} {path : Path}

theorem advance_none (ho : octetBelow t.asOctets x stop = .some none) :
    advance t nested stop (x, path) = pure (none, path) := by
  rw [advance, again_eq, advanceRound, ho, lift_some, pure_bind]
  exact pure_bind _ _

theorem advance_last {c : Char} (ho : octetBelow t.asOctets x stop = .some (some c))
    (hc : isSeparator c = true) (hx : x + 1 = stop) :
    advance t nested stop (x, path) = throw (.emptySegment stop) := by
  rw [advance, again_eq, advanceRound, ho, lift_some, pure_bind]
  dsimp only
  rw [hc, hx, beq_self_eq_true]
  exact throw_bind _ _

theorem advance_unexpected {c d : Char} (ho : octetBelow t.asOctets x stop = .some (some c))
    (hc : isSeparator c = false) (hd : charAt t x = .some d) :
    advance t nested stop (x, path) = throw (.unexpectedChar d x) := by
  obtain ⟨hdot, hpipe⟩ := Bool.or_eq_false_iff.1 hc
  rw [advance, again_eq, advanceRound, ho, lift_some, pure_bind]
  dsimp only
  rw [hc, hdot, hpipe, Bool.false_and, if_neg Bool.false_ne_true, if_neg Bool.false_ne_true,
    if_neg Bool.false_ne_true, hd, lift_some, pure_bind]
  exact throw_bind _ _

theorem advance_separator {c : Char} {next : Option Char}
    (ho : octetBelow t.asOctets x stop = .some (some c)) (hc : isSeparator c = true)
    (hx : x + 1 ≠ stop) (hnext : octetBelow t.asOctets (x + 1) stop = .some next)
    (hdots : ¬ (c == '.' && next == some '.') = true) :
    advance t nested stop (x, path) = pure (some (x + 1), path) := by
  rw [advance, again_eq, advanceRound, ho, lift_some, pure_bind]
  dsimp only
  rw [hc, beq_false_of_ne hx, Bool.and_false, if_neg Bool.false_ne_true]
  by_cases hpipe : (c == '|') = true
  · rw [if_pos hpipe]
    exact pure_bind _ _
  · have hdot : (c == '.') = true := (Bool.or_eq_true_iff.1 hc).resolve_right hpipe
    rw [hdot, Bool.true_and] at hdots
    rw [if_neg hpipe, if_pos hdot, hnext, lift_some, pure_bind, if_neg hdots]
    exact pure_bind _ _

theorem advance_descent (ho : octetBelow t.asOctets x stop = .some (some '.'))
    (hx : x + 1 ≠ stop) (hnext : octetBelow t.asOctets (x + 1) stop = .some (some '.')) :
    advance t nested stop (x, path) =
      descent t nested (x + 2) stop >>= fun r => advance t nested stop (r.2, path ++ [r.1]) := by
  rw [advance, again_eq, advanceRound, ho, lift_some, pure_bind]
  dsimp only
  rw [beq_false_of_ne hx, Bool.and_false, if_neg Bool.false_ne_true, if_neg (by decide),
    if_pos (by decide), hnext, lift_some, pure_bind, if_pos (beq_self_eq_true _), bind_assoc]
  congr 1
  funext r
  exact pure_bind _ _

end Advance

theorem readRest_last {c : Char} (hp : p.rest = [c]) (hc : isSeparator c = true) :
    readRest nested' condition' p = .error (.emptySegment p.finish) := by
  rw [readRest]
  split
  · next heq => rw [hp] at heq; cases heq
  · next heq => rw [hp] at heq; cases heq; exact if_pos hc
  · next heq => rw [hp] at heq; cases heq

theorem readRest_unexpected {c : Char} {rest : Text} (hp : p.rest = c :: rest)
    (hc : isSeparator c = false) :
    readRest nested' condition' p = .error (.unexpectedChar c p.offset) := by
  have hdot : (c == '.') = false := (Bool.or_eq_false_iff.1 hc).1
  rw [readRest]
  split
  · next heq => rw [hp] at heq; cases heq
  · next heq => rw [hp] at heq; cases heq; rw [hc]; rfl
  · next heq => rw [hp] at heq; cases heq; rw [hc, hdot]; rfl

/-- Two dots are read as a descent, and then what stands behind it. -/
theorem dots_mirrors (hn : Agrees t nested nested') (h : IsPart t stop p) {u : Text}
    (hp : p.rest = '.' :: '.' :: u) (path : Path)
    (hadvance : advance t nested stop (p.offset, path) =
      descent t nested (p.offset + 2) stop >>= fun r =>
        advance t nested stop (r.2, path ++ [r.1]))
    (hbehind : ∀ {q : Place}, IsPart t stop q → q.rest.length < p.rest.length → ∀ path : Path,
      Mirrors t (path ++ ·) (fun _ => True)
        (advance t nested stop (q.offset, path) >>= resume t nested condition stop)
        (readRest nested' condition' q)) :
    Mirrors t (path ++ ·) (fun _ => True)
      (advance t nested stop (p.offset, path) >>= resume t nested condition stop)
      (readRest nested' condition' p) := by
  have hskip : (p.skip 2).offset = p.offset + 2 := by
    rw [← skip_skip p 1 1, offset_skip_one (Place.rest_skip_one hp) (by decide),
      offset_skip_one hp (by decide)]
  have hdescent := descent_reads hn (h.skip 2)
  rw [hskip] at hdescent
  rw [hadvance, bind_assoc]
  rcases hdescent.cases with ⟨e, hrun, hread, he⟩ | ⟨⟨s, q⟩, hrun, hread, hq⟩
  · rw [hrun, readRest_descent_of_error hp hread, throw_bind]
    exact .error he
  · have hlength := Nat.lt_of_lt_of_le (length_of_readDescent hread) (p.length_skip_le 2)
    rw [hrun, readRest_descent hp hread, pure_bind]
    refine (hbehind hq hlength (path ++ [s])).regard (fun more => ?_) fun _ _ => trivial
    exact List.append_cons path s more

mutual

/-- The components that are read after others. -/
theorem components_mirrors (hn : Agrees t nested nested') (hc : Agrees t condition condition')
    {p : Place} (h : IsPart t stop p) (path : Path) :
    Mirrors t (path ++ ·) (fun _ => True) (components t nested condition stop (p.offset, path))
      (readComponents nested' condition' p) := by
  rw [components_eq]
  rcases (component_reads hn hc h).cases with ⟨e, hrun, hread, he⟩ | ⟨⟨s, q⟩, hrun, hread, hq⟩
  · rw [hrun, readComponents_of_error hread, throw_bind]
    exact .error he
  · have hlength := length_of_readComponent hread
    rw [hrun, readComponents_of hread, pure_bind]
    refine (rest_mirrors hn hc hq (path ++ [s])).regard (fun more => ?_) fun _ _ => trivial
    exact List.append_cons path s more
termination_by p.rest.length

/-- What is read from the end of a component on. -/
theorem rest_mirrors (hn : Agrees t nested nested') (hc : Agrees t condition condition')
    {p : Place} (h : IsPart t stop p) (path : Path) :
    Mirrors t (path ++ ·) (fun _ => True)
      (advance t nested stop (p.offset, path) >>= resume t nested condition stop)
      (readRest nested' condition' p) := by
  cases hp : p.rest with
  | nil =>
      rw [advance_none (h.octet_nil hp), pure_bind, readRest_nil hp]
      have hnil : resume t nested condition stop (none, path) = pure (path ++ []) := by
        rw [List.append_nil]
        rfl
      rw [hnil]
      exact .ok trivial
  | cons c rest =>
      obtain ⟨o, ho, hclass⟩ := h.octet_cons hp
      by_cases hsep : isSeparator c = true
      · have hlow := isLow_isSeparator c hsep
        have hindex := offset_skip_one hp hlow
        have hrest : (p.skip 1).rest = rest := Place.rest_skip_one hp
        obtain rfl : o = c := beq_iff_eq.1 ((hclass (isLow_beq hlow)).trans (beq_self_eq_true c))
        cases rest with
        | nil =>
            have hlast := (h.skip 1).offset_eq hrest
            rw [advance_last ho hsep (hindex.symm.trans hlast), readRest_last hp hsep, h.finish_eq,
              throw_bind]
            exact .error h.stop_le
        | cons d u =>
            have hmore : p.offset + 1 ≠ stop := by
              rw [← hindex]
              exact Nat.ne_of_lt ((h.skip 1).offset_lt (by rw [hrest]; exact List.cons_ne_nil d u))
            obtain ⟨m, hm, hdot⟩ := (h.skip 1).octet_beq (c := '.') (by decide)
            rw [hindex] at hm
            rw [hrest, List.head?_cons] at hdot
            by_cases hdots : (o == '.' && d == '.') = true
            · obtain ⟨rfl, rfl⟩ : o = '.' ∧ d = '.' := by simpa using hdots
              obtain rfl : m = some '.' := beq_iff_eq.1 hdot
              exact dots_mirrors hn h hp path (advance_descent ho hmore hm)
                fun hq hlength path => rest_mirrors hn hc hq path
            · have hother : ¬ (o == '.' && m == some '.') = true := by
                rw [hdot]
                exact hdots
              have hlength : (p.skip 1).rest.length < p.rest.length := by
                rw [hrest, hp]
                exact Nat.lt_succ_self _
              rw [advance_separator ho hsep hmore hm hother, pure_bind,
                readRest_separator hp hsep hdots, ← hindex]
              exact components_mirrors hn hc (h.skip 1) path
      · have hunexpected := Bool.eq_false_iff.2 hsep
        rw [advance_unexpected ho ((hclass isLow_isSeparator).trans hunexpected) (h.charAt hp),
          readRest_unexpected hp hunexpected, throw_bind]
        exact .error h.offset_le_byteLength
termination_by p.rest.length

end

/-- The reader on places for what two dots begin. -/
def readLeading (nested' : PathReader) (top : Bool) (p : Place) : Except PathError (Segment × Place) :=
  if top then readLines nested' p else readDescent nested' p

theorem readPath_dots {u : Text} (hp : p.rest = '.' :: '.' :: u) (top : Bool) :
    readPath nested' condition' top p = readLeading nested' top (p.skip 2) >>= fun r =>
      (readRest nested' condition' r.2).map (r.1 :: ·) := by
  unfold readPath
  rw [hp, ← readLeading]
  cases readLeading nested' top (p.skip 2) <;> rfl

/-- The path that makes up a part. -/
theorem range_mirrors (hn : Agrees t nested nested') (hc : Agrees t condition condition')
    (top : Bool) : Agrees t (range t nested condition top) (readPath nested' condition' top) := by
  intro stop p h
  by_cases hnil : p.rest = []
  · have hread : readPath nested' condition' top p = .ok [] := by
      unfold readPath
      rw [hnil]
    rw [range, if_pos (Nat.le_of_eq (h.offset_eq hnil).symm), hread]
    exact .ok trivial
  · rw [range, if_neg (Nat.not_le.2 (h.offset_lt hnil)), h.octetsBetween, lift_some, pure_bind,
      isPrefixOf_asOctets (by simp)]
    by_cases hdots : ['.', '.'].isPrefixOf p.rest = true
    · obtain ⟨u, hu⟩ := List.isPrefixOf_iff_prefix.1 hdots
      have hp : p.rest = '.' :: '.' :: u := hu.symm
      have hskip : (p.skip 2).offset = p.offset + 2 := by
        rw [← skip_skip p 1 1, offset_skip_one (Place.rest_skip_one hp) (by decide),
          offset_skip_one hp (by decide)]
      have hleading : Reads t stop (leading t nested top (p.offset + 2) stop)
          (readLeading nested' top (p.skip 2)) := by
        rw [← hskip]
        exact .ite (fun _ => lines_reads hn (h.skip 2)) fun _ => descent_reads hn (h.skip 2)
      rw [if_pos hdots, readPath_dots hp]
      refine hleading.bind fun r hr => ?_
      exact (rest_mirrors hn hc hr [r.1]).regard (fun _ => rfl) fun _ _ => trivial
    · have hread : readPath nested' condition' top p = readComponents nested' condition' p := by
        unfold readPath
        split
        · next heq => exact absurd heq hnil
        · next u heq =>
            rw [heq] at hdots
            exact absurd rfl hdots
        · rfl
      rw [if_neg hdots, hread]
      exact components_mirrors hn hc h []

end Reads

/-! ### Levels -/

/-- With the same levels left, paths and conditions are read alike. -/
theorem within_mirrors (t : Text) (levels : Nat) :
    (∀ top, Agrees t (rangeWithin t levels top) (compileWithin levels top)) ∧
      Agrees t (expressionWithin t levels) (conditionWithin levels) := by
  induction levels with
  | zero =>
      refine ⟨fun top stop p h => ?_, fun {stop p} h => ?_⟩
      · rw [rangeWithin, compileWithin]
        exact .error trivial
      · rw [expressionWithin, conditionWithin]
        exact .error trivial
  | succ levels ih =>
      obtain ⟨hrange, hexpression⟩ := ih
      refine ⟨fun top stop p h => ?_, fun {stop p} h => ?_⟩
      · rw [rangeWithin, compileWithin]
        exact range_mirrors (hrange false) hexpression top h
      · rw [expressionWithin, conditionWithin]
        exact expression_mirrors (hrange false) h

/-- Compilation by index is defined for every text, and does what compilation on places does. -/
theorem compile_mirrors (t : Text) :
    Mirrors t id (fun _ => True) (compile t) (Path.compile t) := by
  rw [compile, Path.compile]
  refine .ite (fun _ => .error trivial) fun _ => ?_
  exact (within_mirrors t (maxNesting + 1)).1 true (IsPart.start t)

end DotPath.Indexed
