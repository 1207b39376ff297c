import DotPath.Path.Component

/-!
# Compiling paths

A path is read component by component. Components that carry paths of their own (selectors, queries,
per-element paths, descents and lines) are delimited first, and the inner paths are read from their
parts alone. Each inner path is one level deeper, and so is a condition; beyond `maxNesting` levels
a text is refused.

The readers for components take the readers for inner paths and conditions as arguments.
`compileWithin` ties the two together by recursion on the levels that are left.
-/

namespace DotPath

/-- How deep paths may nest in one another. -/
def maxNesting : Nat := 64

/-- The space that may surround entries and comparisons. -/
def isPathSpace (c : Char) : Bool :=
  Json.isSpace c || c == '\x0c'

/-- Reads the path that makes up a part of a text. -/
abbrev PathReader := Place → Except PathError Path

/-- Reads the condition that makes up a part of a text. -/
abbrev ConditionReader := Place → Except PathError Condition

/-! ## Per-element paths -/

/--
Where a per-element path starts, given the dot in front of it. If a second dot follows, the dots
belong to the path and make it start with a descent.
-/
def eachStart (dot : Place) : Place :=
  match dot.rest with
  | _ :: '.' :: _ => dot
  | _ => dot.skip 1

/-- Reads a per-element path, from the dot in front of it up to the next pipe outside groups. -/
def readEach (nested : PathReader) (dot : Place) : Reading Path :=
  match pipeFrom 0 (eachStart dot) with
  | .error e => .error e
  | .ok stop =>
    if stop.rest.length = (eachStart dot).rest.length then .error (.emptySegment stop.offset)
    else (nested ((eachStart dot).upTo stop)).map (·, stop)

/-- Reads a descent, from the key after its two dots on. -/
def readDescent (nested : PathReader) (p : Place) : Reading Segment :=
  match plainLength p.rest with
  | 0 => .error (.emptySegment p.offset)
  | n =>
    let pattern := p.rest.take n
    let afterKey := p.skip n
    match afterKey.rest with
    | '.' :: _ => (readEach nested afterKey).map fun (each, q) => (.descend pattern each, q)
    | _ => .ok (.descend pattern [], afterKey)

/-- Reads the path for the values of a stream, from after its two dots up to the next pipe. -/
def readLines (nested : PathReader) (p : Place) : Reading Segment :=
  match pipeFrom 0 p with
  | .error e => .error e
  | .ok stop => (nested (p.upTo stop)).map fun each => (.lines each, stop)

/-! ## Selectors -/

/--
The key of a selector entry that gives none: the name of the last step of its path, transformers at
the end not counted, or the entry as it is written.
-/
def defaultKey (path : Path) (source : Text) : Text :=
  match path.reverse.dropWhile fun s => s matches .transform .. with
  | .field name :: _ => name
  | .index n :: _ => Text.ofNat n
  | .wildcard pattern :: _ => pattern
  | _ => source

/-- Reads one entry of a selector: a path, perhaps after a key literal and a colon. -/
def readEntry (nested : PathReader) (p : Place) : Except PathError (Text × Path) :=
  match p.rest with
  | '"' :: _ =>
    match p.literal? with
    | none => .error (.unclosedString p.offset)
    | some (key, q) =>
      let q := q.skipWhile isPathSpace
      match q.rest with
      | [] => .error (.emptySegment q.offset)
      | c :: _ =>
        if c != ':' then .error (.unexpectedChar c q.offset)
        else
          let part := (q.skip 1).skipWhile isPathSpace
          if part.rest.isEmpty then .error (.emptySegment part.offset)
          else (nested part).map (Json.Quoted.text key.raw, ·)
  | source => (nested p).map fun path => (defaultKey path source, path)

/-- Reads the entries of a selector from the parts between its commas. -/
def readEntries (nested : PathReader) : List Place → Except PathError (List (Text × Path))
  | [] => .ok []
  | part :: rest =>
    let part := part.trim isPathSpace
    if part.rest.isEmpty then .error (.emptySegment part.offset)
    else do
      let entry ← readEntry nested part
      let entries ← readEntries nested rest
      return entry :: entries

/-- Reads a selector, from its opening bracket on. -/
def readSelector (nested : PathReader) (p : Place) : Reading Segment :=
  match groupEnd p with
  | .error e => .error e
  | .ok close =>
    let inner := ((p.skip 1).upTo close).trim isPathSpace
    if inner.rest.isEmpty then .error (.emptySelector p.offset)
    else
      match splitParts [','] inner with
      | .error e => .error e
      | .ok parts =>
        (readEntries nested parts).map fun entries =>
          (.select (p.rest.head? == some '[') entries, close.skip 1)

/-! ## Queries -/

/-- Reads the operand of a comparison. -/
def readOperand (p : Place) : Except PathError Operand :=
  let t := p.rest
  if t == "~true".toList then .ok (.tilde .true)
  else if t == "~false".toList then .ok (.tilde .false)
  else if t == "~null".toList then .ok (.tilde .null)
  else if t == "~*".toList then .ok (.tilde .any)
  else if t == "true".toList then .ok (.bool true)
  else if t == "false".toList then .ok (.bool false)
  else if t == "null".toList then .ok .null
  else if t.head? == some '~' then .error (.invalidQuery p.offset)
  else if t.head? == some '"' then
    match p.literal? with
    | none => .error (.unclosedString p.offset)
    | some (v, q) =>
      if q.rest.isEmpty then .ok (.text (Json.Quoted.text v.raw))
      else .error (.invalidQuery p.offset)
  else if Json.numberEnd? t = some t.length then
    match Number.float? t with
    | some x => .ok (.number x)
    | none => .ok (.text t)
  else .ok (.text t)

/-- Reads a comparison: a path alone, or a path, an operator and an operand. -/
def readComparison (nested : PathReader) (p : Place) : Except PathError Condition :=
  let p := p.trim isPathSpace
  if p.rest.isEmpty then .error (.invalidQuery p.offset)
  else
    match operatorFrom 0 p with
    | .error e => .error e
    | .ok none => (nested p).map .holds
    | .ok (some (place, operator, length)) => do
      let field ← nested ((p.upTo place).trim isPathSpace)
      let operand := (place.skip length).trim isPathSpace
      if operand.rest.isEmpty then throw (.invalidQuery place.offset)
      let operand ← readOperand operand
      return .compare field operator operand

/-- Joins conditions from the left. -/
def joinConditions (join : Condition → Condition → Condition) (position : Nat) :
    List Condition → Except PathError Condition
  | [] => .error (.invalidQuery position)
  | first :: rest => .ok (rest.foldl join first)

/-- Reads a condition: alternatives of terms, the terms binding tighter. -/
def readCondition (nested : PathReader) (p : Place) : Except PathError Condition := do
  let alternatives ← splitParts ['|', '|'] p
  let conditions ← alternatives.mapM fun alternative => do
    let terms ← splitParts ['&', '&'] alternative
    let comparisons ← terms.mapM (readComparison nested)
    joinConditions .both alternative.offset comparisons
  joinConditions .either p.offset conditions

/-- Reads a query, from its number sign on. -/
def readQuery (nested : PathReader) (condition : ConditionReader) (p : Place) : Reading Segment :=
  let opening := p.skip 1
  match groupEnd opening with
  | .error e => .error e
  | .ok close =>
    match condition ((opening.skip 1).upTo close) with
    | .error e => .error e
    | .ok c =>
      let stop := close.skip 1
      match stop.rest with
      | '#' :: '.' :: _ =>
        (readEach nested (stop.skip 1)).map fun (each, q) => (.query c true each, q)
      | '#' :: _ => .ok (.query c true [], stop.skip 1)
      | _ => .ok (.query c false [], stop)

/-! ## Components -/

/-- Reads the component that starts here. -/
def readComponent (nested : PathReader) (condition : ConditionReader) (p : Place) :
    Reading Segment :=
  match p.rest with
  | [] => .error (.emptySegment p.offset)
  | c :: rest =>
    if isSeparator c then .error (.emptySegment p.offset)
    else if c == '@' then readTransform p
    else if c == '!' then readLiteral p
    else if Json.isOpening c then readSelector nested p
    else if c == '#' then
      match rest with
      | [] => .ok (.length, p.skip 1)
      | '|' :: _ => .ok (.length, p.skip 1)
      | '.' :: _ => (readEach nested (p.skip 1)).map fun (each, q) => (.collect each, q)
      | '(' :: _ => readQuery nested condition p
      | _ => readPlain p
    else readPlain p

/-! ### Every component takes at least one character -/

theorem length_eachStart_le (p : Place) : (eachStart p).rest.length ≤ p.rest.length := by
  unfold eachStart
  split
  · exact Nat.le_refl _
  · exact p.length_skip_le 1

theorem length_of_readEach {nested : PathReader} {p q : Place} {path : Path}
    (h : readEach nested p = .ok (path, q)) : q.rest.length ≤ p.rest.length := by
  have hstart := length_eachStart_le p
  unfold readEach at h
  split at h
  · simp at h
  · next stop hstop =>
    have hpipe := length_of_pipeFrom hstop
    split at h
    · simp at h
    · simp only [Except.map] at h
      split at h
      · simp at h
      · simp only [Except.ok.injEq, Prod.mk.injEq] at h
        rw [← h.2]
        omega

theorem length_of_readDescent {nested : PathReader} {p q : Place} {s : Segment}
    (h : readDescent nested p = .ok (s, q)) : q.rest.length < p.rest.length := by
  unfold readDescent at h
  split at h
  · simp at h
  · next n hn =>
    have hlt : (p.skip (plainLength p.rest)).rest.length < p.rest.length := by
      refine Place.length_skip_lt (Nat.pos_of_ne_zero hn) ?_
      intro h0
      simp [h0, plainLength] at hn
    simp only at h
    split at h
    · simp only [Except.map] at h
      split at h
      · simp at h
      · next r hr =>
        simp only [Except.ok.injEq, Prod.mk.injEq] at h
        have := length_of_readEach hr
        rw [← h.2]
        omega
    · simp only [Except.ok.injEq, Prod.mk.injEq] at h
      rw [← h.2]
      exact hlt

theorem length_skip_groupEnd {p close : Place} (h : groupEnd p = .ok close) :
    (close.skip 1).rest.length < p.rest.length := by
  have hclose := length_of_closeFrom h
  have := Place.length_skip_lt Nat.one_pos hclose.2
  omega

theorem length_of_readSelector {nested : PathReader} {p q : Place} {s : Segment}
    (h : readSelector nested p = .ok (s, q)) : q.rest.length < p.rest.length := by
  unfold readSelector at h
  split at h
  · simp at h
  · next close hclose =>
    simp only at h
    split at h
    · simp at h
    · split at h
      · simp at h
      · simp only [Except.map] at h
        split at h
        · simp at h
        · simp only [Except.ok.injEq, Prod.mk.injEq] at h
          exact h.2 ▸ length_skip_groupEnd hclose

theorem length_of_readQuery {nested : PathReader} {condition : ConditionReader} {p q : Place}
    {s : Segment} (h : readQuery nested condition p = .ok (s, q)) :
    q.rest.length < p.rest.length := by
  have hskip := p.length_skip_le 1
  unfold readQuery at h
  simp only at h
  split at h
  · simp at h
  · next close hclose =>
    have hlt := length_skip_groupEnd hclose
    have hle := (close.skip 1).length_skip_le 1
    split at h
    · simp at h
    · split at h
      · simp only [Except.map] at h
        split at h
        · simp at h
        · next r hr =>
          simp only [Except.ok.injEq, Prod.mk.injEq] at h
          have := length_of_readEach hr
          rw [← h.2]
          omega
      · simp only [Except.ok.injEq, Prod.mk.injEq] at h
        rw [← h.2]
        omega
      · simp only [Except.ok.injEq, Prod.mk.injEq] at h
        rw [← h.2]
        omega

theorem length_of_readComponent {nested : PathReader} {condition : ConditionReader} {p q : Place}
    {s : Segment} (h : readComponent nested condition p = .ok (s, q)) :
    q.rest.length < p.rest.length := by
  unfold readComponent at h
  split at h
  · simp at h
  · next c rest hp =>
    have hlt : (p.skip 1).rest.length < p.rest.length :=
      Place.length_skip_lt Nat.one_pos (by simp [hp])
    repeat' split at h
    · simp at h
    · exact length_of_readTransform h
    · exact length_of_readLiteral h
    · exact length_of_readSelector h
    · simp only [Except.ok.injEq, Prod.mk.injEq] at h
      exact h.2 ▸ hlt
    · simp only [Except.ok.injEq, Prod.mk.injEq] at h
      exact h.2 ▸ hlt
    · simp only [Except.map] at h
      split at h
      · simp at h
      · next r hr =>
        simp only [Except.ok.injEq, Prod.mk.injEq] at h
        have := length_of_readEach hr
        rw [← h.2]
        omega
    · exact length_of_readQuery h
    · exact length_of_readPlain h
    · exact length_of_readPlain h

/-! ## Paths -/

mutual
/-- Reads the component that starts here and all that follow it. -/
def readComponents (nested : PathReader) (condition : ConditionReader) (p : Place) :
    Except PathError Path :=
  match _h : readComponent nested condition p with
  | .error e => .error e
  | .ok (s, q) => (readRest nested condition q).map (s :: ·)
termination_by p.rest.length
decreasing_by exact length_of_readComponent ‹_›

/-- Reads on after a component: a separator and the next component, a descent, or the end. -/
def readRest (nested : PathReader) (condition : ConditionReader) (p : Place) :
    Except PathError Path :=
  match _h : p.rest with
  | [] => .ok []
  | [c] =>
    if isSeparator c then .error (.emptySegment p.finish) else .error (.unexpectedChar c p.offset)
  | c :: d :: _ =>
    if c == '.' && d == '.' then
      match _hd : readDescent nested (p.skip 2) with
      | .error e => .error e
      | .ok (s, q) => (readRest nested condition q).map (s :: ·)
    else if isSeparator c then readComponents nested condition (p.skip 1)
    else .error (.unexpectedChar c p.offset)
termination_by p.rest.length
decreasing_by
  · have := length_of_readDescent _hd
    have := p.length_skip_le 2
    omega
  · exact Place.length_skip_lt Nat.one_pos (by simp [_h])
end

/--
Reads the path that makes up a part of a text. Two dots in front start the values of a stream at the
top, and a descent inside. The empty part is the empty path.
-/
def readPath (nested : PathReader) (condition : ConditionReader) (top : Bool) (p : Place) :
    Except PathError Path :=
  match p.rest with
  | [] => .ok []
  | '.' :: '.' :: _ =>
    match (if top then readLines nested (p.skip 2) else readDescent nested (p.skip 2)) with
    | .error e => .error e
    | .ok (s, q) => (readRest nested condition q).map (s :: ·)
  | _ => readComponents nested condition p

mutual
/-- Reads a path that may have `levels - 1` levels of paths and conditions inside. -/
def compileWithin (levels : Nat) (top : Bool) (p : Place) : Except PathError Path :=
  match levels with
  | 0 => .error (.tooDeep maxNesting)
  | levels + 1 => readPath (compileWithin levels false) (conditionWithin levels) top p

/-- Reads a condition that may have `levels - 1` levels of paths inside. -/
def conditionWithin (levels : Nat) (p : Place) : Except PathError Condition :=
  match levels with
  | 0 => .error (.tooDeep maxNesting)
  | levels + 1 => readCondition (compileWithin levels false) p
end

/-- Compiles a path. -/
def Path.compile (t : Text) : Except PathError Path :=
  if t.isEmpty then .error .empty else compileWithin (maxNesting + 1) true (Place.start t)

end DotPath
