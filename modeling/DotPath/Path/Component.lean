import DotPath.Json.Quoted
import DotPath.Number.Reading
import DotPath.Path.Delimit
import DotPath.Path.Escape
import DotPath.Text.Glob

/-!
# Components without paths inside

Plain keys and positions, wildcards, transformers with their arguments, and literals. Each reader
takes the place where the component starts, in the part of the path that it may use, and gives the
segment and the place after it.
-/

namespace DotPath

/-- A reader's answer: what was read and the place after it, or why nothing was. -/
abbrev Reading (α : Type) := Except PathError (α × Place)

/-! ## Plain components -/

/-- Whether a character separates components. -/
def isSeparator (c : Char) : Bool :=
  c == '.' || c == '|'

/-- Number of characters before the first separator that no backslash protects. -/
def plainLength : Text → Nat
  | [] => 0
  | ['\\'] => 1
  | '\\' :: _ :: rest => plainLength rest + 2
  | c :: rest => if isSeparator c then 0 else plainLength rest + 1

/-- The segment that a plain component stands for: a position, a wildcard or a key. -/
def plainSegment (raw : Text) : Segment :=
  if raw.all Char.isDigit then
    match Number.uint64? raw with
    | some n => .index n
    | none => .field raw
  else if Glob.isPattern raw then .wildcard raw
  else .field (unescapeComponent raw)

/-- Reads a plain component. -/
def readPlain (p : Place) : Reading Segment :=
  match plainLength p.rest with
  | 0 => .error (.emptySegment p.offset)
  | n => .ok (plainSegment (p.rest.take n), p.skip n)

/-- Whether a component may end here: at a separator or at the end. -/
def endsComponent (p : Place) : Bool :=
  p.rest.head?.all isSeparator

/-! ## Transformers -/

/--
Reads the argument of a transformer: an object, array or string literal that has to end the
component, a number or word of JSON that does end it, or else a plain component.
-/
def readArgument (p : Place) : Reading Text :=
  match p.rest with
  | [] => .ok ([], p)
  | c :: _ =>
    if Json.isOpening c || c == '"' then
      match p.value? with
      | some (v, q) =>
        match q.rest.head? with
        | some d => if isSeparator d then .ok (v.raw, q) else .error (.unexpectedChar d q.offset)
        | none => .ok (v.raw, q)
      | none =>
        .error (if c == '"' then .unclosedString p.offset else .unbalanced p.offset p.finish)
    else
      let plain : Reading Text :=
        let n := plainLength p.rest
        .ok (unescapeComponent (p.rest.take n), p.skip n)
      match p.value? with
      | some (v, q) => if endsComponent q then .ok (v.raw, q) else plain
      | none => plain

/-- Whether a character ends the name of a transformer. -/
def endsName (c : Char) : Bool :=
  c == ':' || isSeparator c

/-- Reads a transformer, from its at sign on. -/
def readTransform (p : Place) : Reading Segment :=
  let afterSign := p.skip 1
  let name := afterSign.rest.takeWhile (!endsName ·)
  if name.isEmpty then .error (.emptySegment p.offset)
  else
    let afterName := afterSign.skip name.length
    match afterName.rest with
    | ':' :: _ =>
      (readArgument (afterName.skip 1)).map fun (argument, q) =>
        (.transform name (some argument) (p.upTo q).rest, q)
    | _ => .ok (.transform name none (p.upTo afterName).rest, afterName)

/-! ## Literals -/

/-- Reads a literal, from its exclamation mark on. -/
def readLiteral (p : Place) : Reading Segment :=
  match (p.skip 1).value? with
  | some (v, q) =>
    if endsComponent q then .ok (.literal v.raw, q) else .error (.invalidLiteral p.offset)
  | none => .error (.invalidLiteral p.offset)

/-! ## Every component takes at least one character -/

theorem length_of_readPlain {p q : Place} {s : Segment} (h : readPlain p = .ok (s, q)) :
    q.rest.length < p.rest.length := by
  unfold readPlain at h
  split at h
  · simp at h
  · next n hn =>
    simp only [Except.ok.injEq, Prod.mk.injEq] at h
    refine h.2 ▸ Place.length_skip_lt (Nat.pos_of_ne_zero hn) ?_
    intro h0
    simp [h0, plainLength] at hn

theorem length_of_readArgument {p q : Place} {a : Text} (h : readArgument p = .ok (a, q)) :
    q.rest.length ≤ p.rest.length := by
  have plain := p.length_skip_le (plainLength p.rest)
  unfold readArgument at h
  repeat' split at h
  all_goals simp only [Except.ok.injEq, Prod.mk.injEq, reduceCtorEq] at h
  · exact h.2 ▸ Nat.le_refl _
  · exact h.2 ▸ Nat.le_of_lt (Place.length_of_value? ‹_›)
  · exact h.2 ▸ Nat.le_of_lt (Place.length_of_value? ‹_›)
  · exact h.2 ▸ Nat.le_of_lt (Place.length_of_value? ‹_›)
  · exact h.2 ▸ plain
  · exact h.2 ▸ plain

theorem length_of_readTransform {p q : Place} {s : Segment} (h : readTransform p = .ok (s, q)) :
    q.rest.length < p.rest.length := by
  unfold readTransform at h
  simp only [List.isEmpty_iff] at h
  split at h
  · simp at h
  · next hname =>
    have hlen := List.length_pos_iff.2 hname
    have hsign := p.length_skip_le 1
    have hne : (p.skip 1).rest ≠ [] := by
      intro h0
      simp [h0] at hname
    have hafter := Place.length_skip_lt hlen hne
    split at h
    · simp only [Except.map] at h
      split at h
      · simp at h
      · next r hr =>
        simp only [Except.ok.injEq, Prod.mk.injEq] at h
        have := length_of_readArgument hr
        have := Place.length_skip_le
          ((p.skip 1).skip ((p.skip 1).rest.takeWhile (!endsName ·)).length) 1
        rw [← h.2]
        omega
    · simp only [Except.ok.injEq, Prod.mk.injEq] at h
      rw [← h.2]
      omega

theorem length_of_readLiteral {p q : Place} {s : Segment} (h : readLiteral p = .ok (s, q)) :
    q.rest.length < p.rest.length := by
  unfold readLiteral at h
  repeat' split at h
  · next hv _ =>
    simp only [Except.ok.injEq, Prod.mk.injEq] at h
    have := Place.length_of_value? hv
    have := p.length_skip_le 1
    rw [← h.2]
    omega
  · simp at h
  · simp at h

end DotPath
