import DotPath.Json.Place
import DotPath.Path.Basic
import DotPath.Path.Error

/-!
# Delimiting parts of a path

Groups, per-element paths, selector entries and comparisons are delimited before they are read. The
scans in this module move over a path unit by unit: a character that a backslash protects is one
unit with its backslash, a string literal is one unit, and any other character is a bare unit of its
own. Only bare characters can open or close a group or end a part.
-/

namespace DotPath

namespace Place

/--
The next unit of a path, as its character if it is bare, and the place after it; none at the end.
-/
def unit? (p : Place) : Except PathError (Option (Option Char × Place)) :=
  match p.rest with
  | [] => .ok none
  | c :: _ =>
    if c == '\\' then .ok (some (none, p.skip 2))
    else if c == '"' then
      match p.literal? with
      | some (_, q) => .ok (some (none, q))
      | none => .error (.unclosedString p.offset)
    else .ok (some (some c, p.skip 1))

theorem length_of_unit? {p q : Place} {c : Option Char} (h : p.unit? = .ok (some (c, q))) :
    q.rest.length < p.rest.length := by
  unfold unit? at h
  split at h
  · simp at h
  · next d rest hd =>
    have hne : p.rest ≠ [] := by simp [hd]
    repeat' split at h
    · simp only [Except.ok.injEq, Option.some.injEq, Prod.mk.injEq] at h
      exact h.2 ▸ length_skip_lt (by omega) hne
    · next hl =>
      simp only [Except.ok.injEq, Option.some.injEq, Prod.mk.injEq] at h
      exact h.2 ▸ length_of_literal? hl
    · simp at h
    · simp only [Except.ok.injEq, Option.some.injEq, Prod.mk.injEq] at h
      exact h.2 ▸ length_skip_lt (by omega) hne

end Place

/-- The bracket that closes the group opened by a character. -/
def closingOf? (c : Char) : Option Char :=
  if c == '(' then some ')'
  else if c == '[' then some ']'
  else if c == '\x7b' then some '\x7d'
  else none

/-- Whether a character closes a group. -/
def isGroupEnd (c : Char) : Bool :=
  c == ')' || c == ']' || c == '\x7d'

/-- Number of open groups after a bare character, brackets not being told apart. -/
def depthAfter (depth : Nat) (c : Char) : Nat :=
  if (closingOf? c).isSome then depth + 1 else if isGroupEnd c then depth - 1 else depth

/-! ## The end of a group -/

/--
The place of the bracket that closes a group. `stack` holds the closing brackets that are due, the
innermost first, and `opening` is the offset of the group.
-/
def closeFrom (opening : Nat) (stack : List Char) (p : Place) : Except PathError Place :=
  match _h : p.unit? with
  | .error e => .error e
  | .ok none => .error (.unbalanced opening p.offset)
  | .ok (some (none, q)) => closeFrom opening stack q
  | .ok (some (some c, q)) =>
    match closingOf? c with
    | some due => closeFrom opening (due :: stack) q
    | none =>
      if isGroupEnd c then
        match stack with
        | [] => .error (.unbalanced opening p.offset)
        | due :: outer =>
          if due != c then .error (.unbalanced opening p.offset)
          else if outer.isEmpty then .ok p
          else closeFrom opening outer q
      else closeFrom opening stack q
termination_by p.rest.length
decreasing_by all_goals exact Place.length_of_unit? ‹_›

/-- The place of the bracket that closes the group which starts here. -/
def groupEnd (p : Place) : Except PathError Place :=
  closeFrom p.offset [] p

/-! ## The next pipe -/

/-- The place of the first bare pipe outside groups, or the end; `depth` groups are open. -/
def pipeFrom (depth : Nat) (p : Place) : Except PathError Place :=
  match _h : p.unit? with
  | .error e => .error e
  | .ok none => .ok p
  | .ok (some (none, q)) => pipeFrom depth q
  | .ok (some (some c, q)) =>
    if c == '|' && depth == 0 then .ok p else pipeFrom (depthAfter depth c) q
termination_by p.rest.length
decreasing_by all_goals exact Place.length_of_unit? ‹_›

/-! ## Parts between separators -/

/--
The parts of `part` between separators outside groups. `part` begins at the current part, `p` is the
place reached in it, and `depth` groups are open.
-/
def splitFrom (separator : Text) (part : Place) (depth : Nat) (p : Place) :
    Except PathError (List Place) :=
  match _h : p.unit? with
  | .error e => .error e
  | .ok none => .ok [part]
  | .ok (some (none, q)) => splitFrom separator part depth q
  | .ok (some (some c, q)) =>
    if depth == 0 && separator.isPrefixOf p.rest then
      let after := q.skip (separator.length - 1)
      (splitFrom separator after 0 after).map (part.upTo p :: ·)
    else splitFrom separator part (depthAfter depth c) q
termination_by p.rest.length
decreasing_by
  all_goals have := Place.length_of_unit? ‹_›
  · exact this
  · have := q.length_skip_le (separator.length - 1)
    omega
  · exact this

/-- The parts of a text between separators outside groups. -/
def splitParts (separator : Text) (p : Place) : Except PathError (List Place) :=
  splitFrom separator p 0 p

/-! ## The operator of a comparison -/

/-- The operator that a text begins with, and its length. -/
def operator? : Text → Option (Operator × Nat)
  | '=' :: '=' :: _ => some (.equal, 2)
  | '=' :: _ => some (.equal, 1)
  | '!' :: '=' :: _ => some (.notEqual, 2)
  | '!' :: '%' :: _ => some (.unlike, 2)
  | '<' :: '=' :: _ => some (.lessEqual, 2)
  | '<' :: _ => some (.less, 1)
  | '>' :: '=' :: _ => some (.greaterEqual, 2)
  | '>' :: _ => some (.greater, 1)
  | '%' :: _ => some (.like, 1)
  | _ => none

/-- The first operator outside groups: its place, itself and its length; `depth` groups are open. -/
def operatorFrom (depth : Nat) (p : Place) : Except PathError (Option (Place × Operator × Nat)) :=
  match _h : p.unit? with
  | .error e => .error e
  | .ok none => .ok none
  | .ok (some (none, q)) => operatorFrom depth q
  | .ok (some (some c, q)) =>
    match depth, operator? p.rest with
    | 0, some (operator, length) => .ok (some (p, operator, length))
    | _, _ => operatorFrom (depthAfter depth c) q
termination_by p.rest.length
decreasing_by all_goals exact Place.length_of_unit? ‹_›

/-! ## Lengths of what is delimited -/

theorem length_of_closeFrom {opening : Nat} {stack : List Char} {p q : Place}
    (h : closeFrom opening stack p = .ok q) : q.rest.length ≤ p.rest.length ∧ q.rest ≠ [] := by
  fun_induction closeFrom opening stack p with
  | case1 | case2 | case5 | case6 => simp at h
  | case3 stack p r hr ih =>
    have := Place.length_of_unit? hr
    have := ih h
    exact ⟨by omega, this.2⟩
  | case4 stack p c r hr _ _ ih =>
    have := Place.length_of_unit? hr
    have := ih h
    exact ⟨by omega, this.2⟩
  | case7 p c r hr =>
    have := Place.length_of_unit? hr
    simp only [Except.ok.injEq] at h
    subst h
    exact ⟨Nat.le_refl _, List.ne_nil_of_length_pos (by omega)⟩
  | case8 p c r hr _ _ _ _ _ _ ih =>
    have := Place.length_of_unit? hr
    have := ih h
    exact ⟨by omega, this.2⟩
  | case9 stack p c r hr _ _ ih =>
    have := Place.length_of_unit? hr
    have := ih h
    exact ⟨by omega, this.2⟩

theorem length_of_pipeFrom {depth : Nat} {p q : Place} (h : pipeFrom depth p = .ok q) :
    q.rest.length ≤ p.rest.length := by
  fun_induction pipeFrom depth p with
  | case1 => simp at h
  | case2 | case4 => simp_all
  | case3 depth p r hr ih =>
    have := Place.length_of_unit? hr
    have := ih h
    omega
  | case5 depth p c r hr _ ih =>
    have := Place.length_of_unit? hr
    have := ih h
    omega

end DotPath
