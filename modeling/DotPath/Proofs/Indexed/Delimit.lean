import DotPath.Path.Compile
import DotPath.Proofs.Indexed.Run
import DotPath.Proofs.Path.Embedded

/-!
# Delimiting parts of a path by index

The scans for the ends of groups, for pipes, separators and operators, and the scans for plain
components and for space, on the octets of a path between two indices. Four of them go over what a
backslash protects and over string literals in the same way: `scan` is what they have in common, and
what one of them does at another octet is its argument. After a backslash the index may come to lie
inside a character, or behind the end of the part.

## Main results

* `scan_nil`, `scan_unit`, `scan_bare`, `scan_error`: a scan takes the units of a path.
* `findClose_mirrors`, `findPipe_mirrors`, `splitTop_mirrors`, `findOperator_mirrors`: the scans.
* `scanPlain_eq`, `skipSpaces_eq`, `trim_eq`: the scans that cannot fail.
-/

namespace DotPath.Indexed

open Json

/-! ## The scans -/

section Scan

variable {σ α : Type}

/--
One step of a scan from an index up to an end. At a bare octet it breaks, or goes on with a new
state from another index.
-/
def scanRound (data : Text) (stop : Nat) (past : σ → Run α)
    (bare : σ → Nat → Char → Run (α ⊕ σ × Nat)) : σ × Nat → Run (α ⊕ σ × Nat)
  | (s, x) => do
    match ← octetBelow data x stop with
    | none => return .inl (← past s)
    | some c =>
      if c == '\\' then return .inr (s, x + 2)
      else if c == '"' then
        match ← scanString (← octetsUpTo data stop) x with
        | some y => return .inr (s, y)
        | none => throw (.unclosedString x)
      else bare s x c

/-- A scan from an index up to an end; `past` is its result if it gets there. -/
def scan (data : Text) (stop : Nat) (past : σ → Run α)
    (bare : σ → Nat → Char → Run (α ⊕ σ × Nat)) : σ × Nat → Run α :=
  again (scanRound data stop past bare)

end Scan

/-- One step of the scan for the end of a group, with the brackets that are due. -/
def closeBare (opening : Nat) (stack : List Char) (x : Nat) (c : Char) :
    Run (Nat ⊕ List Char × Nat) :=
  match closingOf? c with
  | some due => return .inr (due :: stack, x + 1)
  | none =>
    if isGroupEnd c then
      match stack with
      | [] => throw (.unbalanced opening x)
      | due :: outer =>
        if due != c then throw (.unbalanced opening x)
        else if outer.isEmpty then return .inl x
        else return .inr (outer, x + 1)
    else return .inr (stack, x + 1)

/-- The index of the bracket that closes the group which starts at an index. -/
def findClose (data : Text) (opening stop : Nat) : Run Nat :=
  scan data stop (fun _ => throw (.unbalanced opening stop)) (closeBare opening) ([], opening)

/-- One step of the scan for a pipe, with the number of open groups. -/
def pipeBare (depth x : Nat) (c : Char) : Run (Nat ⊕ Nat × Nat) :=
  if (closingOf? c).isSome then return .inr (depth + 1, x + 1)
  else if isGroupEnd c then return .inr (depth - 1, x + 1)
  else if c == '|' && depth == 0 then return .inl x
  else return .inr (depth, x + 1)

/-- The index of the first pipe outside groups, or the end. -/
def findPipe (data : Text) (start stop : Nat) : Run Nat :=
  scan data stop (fun _ => return stop) pipeBare (0, start)

/--
One step of the scan for separators, with the parts that have been found, the start of the current
part and the number of open groups.
-/
def splitBare (data : Text) (stop : Nat) (separator : Text) :
    List (Nat × Nat) × Nat × Nat → Nat → Char →
      Run (List (Nat × Nat) ⊕ (List (Nat × Nat) × Nat × Nat) × Nat)
  | (parts, start, depth), x, c => do
    if (closingOf? c).isSome then return .inr ((parts, start, depth + 1), x + 1)
    else if isGroupEnd c then return .inr ((parts, start, depth - 1), x + 1)
    else
      let ahead ← octetsBetween data x stop
      if depth == 0 && separator.isPrefixOf ahead then
        let next := x + separator.length
        return .inr ((parts ++ [(start, x)], next, depth), next)
      else return .inr ((parts, start, depth), x + 1)

/-- The parts between separators outside groups. -/
def splitTop (data : Text) (start stop : Nat) (separator : Text) : Run (List (Nat × Nat)) :=
  scan data stop (fun s => return s.1 ++ [(s.2.1, stop)])
    (splitBare data stop separator) (([], start, 0), start)

/-- One step of the scan for an operator, with the number of open groups. -/
def operatorBare (data : Text) (stop depth x : Nat) (c : Char) :
    Run (Option (Nat × Operator × Nat) ⊕ Nat × Nat) := do
  let next ← octetBelow data (x + 1) stop
  if (closingOf? c).isSome then return .inr (depth + 1, x + 1)
  else if isGroupEnd c then return .inr (depth - 1, x + 1)
  else if depth > 0 then return .inr (depth, x + 1)
  else
    match operator? (c :: next.toList) with
    | some (operator, length) => return .inl (some (x, operator, length))
    | none => return .inr (depth, x + 1)

/-- The first operator outside groups, with its index and its length. -/
def findOperator (data : Text) (start stop : Nat) : Run (Option (Nat × Operator × Nat)) :=
  scan data stop (fun _ => return none) (operatorBare data stop) (0, start)

/-- One step through a plain component. -/
def plainRound (data : Text) (stop x : Nat) : Part (Nat ⊕ Nat) := do
  match ← octetBelow data x stop with
  | none => return .inl (min x stop)
  | some c =>
    return if c == '\\' then .inr (x + 2) else if isSeparator c then .inl (min x stop)
      else .inr (x + 1)

/-- The end of a plain component. -/
def scanPlain (data : Text) (start stop : Nat) : Part Nat :=
  loop (plainRound data stop) start

/-- One step over octets of a class, below an end. -/
def passRound (data : Text) (f : Char → Bool) (stop x : Nat) : Part (Nat ⊕ Nat) := do
  return if (← octetBelow data x stop).any f then .inr (x + 1) else .inl x

/-- The index after the octets of a class that come next, or the end. -/
def pass (data : Text) (f : Char → Bool) (start stop : Nat) : Part Nat :=
  loop (passRound data f stop) start

/-- One step back over space, from the end of a part. -/
def trimRound (data : Text) (start stop : Nat) : Part (Nat ⊕ Nat) :=
  if stop > start then do
    let last ← subtract stop 1
    return if isPathSpace (← octet data last) then .inr last else .inl stop
  else return .inl stop

/-- The indices of a part without the space around it. -/
def trim (data : Text) (start stop : Nat) : Part (Nat × Nat) := do
  let start ← pass data isPathSpace start stop
  return (start, ← loop (trimRound data start) stop)

/-! ## What a scan does -/

section Scan

variable {σ α : Type} {t : Text} {stop x : Nat} {p q : Place} {c : Char} {s : σ}
  {past : σ → Run α} {bare : σ → Nat → Char → Run (α ⊕ σ × Nat)}

section Octets

variable (h : IsPart t stop p)
include h

/-- A scan whose index is behind the end. -/
theorem scan_past (hx : (t.asOctets.take stop)[x]? = none) :
    scan t.asOctets stop past bare (s, x) = past s := by
  rw [scan, again_eq, scanRound, h.octetBelow, lift_some, pure_bind, hx]
  simp only [bind_assoc, pure_bind, Sum.elim_inl, bind_pure]

theorem scan_backslash (hx : (t.asOctets.take stop)[x]? = some '\\') :
    scan t.asOctets stop past bare (s, x) = scan t.asOctets stop past bare (s, x + 2) := by
  rw [scan, again_eq, scanRound, h.octetBelow, lift_some, pure_bind, hx]
  exact pure_bind _ _

theorem scan_quote (hx : (t.asOctets.take stop)[x]? = some '"') {y : Option Nat}
    (hy : scanString (t.asOctets.take stop) x = .some y) :
    scan t.asOctets stop past bare (s, x) = y.elim (throw (.unclosedString x)) fun y =>
      scan t.asOctets stop past bare (s, y) := by
  rw [scan, again_eq, scanRound, h.octetBelow, lift_some, pure_bind, hx]
  dsimp only
  rw [if_neg (by decide), if_pos (beq_self_eq_true _), h.octetsUpTo, lift_some, pure_bind, hy,
    lift_some, pure_bind]
  cases y with
  | none => exact throw_bind _ _
  | some y => exact pure_bind _ _

theorem scan_octet (hx : (t.asOctets.take stop)[x]? = some c) (hbackslash : c ≠ '\\')
    (hquote : c ≠ '"') : scan t.asOctets stop past bare (s, x) =
      bare s x c >>= Sum.elim pure (scan t.asOctets stop past bare) := by
  rw [scan, again_eq, scanRound, h.octetBelow, lift_some, pure_bind, hx]
  dsimp only
  rw [beq_false_of_ne hbackslash, beq_false_of_ne hquote, if_neg Bool.false_ne_true,
    if_neg Bool.false_ne_true]

/-- An octet that leaves the state as it is. -/
theorem scan_ignored (hx : (t.asOctets.take stop)[x]? = some c) (hbackslash : c ≠ '\\')
    (hquote : c ≠ '"') (hbare : bare s x c = pure (.inr (s, x + 1))) :
    scan t.asOctets stop past bare (s, x) = scan t.asOctets stop past bare (s, x + 1) := by
  rw [scan_octet h hx hbackslash hquote, hbare, pure_bind]
  rfl

end Octets

/-- A scan of octets that ignores those that are no ASCII. -/
def Ignoring (data : Text) (bare : σ → Nat → Char → Run (α ⊕ σ × Nat)) : Prop :=
  ∀ s x o, data[x]? = some o → 0x80 ≤ o.toNat → bare s x o = pure (.inr (s, x + 1))

theorem Ignoring.scan_high (hbare : Ignoring (t.asOctets.take stop) bare) (h : IsPart t stop p)
    {o : Char} (hx : (t.asOctets.take stop)[x]? = some o) (ho : 0x80 ≤ o.toNat) :
    scan t.asOctets stop past bare (s, x) = scan t.asOctets stop past bare (s, x + 1) :=
  scan_ignored h hx (ne_of_high ho (by decide)) (ne_of_high ho (by decide))
    (hbare s x o hx ho)

/-! ### Units -/

theorem bare_of_unit? (hp : p.unit? = .ok (some (some c, q))) :
    c ≠ '\\' ∧ c ≠ '"' ∧ ∃ rest, p.rest = c :: rest ∧ q = p.skip 1 := by
  rcases Place.unit?_cases hp with ⟨_, _, hc, _⟩ | ⟨_, _, _, hc, _⟩ | ⟨d, rest, hrest, hb, hq, hc, rfl⟩
  · cases hc
  · cases hc
  · cases hc
    exact ⟨hb, hq, rest, hrest, rfl⟩

theorem IsPart.of_unit? (h : IsPart t stop p) {c : Option Char}
    (hp : p.unit? = .ok (some (c, q))) : IsPart t stop q := by
  rcases Place.unit?_cases hp with ⟨_, _, _, rfl⟩ | ⟨v, _, _, _, hv⟩ | ⟨_, _, _, _, _, _, rfl⟩
  · exact h.skip 2
  · obtain ⟨-, -, -, rfl⟩ := Place.eq_of_literal? hv
    exact h.skip _
  · exact h.skip 1

/-- At the end of the part. -/
theorem scan_nil (h : IsPart t stop p) (hp : p.unit? = .ok none) :
    scan t.asOctets stop past bare (s, p.offset) = past s := by
  have hends := h.ends
  rw [Place.unit?_eq_none hp] at hends
  exact scan_past h hends.getElem?_nil

/-- At a quote that opens no literal. -/
theorem scan_error (h : IsPart t stop p) {e : PathError} (hp : p.unit? = .error e) :
    scan t.asOctets stop past bare (s, p.offset) = throw e ∧ e.Within (Text.byteLength t) := by
  unfold Place.unit? at hp
  split at hp
  · cases hp
  · next c rest hrest =>
      repeat' split at hp
      · cases hp
      · cases hp
      · next hquote _ hliteral =>
          cases hp
          obtain rfl := beq_iff_eq.1 hquote
          have hholds := h.ends.holds
          rw [hrest] at hholds
          have hstring := scanString_literal h.ends hrest
          rw [hliteral] at hstring
          exact ⟨scan_quote h (hholds.getElem?_eq (by decide)) hstring, h.offset_le_byteLength⟩
      · cases hp

/-- Over what a backslash protects, and over a literal. -/
theorem scan_unit (hbare : Ignoring (t.asOctets.take stop) bare) (h : IsPart t stop p)
    (hp : p.unit? = .ok (some (none, q))) :
    scan t.asOctets stop past bare (s, p.offset) =
      scan t.asOctets stop past bare (s, q.offset) := by
  have hholds := h.ends.holds
  rcases Place.unit?_cases hp with
    ⟨rest, hrest, _, rfl⟩ | ⟨v, rest, hrest, _, hv⟩ | ⟨_, _, _, _, _, hc, _⟩
  · rw [hrest] at hholds
    rw [scan_backslash h (hholds.getElem?_eq (by decide))]
    refine h.jump_backslash hrest (fun x => scan t.asOctets stop past bare (s, x)) (fun x hx => ?_)
      fun x o ho hhigh => hbare.scan_high h ho hhigh
    rw [scan_past h (h.getElem?_past hx), scan_past h (h.getElem?_past (Nat.le_refl stop))]
  · rw [hrest] at hholds
    have hstring := scanString_literal h.ends hrest
    rw [hv] at hstring
    exact scan_quote h (hholds.getElem?_eq (by decide)) hstring
  · cases hc

/-- At a bare character that is ASCII, the scan does what it does at its octet. -/
theorem scan_bare (h : IsPart t stop p) (hp : p.unit? = .ok (some (some c, q)))
    (hc : c.toNat < 0x80) : scan t.asOctets stop past bare (s, p.offset) =
      bare s p.offset c >>= Sum.elim pure (scan t.asOctets stop past bare) ∧
        q.offset = p.offset + 1 := by
  obtain ⟨hbackslash, hquote, rest, hrest, rfl⟩ := bare_of_unit? hp
  have hholds := h.ends.holds
  rw [hrest] at hholds
  obtain ⟨hnext, -⟩ := offset_skip_succ (p := p) (n := 0) hrest
  rw [utf8Size_of_lt hc] at hnext
  exact ⟨scan_octet h (hholds.getElem?_eq hc) hbackslash hquote, hnext⟩

theorem scan_breaks (h : IsPart t stop p) (hp : p.unit? = .ok (some (some c, q)))
    (hc : c.toNat < 0x80) {a : α} (hbare : bare s p.offset c = pure (.inl a)) :
    scan t.asOctets stop past bare (s, p.offset) = pure a := by
  rw [(scan_bare h hp hc).1, hbare, pure_bind]
  rfl

theorem scan_fails (h : IsPart t stop p) (hp : p.unit? = .ok (some (some c, q)))
    (hc : c.toNat < 0x80) {e : PathError} (hbare : bare s p.offset c = throw e) :
    scan t.asOctets stop past bare (s, p.offset) = throw e := by
  rw [(scan_bare h hp hc).1, hbare, throw_bind]

theorem scan_goes (h : IsPart t stop p) (hp : p.unit? = .ok (some (some c, q)))
    (hc : c.toNat < 0x80) {next : σ}
    (hbare : bare s p.offset c = pure (.inr (next, p.offset + 1))) :
    scan t.asOctets stop past bare (s, p.offset) =
      scan t.asOctets stop past bare (next, q.offset) := by
  obtain ⟨hscan, hnext⟩ := scan_bare h hp hc
  rw [hscan, hbare, pure_bind, hnext]
  rfl

/-- A scan goes over a character that it ignores if it is ASCII. -/
theorem scan_plain (hbare : Ignoring (t.asOctets.take stop) bare) (h : IsPart t stop p)
    (hp : p.unit? = .ok (some (some c, q)))
    (hc : c.toNat < 0x80 → bare s p.offset c = pure (.inr (s, p.offset + 1))) :
    scan t.asOctets stop past bare (s, p.offset) =
      scan t.asOctets stop past bare (s, q.offset) := by
  by_cases hlow : c.toNat < 0x80
  · exact scan_goes h hp hlow (hc hlow)
  · obtain ⟨-, -, rest, hrest, rfl⟩ := bare_of_unit? hp
    have hholds := h.ends.holds
    rw [hrest] at hholds
    obtain ⟨hnext, -⟩ := offset_skip_succ (p := p) (n := 0) hrest
    have hjump := hholds.jump_high (Nat.le_of_not_lt hlow)
      (fun x => scan t.asOctets stop past bare (s, x)) fun x o _ ho hhigh =>
        hbare.scan_high h ho hhigh
    exact hjump.trans (congrArg (fun x => scan t.asOctets stop past bare (s, x)) hnext.symm)

end Scan

/-! ## Groups and pipes -/

section Groups

theorem isLow_closingOf? : IsLow fun c => (closingOf? c).isSome := by
  intro c hc
  by_contra hhigh
  have hne : ∀ d : Char, d.toNat < 0x80 → (c == d) = false := fun d hd =>
    beq_false_of_ne (ne_of_high (Nat.le_of_not_lt hhigh) hd)
  simp [closingOf?, hne '(' (by decide), hne '[' (by decide), hne '\x7b' (by decide)] at hc

theorem isLow_isGroupEnd : IsLow isGroupEnd :=
  ((isLow_beq (by decide)).or (isLow_beq (by decide))).or (isLow_beq (by decide))

variable {t : Text} {stop : Nat} {p q : Place}

theorem closingOf?_eq_none {o : Char} (ho : 0x80 ≤ o.toNat) : closingOf? o = none :=
  Option.not_isSome_iff_eq_none.1 (ne_true_of_eq_false (isLow_closingOf?.eq_false ho))

theorem closeBare_ignoring (data : Text) (opening : Nat) :
    Ignoring data (closeBare opening) := by
  intro stack x o _ ho
  unfold closeBare
  rw [closingOf?_eq_none ho, isLow_isGroupEnd.eq_false ho]
  rfl

theorem closeFrom_mirrors {opening : Nat} (hopening : opening ≤ Text.byteLength t)
    (h : IsPart t stop p) (stack : List Char) :
    Mirrors t (·.offset) (IsPart t stop)
      (scan t.asOctets stop (fun _ => throw (.unbalanced opening stop)) (closeBare opening)
        (stack, p.offset)) (closeFrom opening stack p) := by
  fun_induction closeFrom opening stack p with
  | case1 stack p e he =>
      obtain ⟨hscan, hwithin⟩ := scan_error h he
      rw [hscan]
      exact .error hwithin
  | case2 stack p hp =>
      rw [scan_nil h hp, h.offset_eq (Place.unit?_eq_none hp)]
      exact .error ⟨hopening, h.stop_le⟩
  | case3 stack p q hq ih =>
      rw [scan_unit (closeBare_ignoring _ opening) h hq]
      exact ih (h.of_unit? hq)
  | case4 stack p c q hq due hdue ih =>
      have hbare : closeBare opening stack p.offset c =
          pure (.inr (due :: stack, p.offset + 1)) := by
        unfold closeBare
        rw [hdue]
      rw [scan_goes h hq (isLow_closingOf? c (Option.isSome_of_eq_some hdue)) hbare]
      exact ih (h.of_unit? hq)
  | case5 p c q hq hclosing hend =>
      have hbare : closeBare opening [] p.offset c = throw (.unbalanced opening p.offset) := by
        unfold closeBare
        rw [hclosing, hend]
        rfl
      rw [scan_fails h hq (isLow_isGroupEnd c hend) hbare]
      exact .error ⟨hopening, h.offset_le_byteLength⟩
  | case6 p c q hq hclosing hend due outer hdue =>
      have hbare : closeBare opening (due :: outer) p.offset c =
          throw (.unbalanced opening p.offset) := by
        unfold closeBare
        rw [hclosing, hend]
        exact if_pos hdue
      rw [scan_fails h hq (isLow_isGroupEnd c hend) hbare]
      exact .error ⟨hopening, h.offset_le_byteLength⟩
  | case7 p c q hq hclosing hend due outer hdue houter =>
      have hbare : closeBare opening (due :: outer) p.offset c = pure (.inl p.offset) := by
        unfold closeBare
        rw [hclosing, hend]
        exact (if_neg hdue).trans (if_pos houter)
      rw [scan_breaks h hq (isLow_isGroupEnd c hend) hbare]
      exact .ok h
  | case8 p c q hq hclosing hend due outer hdue houter ih =>
      have hbare : closeBare opening (due :: outer) p.offset c =
          pure (.inr (outer, p.offset + 1)) := by
        unfold closeBare
        rw [hclosing, hend]
        exact (if_neg hdue).trans (if_neg houter)
      rw [scan_goes h hq (isLow_isGroupEnd c hend) hbare]
      exact ih (h.of_unit? hq)
  | case9 stack p c q hq hclosing hend ih =>
      have hbare : closeBare opening stack p.offset c = pure (.inr (stack, p.offset + 1)) := by
        unfold closeBare
        rw [hclosing]
        exact if_neg hend
      rw [scan_plain (closeBare_ignoring _ opening) h hq fun _ => hbare]
      exact ih (h.of_unit? hq)

/-- The end of a group. -/
theorem findClose_mirrors (h : IsPart t stop p) :
    Mirrors t (·.offset) (IsPart t stop) (findClose t.asOctets p.offset stop) (groupEnd p) :=
  closeFrom_mirrors h.offset_le_byteLength h []

/-- A group ends with a bracket. -/
theorem exists_of_closeFrom {opening : Nat} {stack : List Char}
    (h : closeFrom opening stack p = .ok q) :
    ∃ c rest, q.rest = c :: rest ∧ isGroupEnd c = true := by
  fun_induction closeFrom opening stack p with
  | case1 | case2 | case5 | case6 => cases h
  | case3 stack p r hr ih => exact ih h
  | case4 stack p c r hr due hdue ih => exact ih h
  | case7 p c r hr hclosing hend =>
      cases h
      obtain ⟨-, -, rest, hrest, -⟩ := bare_of_unit? hr
      exact ⟨c, rest, hrest, hend⟩
  | case8 p c r hr hdue hend due outer hmatch houter ih => exact ih h
  | case9 stack p c r hr hdue hend ih => exact ih h

/-- The bracket that closes a group comes after the one that opens it. -/
theorem suffix_of_groupEnd {c : Char} {rest : Text} (hp : p.rest = c :: rest)
    (hc : (closingOf? c).isSome = true) (h : groupEnd p = .ok q) : q.rest <:+ (p.skip 1).rest := by
  obtain ⟨due, hdue⟩ := Option.isSome_iff_exists.1 hc
  obtain ⟨⟨hbackslash, hquote⟩, -⟩ := bare_of_closingOf? hdue
  rw [groupEnd, closeFrom_bare (Place.unit?_bare hp hbackslash hquote), hdue] at h
  exact suffix_of_closeFrom h

theorem pipeBare_ignoring (data : Text) : Ignoring data pipeBare := by
  intro depth x o _ ho
  rw [pipeBare, closingOf?_eq_none ho, isLow_isGroupEnd.eq_false ho,
    beq_false_of_ne (ne_of_high ho (by decide))]
  rfl

/-- A scan that counts the open groups, at a bare character with no other meaning. -/
theorem scan_depthAfter {σ α : Type} {past : σ → Run α}
    {bare : σ → Nat → Char → Run (α ⊕ σ × Nat)} (hbare : Ignoring (t.asOctets.take stop) bare)
    (h : IsPart t stop p) {c : Char} (hp : p.unit? = .ok (some (some c, q))) (f : Nat → σ) {depth : Nat}
    (hopening : (closingOf? c).isSome = true →
      bare (f depth) p.offset c = pure (.inr (f (depth + 1), p.offset + 1)))
    (hclosing : ¬ (closingOf? c).isSome = true → isGroupEnd c = true →
      bare (f depth) p.offset c = pure (.inr (f (depth - 1), p.offset + 1)))
    (hplain : ¬ (closingOf? c).isSome = true → ¬ isGroupEnd c = true → c.toNat < 0x80 →
      bare (f depth) p.offset c = pure (.inr (f depth, p.offset + 1))) :
    scan t.asOctets stop past bare (f depth, p.offset) =
      scan t.asOctets stop past bare (f (depthAfter depth c), q.offset) := by
  rw [depthAfter]
  split
  · next hc => exact scan_goes h hp (isLow_closingOf? c hc) (hopening hc)
  · next hc =>
      split
      · next hend => exact scan_goes h hp (isLow_isGroupEnd c hend) (hclosing hc hend)
      · next hend => exact scan_plain hbare h hp (hplain hc hend)

theorem pipeFrom_mirrors (h : IsPart t stop p) (depth : Nat) :
    Mirrors t (·.offset) (IsPart t stop)
      (scan t.asOctets stop (fun _ => pure stop) pipeBare (depth, p.offset))
      (pipeFrom depth p) := by
  fun_induction pipeFrom depth p with
  | case1 depth p e he =>
      obtain ⟨hscan, hwithin⟩ := scan_error h he
      rw [hscan]
      exact .error hwithin
  | case2 depth p hp =>
      have hstop : (pure stop : Run Nat) = pure p.offset :=
        congrArg pure (h.offset_eq (Place.unit?_eq_none hp)).symm
      rw [scan_nil h hp, hstop]
      exact .ok h
  | case3 depth p q hq ih =>
      rw [scan_unit (pipeBare_ignoring _) h hq]
      exact ih (h.of_unit? hq)
  | case4 depth p c q hq hpipe =>
      obtain ⟨hc, hdepth⟩ := Bool.and_eq_true_iff.1 hpipe
      obtain rfl := beq_iff_eq.1 hc
      rw [scan_breaks h hq (by decide) (a := p.offset) (if_pos hpipe)]
      exact .ok h
  | case5 depth p c q hq hpipe ih =>
      rw [scan_depthAfter (pipeBare_ignoring _) h hq (fun depth => depth) (if_pos ·)
        (fun hc hend => (if_neg hc).trans (if_pos hend))
        (fun hc hend _ => (if_neg hc).trans ((if_neg hend).trans (if_neg hpipe)))]
      exact ih (h.of_unit? hq)

/-- The next pipe. -/
theorem findPipe_mirrors (h : IsPart t stop p) :
    Mirrors t (·.offset) (IsPart t stop) (findPipe t.asOctets p.offset stop) (pipeFrom 0 p) :=
  pipeFrom_mirrors h 0

end Groups

/-! ## Separators -/

section Separators

variable {t more : Text} {stop : Nat} {mark : Char} {p part : Place}

/-- The indices of a part of a text. -/
def bounds (p : Place) : Nat × Nat :=
  (p.offset, p.finish)

/-- Where no bracket stands, the octets ahead decide whether a part ends. -/
theorem splitBare_eq {data separator ahead : Text} {c : Char} {x : Nat}
    (hopening : ¬ (closingOf? c).isSome = true) (hclosing : ¬ isGroupEnd c = true)
    (hahead : octetsBetween data x stop = .some ahead) (parts : List (Nat × Nat))
    (start depth : Nat) : splitBare data stop separator (parts, start, depth) x c =
      if depth == 0 && separator.isPrefixOf ahead then
        pure (.inr ((parts ++ [(start, x)], x + separator.length, depth), x + separator.length))
      else pure (.inr ((parts, start, depth), x + 1)) := by
  rw [splitBare, if_neg hopening, if_neg hclosing, hahead, lift_some, pure_bind]

theorem beq_bounds (p : Place) : ((bounds p).1 == (bounds p).2) = p.rest.isEmpty :=
  beq_finish p

theorem splitBare_ignoring (h : IsPart t stop p) (hmark : mark.toNat < 0x80) :
    Ignoring (t.asOctets.take stop) (splitBare t.asOctets stop (mark :: more)) := by
  rintro ⟨parts, start, depth⟩ x o hx ho
  have hne : (mark == o) = false := beq_false_of_ne (ne_of_high ho hmark).symm
  rw [splitBare_eq (ne_true_of_eq_false (isLow_closingOf?.eq_false ho))
    (ne_true_of_eq_false (isLow_isGroupEnd.eq_false ho)) (h.octetsBetween_of_octet hx),
    List.isPrefixOf, hne, Bool.false_and, Bool.and_false, if_neg Bool.false_ne_true]

theorem isPrefixOf_asOctets {word : Text} (hword : ∀ c ∈ word, c.toNat < 0x80) (t : Text) :
    word.isPrefixOf t.asOctets = word.isPrefixOf t := by
  rw [Bool.eq_iff_iff, List.isPrefixOf_iff_prefix, List.isPrefixOf_iff_prefix,
    prefix_asOctets_iff hword]

theorem splitFrom_mirrors (hlow : ∀ c ∈ mark :: more, c.toNat < 0x80)
    (hopening : (closingOf? mark).isSome = false) (hclosing : isGroupEnd mark = false)
    (h : IsPart t stop p) (hpart : IsPart t stop part) (hsuffix : p.rest <:+ part.rest)
    (parts : List (Nat × Nat)) (depth : Nat) :
    Mirrors t (fun found => parts ++ found.map bounds) (∀ q ∈ ·, IsPart t q.finish q)
      (scan t.asOctets stop (fun s => pure (s.1 ++ [(s.2.1, stop)]))
        (splitBare t.asOctets stop (mark :: more)) ((parts, part.offset, depth), p.offset))
      (splitFrom (mark :: more) part depth p) := by
  have hmark := hlow mark List.mem_cons_self
  fun_induction splitFrom (mark :: more) part depth p generalizing parts with
  | case1 part depth p e he =>
      obtain ⟨hscan, hwithin⟩ := scan_error h he
      rw [hscan]
      exact .error hwithin
  | case2 part depth p hp =>
      have hbounds : (part.offset, stop) = bounds part := by
        rw [← hpart.finish_eq]
        rfl
      rw [scan_nil h hp, hbounds]
      refine Mirrors.ok (b := [part]) fun q hq => ?_
      obtain rfl := List.mem_singleton.1 hq
      rw [hpart.finish_eq]
      exact hpart
  | case3 part depth p q hq ih =>
      rw [scan_unit (splitBare_ignoring h hmark) h hq]
      exact ih (h.of_unit? hq) hpart ((Place.suffix_of_unit? hq).trans hsuffix) parts
  | case4 part depth p c q hq hsep after ih =>
      obtain ⟨hdepth, hprefix⟩ := Bool.and_eq_true_iff.1 hsep
      obtain rfl := beq_iff_eq.1 hdepth
      obtain ⟨-, -, rest, hrest, rfl⟩ := bare_of_unit? hq
      obtain rfl : mark = c := by
        rw [hrest] at hprefix
        exact (List.cons_prefix_cons.1 (List.isPrefixOf_iff_prefix.1 hprefix)).1
      have hupTo := hpart.upTo h hsuffix
      have hbounds : bounds (part.upTo p) = (part.offset, p.offset) :=
        congrArg (part.offset, ·) hupTo.finish_eq
      have hafter : after = p.skip (mark :: more).length := by
        rw [List.length_cons, Nat.add_comm, ← skip_skip]
        rfl
      have hindex : after.offset = p.offset + (mark :: more).length := by
        obtain ⟨tail, htail⟩ := List.isPrefixOf_iff_prefix.1 hprefix
        rw [hafter, offset_skip_of_low hlow htail.symm]
      have hpart' : IsPart t stop after := hafter ▸ h.skip _
      rw [(scan_bare h hq hmark).1, splitBare_eq (ne_true_of_eq_false hopening)
        (ne_true_of_eq_false hclosing) h.octetsBetween, isPrefixOf_asOctets hlow, if_pos hsep,
        pure_bind, Sum.elim_inr, ← hindex]
      refine (ih hpart' hpart' (List.suffix_refl _) _).regard (fun found => ?_) fun found hfound => ?_
      · rw [List.map_cons, hbounds, List.append_assoc]
        rfl
      · refine List.forall_mem_cons.2 ⟨?_, hfound⟩
        rw [hupTo.finish_eq]
        exact hupTo
  | case5 part depth p c q hq hsep ih =>
      rw [scan_depthAfter (splitBare_ignoring h hmark) h hq (fun depth => (parts, part.offset, depth))
        (fun hc => by rw [splitBare, if_pos hc])
        (fun hc hend => by rw [splitBare, if_neg hc, if_pos hend])
        (fun hc hend _ => by
          rw [splitBare_eq hc hend h.octetsBetween, isPrefixOf_asOctets hlow, if_neg hsep])]
      exact ih (h.of_unit? hq) hpart ((Place.suffix_of_unit? hq).trans hsuffix) parts

/-- The parts between separators. -/
theorem splitTop_mirrors (hlow : ∀ c ∈ mark :: more, c.toNat < 0x80)
    (hopening : (closingOf? mark).isSome = false) (hclosing : isGroupEnd mark = false)
    (h : IsPart t stop p) :
    Mirrors t (List.map bounds) (∀ q ∈ ·, IsPart t q.finish q)
      (splitTop t.asOctets p.offset stop (mark :: more)) (splitParts (mark :: more) p) :=
  splitFrom_mirrors hlow hopening hclosing h h (List.suffix_refl _) [] 0

end Separators

/-! ## Operators -/

section Operators

variable {t : Text} {stop : Nat} {p q : Place} {c : Char}

theorem any_head?_eq_false {d : Char} {u : Text} (h : ∀ tail, u = d :: tail → False) :
    u.head?.any (· == d) = false := by
  cases u with
  | nil => rfl
  | cons e u => exact beq_false_of_ne fun he => h u (he ▸ rfl)

/-- Which operator a text begins with depends on its first two characters only. -/
theorem operator?_cons (c : Char) (u : Text) :
    operator? (c :: u) =
      if c == '=' then some (.equal, if u.head?.any (· == '=') then 2 else 1)
      else if c == '!' then
        if u.head?.any (· == '=') then some (.notEqual, 2)
        else if u.head?.any (· == '%') then some (.unlike, 2)
        else none
      else if c == '<' then some (if u.head?.any (· == '=') then (.lessEqual, 2) else (.less, 1))
      else if c == '>' then
        some (if u.head?.any (· == '=') then (.greaterEqual, 2) else (.greater, 1))
      else if c == '%' then some (.like, 1)
      else none := by
  unfold operator?
  split
  case h_10 =>
      cases u <;> simp_all
  all_goals
    next heq =>
      cases heq
      first
        | rfl
        | next h => simp [any_head?_eq_false h]

theorem operator?_of_high (hc : 0x80 ≤ c.toNat) (u : Text) : operator? (c :: u) = none := by
  have hne : ∀ {d : Char}, d.toNat < 0x80 → ¬ (c == d) = true := fun hd =>
    ne_true_of_eq_false (beq_false_of_ne (ne_of_high hc hd))
  rw [operator?_cons, if_neg (hne (by decide)), if_neg (hne (by decide)), if_neg (hne (by decide)),
    if_neg (hne (by decide)), if_neg (hne (by decide))]

/-- The octets of a text begin with the operator that the text begins with. -/
theorem operator?_octets {data u : Text} {x : Nat} (h : Ends data x u) (c : Char) :
    operator? (c :: data[x]?.toList) = operator? (c :: u) := by
  have hany : ∀ {d : Char}, d.toNat < 0x80 →
      data[x]?.toList.head?.any (· == d) = u.head?.any (· == d) := by
    intro d hd
    rw [← h.any_getElem? (isLow_beq hd)]
    cases data[x]? <;> rfl
  rw [operator?_cons, operator?_cons, hany (by decide), hany (by decide)]

/-- The characters of an operator are ASCII. -/
theorem exists_of_operator? {u : Text} {operator : Operator} {length : Nat}
    (h : operator? u = some (operator, length)) :
    ∃ word rest, u = word ++ rest ∧ word.length = length ∧ ∀ c ∈ word, c.toNat < 0x80 := by
  unfold operator? at h
  split at h
  all_goals cases h
  · exact ⟨['=', '='], _, rfl, rfl, by simp⟩
  · exact ⟨['='], _, rfl, rfl, by simp⟩
  · exact ⟨['!', '='], _, rfl, rfl, by simp⟩
  · exact ⟨['!', '%'], _, rfl, rfl, by simp⟩
  · exact ⟨['<', '='], _, rfl, rfl, by simp⟩
  · exact ⟨['<'], _, rfl, rfl, by simp⟩
  · exact ⟨['>', '='], _, rfl, rfl, by simp⟩
  · exact ⟨['>'], _, rfl, rfl, by simp⟩
  · exact ⟨['%'], _, rfl, rfl, by simp⟩

/-- No bracket begins an operator. -/
theorem plain_of_operator? {u : Text} {r : Operator × Nat} (h : operator? (c :: u) = some r) :
    ¬ (closingOf? c).isSome = true ∧ ¬ isGroupEnd c = true := by
  unfold operator? at h
  split at h
  case h_10 => cases h
  all_goals
    next heq =>
      cases heq
      exact ⟨by decide, by decide⟩

section Bare

variable {data : Text} {depth x : Nat} {next : Option Char}
  (hopening : ¬ (closingOf? c).isSome = true) (hclosing : ¬ isGroupEnd c = true)
  (hnext : octetBelow data (x + 1) stop = .some next)
include hopening hclosing hnext

theorem operatorBare_inside (hdepth : 0 < depth) :
    operatorBare data stop depth x c = pure (.inr (depth, x + 1)) := by
  rw [operatorBare, hnext, lift_some, pure_bind, if_neg hopening, if_neg hclosing, if_pos hdepth]

theorem operatorBare_found {operator : Operator} {length : Nat}
    (h : operator? (c :: next.toList) = some (operator, length)) :
    operatorBare data stop 0 x c = pure (.inl (some (x, operator, length))) := by
  rw [operatorBare, hnext, lift_some, pure_bind, if_neg hopening, if_neg hclosing,
    if_neg (Nat.lt_irrefl 0), h]

theorem operatorBare_none (h : operator? (c :: next.toList) = none) :
    operatorBare data stop depth x c = pure (.inr (depth, x + 1)) := by
  rw [operatorBare, hnext, lift_some, pure_bind, if_neg hopening, if_neg hclosing, h]
  exact ite_self _

end Bare

theorem operatorBare_ignoring (h : IsPart t stop p) :
    Ignoring (t.asOctets.take stop) (operatorBare t.asOctets stop) := by
  intro depth x o _ ho
  exact operatorBare_none (ne_true_of_eq_false (isLow_closingOf?.eq_false ho))
    (ne_true_of_eq_false (isLow_isGroupEnd.eq_false ho)) (h.octetBelow _)
    (operator?_of_high ho _)

/-- At a bare character that is ASCII, its octet and the next one tell the operator. -/
theorem operator?_at (h : IsPart t stop p) (hp : p.unit? = .ok (some (some c, q)))
    (hc : c.toNat < 0x80) :
    operator? (c :: (t.asOctets.take stop)[p.offset + 1]?.toList) = operator? p.rest := by
  obtain ⟨-, -, rest, hrest, rfl⟩ := bare_of_unit? hp
  obtain ⟨hnext, hdrop⟩ := offset_skip_succ (p := p) (n := 0) hrest
  rw [utf8Size_of_lt hc] at hnext
  have hends : Ends (t.asOctets.take stop) (p.offset + 1) rest := by
    have hends := ends_skip h.ends hdrop
    rwa [hnext] at hends
  rw [operator?_octets hends, hrest]

theorem operatorFrom_mirrors (h : IsPart t stop p) (depth : Nat) :
    Mirrors t (Option.map fun r => (r.1.offset, r.2))
      (fun found => ∀ r ∈ found, IsPart t stop r.1 ∧ r.1.rest <:+ p.rest ∧
        operator? r.1.rest = some r.2)
      (scan t.asOctets stop (fun _ => pure none) (operatorBare t.asOctets stop)
        (depth, p.offset)) (operatorFrom depth p) := by
  fun_induction operatorFrom depth p with
  | case1 depth p e he =>
      obtain ⟨hscan, hwithin⟩ := scan_error h he
      rw [hscan]
      exact .error hwithin
  | case2 depth p hp =>
      rw [scan_nil h hp]
      exact Mirrors.ok (b := none) (by simp)
  | case3 depth p q hq ih =>
      rw [scan_unit (operatorBare_ignoring h) h hq]
      refine (ih (h.of_unit? hq)).mono fun found hfound r hr => ?_
      obtain ⟨hpart, hsuffix, hoperator⟩ := hfound r hr
      exact ⟨hpart, hsuffix.trans (Place.suffix_of_unit? hq), hoperator⟩
  | case4 p c q hq operator length hoperator =>
      obtain ⟨-, -, rest, hrest, -⟩ := bare_of_unit? hq
      have hbegins : operator? (c :: rest) = some (operator, length) := by
        rw [← hrest]
        exact hoperator
      have hlow : c.toNat < 0x80 := by
        by_contra hhigh
        rw [operator?_of_high (Nat.le_of_not_lt hhigh)] at hbegins
        cases hbegins
      obtain ⟨hopening, hclosing⟩ := plain_of_operator? hbegins
      rw [scan_breaks h hq hlow (operatorBare_found hopening hclosing (h.octetBelow _)
        ((operator?_at h hq hlow).trans hoperator))]
      refine Mirrors.ok (b := some (p, operator, length)) ?_
      rintro r ⟨⟩
      exact ⟨h, List.suffix_refl _, hoperator⟩
  | case5 depth p c q hq hother ih =>
      rw [scan_depthAfter (operatorBare_ignoring h) h hq (fun depth => depth)]
      · refine (ih (h.of_unit? hq)).mono fun found hfound r hr => ?_
        obtain ⟨hpart, hsuffix, hoperator⟩ := hfound r hr
        exact ⟨hpart, hsuffix.trans (Place.suffix_of_unit? hq), hoperator⟩
      · intro hc
        rw [operatorBare, h.octetBelow, lift_some, pure_bind, if_pos hc]
      · intro hc hend
        rw [operatorBare, h.octetBelow, lift_some, pure_bind, if_neg hc, if_pos hend]
      · intro hc hend hlow
        cases depth with
        | zero =>
            refine operatorBare_none hc hend (h.octetBelow _) ((operator?_at h hq hlow).trans ?_)
            cases hnone : operator? p.rest with
            | none => rfl
            | some r => exact (hother r.1 r.2 rfl hnone).elim
        | succ depth =>
            exact operatorBare_inside hc hend (h.octetBelow _) (Nat.succ_pos depth)

/-- The first operator. -/
theorem findOperator_mirrors (h : IsPart t stop p) :
    Mirrors t (Option.map fun r => (r.1.offset, r.2))
      (fun found => ∀ r ∈ found, IsPart t stop r.1 ∧ r.1.rest <:+ p.rest ∧
        operator? r.1.rest = some r.2)
      (findOperator t.asOctets p.offset stop) (operatorFrom 0 p) :=
  operatorFrom_mirrors h 0

end Operators

/-! ## Scans that cannot fail -/

section Total

variable {t : Text} {stop x : Nat} {p : Place} {c : Char}

theorem plain_past (h : IsPart t stop p) (hx : (t.asOctets.take stop)[x]? = none) :
    scanPlain t.asOctets x stop = .some (min x stop) := by
  refine loop_break ?_
  rw [plainRound, h.octetBelow, some_bind, hx]
  rfl

theorem plain_of_octet (h : IsPart t stop p) (hx : (t.asOctets.take stop)[x]? = some c) :
    scanPlain t.asOctets x stop =
      if c == '\\' then scanPlain t.asOctets (x + 2) stop
      else if isSeparator c then .some (min x stop)
      else scanPlain t.asOctets (x + 1) stop := by
  have hround : plainRound t.asOctets stop x =
      .some (if c == '\\' then .inr (x + 2) else if isSeparator c then .inl (min x stop)
        else .inr (x + 1)) := by
    rw [plainRound, h.octetBelow, some_bind, hx]
    rfl
  split at hround
  · next hc =>
      rw [if_pos hc]
      exact loop_next hround
  · next hc =>
      rw [if_neg hc]
      split at hround
      · next hsep =>
          rw [if_pos hsep]
          exact loop_break hround
      · next hsep =>
          rw [if_neg hsep]
          exact loop_next hround

theorem isLow_isSeparator : IsLow isSeparator :=
  (isLow_beq (by decide)).or (isLow_beq (by decide))

theorem plain_of_high (h : IsPart t stop p) (hx : (t.asOctets.take stop)[x]? = some c)
    (hc : 0x80 ≤ c.toNat) :
    scanPlain t.asOctets x stop = scanPlain t.asOctets (x + 1) stop := by
  rw [plain_of_octet h hx, beq_false_of_ne (ne_of_high hc (by decide)),
    isLow_isSeparator.eq_false hc, if_neg Bool.false_ne_true, if_neg Bool.false_ne_true]

/-- The end of a plain component. -/
theorem scanPlain_eq (h : IsPart t stop p) :
    scanPlain t.asOctets p.offset stop = .some (p.skip (plainLength p.rest)).offset := by
  have hpast : ∀ x, stop ≤ x → scanPlain t.asOctets x stop = .some stop := fun x hx => by
    rw [plain_past h (h.getElem?_past hx), Nat.min_eq_right hx]
  have hjump : ∀ {p : Place} {rest : Text}, IsPart t stop p → p.rest = '\\' :: rest →
      scanPlain t.asOctets p.offset stop = scanPlain t.asOctets (p.skip 2).offset stop := by
    intro p rest h hp
    have hholds := h.ends.holds
    rw [hp] at hholds
    rw [plain_of_octet h (hholds.getElem?_eq (by decide)), if_pos (beq_self_eq_true _)]
    exact h.jump_backslash hp (scanPlain t.asOctets · stop)
      (fun x hx => (hpast x hx).trans (hpast stop (Nat.le_refl stop)).symm)
      fun x o => plain_of_high h
  generalize hrest : p.rest = u
  fun_induction plainLength u generalizing p with
  | case1 =>
      rw [hpast _ (Nat.le_of_eq (h.offset_eq hrest).symm), (h.skip 0).offset_eq hrest]
  | case2 =>
      have hnil : (p.skip 1).rest = [] := by
        rw [Place.skip, hrest]
        rfl
      have hnil' : (p.skip 2).rest = [] := by
        rw [Place.skip, hrest]
        rfl
      rw [hjump h hrest, (h.skip 2).offset_eq hnil', (h.skip 1).offset_eq hnil,
        hpast _ (Nat.le_refl stop)]
  | case3 d rest ih =>
      have hdrop : (p.skip 2).rest = rest := by
        rw [Place.skip, hrest]
        rfl
      rw [hjump h hrest, ih (h.skip 2) hdrop, skip_skip, Nat.add_comm]
  | case4 c rest hbackslash hlone hsep =>
      have hplain : ¬ (c == '\\') = true := by
        rw [beq_iff_eq]
        rintro rfl
        cases hsep
      have hholds := h.ends.holds
      rw [hrest] at hholds
      rw [plain_of_octet h (hholds.getElem?_eq (isLow_isSeparator c hsep)), if_neg hplain,
        if_pos hsep, Nat.min_eq_left h.offset_le]
      rfl
  | case5 c rest hbackslash hlone hsep ih =>
      have hplain : c ≠ '\\' := by
        rintro rfl
        cases rest with
        | nil => exact hbackslash rfl rfl
        | cons d rest => exact hlone d rest rfl rfl
      have hholds := h.ends.holds
      rw [hrest] at hholds
      obtain ⟨hnext, hdrop⟩ := offset_skip_succ (p := p) (n := 0) hrest
      have hpass := hholds.pass (scanPlain t.asOctets · stop) fun x o _ ho hoctet => by
        rcases hoctet with rfl | hhigh
        · rw [plain_of_octet h ho, beq_false_of_ne hplain, if_neg Bool.false_ne_true, if_neg hsep]
        · exact plain_of_high h ho hhigh
      have hafter : (p.skip 1).offset = p.offset + c.utf8Size := hnext
      rw [hpass, ← hafter, ih (h.skip 1) hdrop, skip_skip, Nat.add_comm]

/-! ### Space -/

theorem pass_in {f : Char → Bool} (h : IsPart t stop p)
    (hx : (t.asOctets.take stop)[x]? = some c) (hc : f c = true) :
    pass t.asOctets f x stop = pass t.asOctets f (x + 1) stop := by
  refine loop_next ?_
  rw [passRound, h.octetBelow, some_bind, hx, Option.any_some, if_pos hc]
  rfl

theorem pass_out {f : Char → Bool} (h : IsPart t stop p)
    (hx : (t.asOctets.take stop)[x]?.any f = false) : pass t.asOctets f x stop = .some x := by
  refine loop_break ?_
  rw [passRound, h.octetBelow, some_bind, hx, if_neg Bool.false_ne_true]
  rfl

theorem skipWhile_cons {f : Char → Bool} {rest : Text} (hp : p.rest = c :: rest)
    (hc : f c = true) : (p.skip 1).skipWhile f = p.skipWhile f := by
  have hdrop : (p.skip 1).rest = rest := by
    rw [Place.skip, hp]
    rfl
  rw [Place.skipWhile, Place.skipWhile, hdrop, hp, List.takeWhile_cons_of_pos hc, skip_skip,
    List.length_cons, Nat.add_comm]

theorem skipWhile_of_head {f : Char → Bool} (hp : p.rest.head?.any f = false) :
    p.skipWhile f = p.skip 0 := by
  have hnil : p.rest.takeWhile f = [] := by
    cases hrest : p.rest with
    | nil => rfl
    | cons c rest =>
        rw [hrest] at hp
        exact List.takeWhile_cons_of_neg (ne_true_of_eq_false hp)
  rw [Place.skipWhile, hnil]
  rfl

/-- A class of octets that the octets of a character are all in, or the first of them is not. -/
structure IsClass (f : Char → Bool) : Prop where
  first : ∀ {o c : Char}, (∀ {g : Char → Bool}, IsLow g → g o = g c) → f o = f c
  others : ∀ {o c : Char}, f c = true → 0x80 ≤ c.toNat → 0x80 ≤ o.toNat → f o = true

theorem IsLow.isClass {f : Char → Bool} (hf : IsLow f) : IsClass f :=
  ⟨fun hclass => hclass hf, fun hc hhigh _ => (Nat.not_lt.2 hhigh (hf _ hc)).elim⟩

theorem IsLow.isClass_not {f : Char → Bool} (hf : IsLow f) : IsClass (!f ·) :=
  ⟨fun hclass => congrArg (!·) (hclass hf), fun _ _ ho => by rw [hf.eq_false ho]; rfl⟩

/-- Octets are passed over with the characters they belong to. -/
theorem pass_eq {f : Char → Bool} (hf : IsClass f) (h : IsPart t stop p) :
    pass t.asOctets f p.offset stop = .some (p.skipWhile f).offset := by
  generalize hrest : p.rest = u
  induction u generalizing p with
  | nil =>
      have hends := h.ends
      rw [hrest] at hends
      rw [pass_out h (by rw [hends.getElem?_nil]; rfl), skipWhile_of_head (by rw [hrest]; rfl)]
      rfl
  | cons c u ih =>
      have hholds := h.ends.holds
      rw [hrest] at hholds
      by_cases hc : f c = true
      · obtain ⟨hnext, hdrop⟩ := offset_skip_succ (p := p) (n := 0) hrest
        have hpass : pass t.asOctets f p.offset stop =
            pass t.asOctets f (p.offset + c.utf8Size) stop := by
          by_cases hlow : c.toNat < 0x80
          · rw [pass_in h (hholds.getElem?_eq hlow) hc, utf8Size_of_lt hlow]
          · exact hholds.jump_high (Nat.le_of_not_lt hlow) (pass t.asOctets f · stop)
              fun x o _ ho hhigh => pass_in h ho (hf.others hc (Nat.le_of_not_lt hlow) hhigh)
        have hafter : (p.skip 1).offset = p.offset + c.utf8Size := hnext
        rw [hpass, ← hafter, ih (h.skip 1) hdrop, skipWhile_cons hrest hc]
      · obtain ⟨o, ho, hclass⟩ := hholds.exists_octet
        have hout : f o = false := (hf.first hclass).trans (Bool.eq_false_iff.2 hc)
        rw [pass_out h (by rw [ho]; exact hout),
          skipWhile_of_head (by rw [hrest]; exact Bool.eq_false_iff.2 hc)]
        rfl

theorem isLow_isPathSpace : IsLow isPathSpace :=
  isLow_isSpace.or (isLow_beq (by decide))

/-- The end of a part without the space before it. -/
theorem trimRound_eq {i : Nat} {u : Text} (h : IsPart t stop ⟨i, u⟩) :
    loop (trimRound t.asOctets i) stop =
      .some (i + Text.byteLength (u.rdropWhile isPathSpace)) := by
  induction u using List.reverseRecOn generalizing stop with
  | nil =>
      have hoffset : i = stop := h.offset_eq rfl
      refine loop_break ?_
      rw [trimRound, if_neg (Nat.not_lt.2 (Nat.le_of_eq hoffset.symm)), ← hoffset]
      rfl
  | append_singleton u c ih =>
      have hfinish : i + (Text.byteLength u + c.utf8Size) = stop := by
        rw [← h.finish_eq, Place.finish, Text.byteLength_append]
        rfl
      have hpos := c.utf8Size_pos
      have hlast : Ends (t.asOctets.take stop) (i + Text.byteLength u) [c] := h.ends.drop
      have hround : ∀ o, (t.asOctets.take stop)[stop - 1]? = some o →
          trimRound t.asOctets i stop =
            .some (if isPathSpace o then .inr (stop - 1) else .inl stop) := by
        intro o ho
        rw [trimRound, if_pos (by omega), subtract_eq (by omega), some_bind,
          octet_eq (IsPart.getElem?_of_take ho), some_bind]
        rfl
      by_cases hc : isPathSpace c = true
      · have hlow := isLow_isPathSpace c hc
        rw [utf8Size_of_lt hlow] at hfinish
        have hindex : i + Text.byteLength u = stop - 1 := by omega
        have hpart : IsPart t (stop - 1) ⟨i, u⟩ := by
          obtain ⟨before, after, ht, hbefore⟩ := h.standsAt
          refine ⟨⟨before, [c] ++ after, ?_, hbefore⟩, hindex⟩
          rw [ht, List.append_assoc]
        rw [hindex] at hlast
        have hstep := hround c (hlast.holds.getElem?_eq hlow)
        rw [if_pos hc] at hstep
        rw [loop_next hstep, ih hpart, List.rdropWhile_concat_pos _ _ _ hc]
      · obtain ⟨o, ho, hspace⟩ : ∃ o, (t.asOctets.take stop)[stop - 1]? = some o ∧
            isPathSpace o = false := by
          by_cases hlow : c.toNat < 0x80
          · rw [utf8Size_of_lt hlow] at hfinish
            have hindex : i + Text.byteLength u = stop - 1 := by omega
            rw [hindex] at hlast
            exact ⟨c, hlast.holds.getElem?_eq hlow, Bool.eq_false_iff.2 hc⟩
          · obtain ⟨o, ho, hhigh⟩ := hlast.holds.getElem?_high (Nat.le_of_not_lt hlow)
              (Nat.sub_lt hpos Nat.one_pos)
            have hindex : i + Text.byteLength u + (c.utf8Size - 1) = stop - 1 := by omega
            rw [hindex] at ho
            exact ⟨o, ho, isLow_isPathSpace.eq_false hhigh⟩
        have hstep := hround o ho
        rw [hspace, if_neg Bool.false_ne_true] at hstep
        rw [loop_break hstep, List.rdropWhile_concat_neg _ _ _ hc, Text.byteLength_append]
        exact congrArg Part.some hfinish.symm

/-- The indices of a part without the space around it. -/
theorem trim_eq (h : IsPart t stop p) :
    trim t.asOctets p.offset stop = .some (bounds (p.trim isPathSpace)) := by
  have hback : loop (trimRound t.asOctets (p.skipWhile isPathSpace).offset) stop =
      .some (p.trim isPathSpace).finish := trimRound_eq (h.skipWhile isPathSpace)
  rw [trim, pass_eq isLow_isPathSpace.isClass h, some_bind, hback, some_bind]
  rfl

end Total

end DotPath.Indexed
