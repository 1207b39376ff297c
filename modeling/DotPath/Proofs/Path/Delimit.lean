import DotPath.Path.Compile
import DotPath.Proofs.Json.Slice

/-!
# Delimiting parts of a path inside a longer path

A path may stand anywhere in a text, and more text may follow it. The scans that delimit its parts
move on from one unit to the next, so where a path stands makes no difference to them but for the
offsets. What follows does make a difference to a scan that reaches the end of the path. Such a scan
stops before a pipe that follows, as long as the path closes the groups and string literals that it
opens and does not end in a backslash that would protect the pipe.

`Settles` is what is left of this condition in the middle of a path. It says only that the text
closes what is open there, whatever that is, so it holds after every separator of a path that closes
what it opens.

## Main definitions

* `Path.isClosed`: a text closes what it opens.
* `Place.Fits`: a tail that may follow a place without being read as a part of what comes before it.

## Main results

* `Settles.of_suffix`: the condition is handed on from separator to separator.
* `closeFrom_embed`, `pipeFrom_embed`, `splitFrom_shift`, `operatorFrom_shift`: the scans.
-/

namespace DotPath

open Json

/-- What has been mapped without an error was there before. -/
theorem exists_of_map_eq_ok {ε α β : Type} {x : Except ε α} {f : α → β} {b : β}
    (h : x.map f = .ok b) : ∃ a, x = .ok a ∧ f a = b := by
  cases x with
  | error e => cases h
  | ok a => exact ⟨a, rfl, Except.ok.inj h⟩

theorem exists_of_bind_eq_ok {ε α β : Type} {x : Except ε α} {f : α → Except ε β} {b : β}
    (h : x >>= f = .ok b) : ∃ a, x = .ok a ∧ f a = .ok b := by
  cases x with
  | error e => cases h
  | ok a => exact ⟨a, rfl, h⟩

/-! ## Texts that close what they open -/

/--
Whether a text closes what is open: `depth` brackets before it, a string literal if `quoted`, and
what it opens itself. A backslash protects the character after it, and there has to be one. Brackets
inside string literals do not count, and brackets are not told apart.
-/
def closesFrom (depth : Nat) (quoted : Bool) : Text → Bool
  | [] => depth == 0 && !quoted
  | ['\\'] => false
  | '\\' :: _ :: rest => closesFrom depth quoted rest
  | c :: rest =>
    if c == '"' then closesFrom depth (!quoted) rest
    else if quoted then closesFrom depth quoted rest
    else if (closingOf? c).isSome then closesFrom (depth + 1) quoted rest
    else if isGroupEnd c then depth != 0 && closesFrom (depth - 1) quoted rest
    else closesFrom depth quoted rest

/-- Whether a text closes the brackets and string literals that it opens. -/
def Path.isClosed (t : Text) : Bool :=
  closesFrom 0 false t

/-- The text closes what is open before it, whatever that is. -/
def Settles (t : Text) : Prop :=
  ∃ depth quoted, closesFrom depth quoted t = true

section Settles

variable {depth : Nat} {quoted : Bool} {c : Char} {t u v : Text}

theorem closesFrom_cons (hc : c ≠ '\\') :
    closesFrom depth quoted (c :: t) =
      if c == '"' then closesFrom depth (!quoted) t
      else if quoted then closesFrom depth quoted t
      else if (closingOf? c).isSome then closesFrom (depth + 1) quoted t
      else if isGroupEnd c then depth != 0 && closesFrom (depth - 1) quoted t
      else closesFrom depth quoted t := by
  rw [closesFrom]
  · rintro rfl
    exact absurd rfl hc
  · rintro d rest rfl
    exact absurd rfl hc

theorem closesFrom_escape : closesFrom depth quoted ('\\' :: c :: t) = closesFrom depth quoted t :=
  rfl

theorem closesFrom_quote : closesFrom depth quoted ('"' :: t) = closesFrom depth (!quoted) t :=
  rfl

theorem closesFrom_separator (hc : isSeparator c = true) :
    closesFrom depth quoted (c :: t) = closesFrom depth quoted t := by
  simp only [isSeparator, Bool.or_eq_true, beq_iff_eq] at hc
  rcases hc with rfl | rfl <;> cases quoted <;> rfl

theorem settles_nil : Settles [] :=
  ⟨0, false, rfl⟩

theorem not_settles_backslash : ¬ Settles ['\\'] := by
  rintro ⟨depth, quoted, h⟩
  cases h

/-- After a character that is no backslash and is not protected by one. -/
theorem Settles.of_cons (h : Settles (c :: t)) (hc : c ≠ '\\') : Settles t := by
  obtain ⟨depth, quoted, h⟩ := h
  rw [closesFrom_cons hc] at h
  split at h
  · exact ⟨_, _, h⟩
  · split at h
    · exact ⟨_, _, h⟩
    · split at h
      · exact ⟨_, _, h⟩
      · split at h
        · rw [Bool.and_eq_true] at h
          exact ⟨_, _, h.2⟩
        · exact ⟨_, _, h⟩

theorem Settles.of_escape (h : Settles ('\\' :: c :: t)) : Settles t := by
  obtain ⟨depth, quoted, h⟩ := h
  exact ⟨depth, quoted, h⟩

/-- After any character that is no backslash: if it is protected, its backslash comes before it. -/
theorem Settles.of_append : ∀ {u : Text}, Settles (u ++ c :: v) → c ≠ '\\' → Settles v
  | [], h, hc => h.of_cons hc
  | [a], h, hc => by
      by_cases ha : a = '\\'
      · subst ha
        exact h.of_escape
      · exact (h.of_cons ha).of_cons hc
  | a :: b :: u, h, hc => by
      by_cases ha : a = '\\'
      · subst ha
        exact Settles.of_append (u := u) h.of_escape hc
      · exact Settles.of_append (u := b :: u) (h.of_cons ha) hc

/-- So the condition is handed on from separator to separator. -/
theorem Settles.of_suffix (h : Settles t) (hsuffix : u <:+ t)
    (hu : ∀ c ∈ u.head?, isSeparator c = true) : Settles u := by
  cases u with
  | nil => exact settles_nil
  | cons c u =>
      obtain ⟨front, rfl⟩ := hsuffix
      have hsep := hu c rfl
      have hc : c ≠ '\\' := by
        rintro rfl
        cases hsep
      obtain ⟨depth, quoted, hu⟩ := h.of_append hc
      exact ⟨depth, quoted, (closesFrom_separator hsep).trans hu⟩

/-- A string literal that the text opens is closed by its quote. -/
theorem closesFrom_run (hu : IsRun u) :
    closesFrom depth true (u ++ '"' :: v) = closesFrom depth false v := by
  induction hu with
  | nil => rfl
  | @plain c t hq hb _ ih =>
      rw [List.cons_append, closesFrom_cons hb, if_neg (by simpa using hq), if_pos rfl]
      exact ih
  | escaped c _ ih => exact ih

/-- Where a literal is open before, what looks like one lies between two others. -/
theorem closesFrom_of_run (hu : IsRun u) (h : closesFrom depth false (u ++ '"' :: v) = true) :
    ∃ depth', closesFrom depth' true v = true := by
  induction hu generalizing depth with
  | nil => exact ⟨depth, h⟩
  | @plain c t hq hb _ ih =>
      rw [List.cons_append, closesFrom_cons hb, if_neg (by simpa using hq),
        if_neg Bool.false_ne_true] at h
      split at h
      · exact ih h
      · split at h
        · rw [Bool.and_eq_true] at h
          exact ih h.2
        · exact ih h
  | escaped c _ ih => exact ih h

end Settles

namespace Place

/-! ## Places in a longer text -/

/-- The same place in a text with `k` more octets before it. -/
def shift (k : Nat) (p : Place) : Place :=
  ⟨k + p.offset, p.rest⟩

/--
A tail that may follow a place: none, or one that begins with a pipe where the text up to it leaves
nothing open.
-/
def Fits (tail : Text) (p : Place) : Prop :=
  tail = [] ∨ tail.head? = some '|' ∧ Settles p.rest

variable {p q : Place} {k : Nat} {tail : Text}

theorem embed_nil (k : Nat) (p : Place) : p.embed k [] = p.shift k := by
  rw [embed, List.append_nil]
  rfl

theorem rest_embed {c : Char} {t : Text} (h : p.rest = c :: t) (k : Nat) (tail : Text) :
    (p.embed k tail).rest = c :: (t ++ tail) := by
  rw [embed, h, List.cons_append]

theorem rest_skip_one {c : Char} {t : Text} (h : p.rest = c :: t) : (p.skip 1).rest = t := by
  rw [skip, h]
  rfl

theorem rest_skip_two {c d : Char} {t : Text} (h : p.rest = c :: d :: t) :
    (p.skip 2).rest = t := by
  rw [skip, h]
  rfl

theorem skip_one_embed {c : Char} {t : Text} (h : p.rest = c :: t) (k : Nat) (tail : Text) :
    (p.embed k tail).skip 1 = (p.skip 1).embed k tail :=
  skip_embed k tail (by rw [h, List.length_cons]; omega)

theorem skip_two_embed {c d : Char} {t : Text} (h : p.rest = c :: d :: t) (k : Nat)
    (tail : Text) : (p.embed k tail).skip 2 = (p.skip 2).embed k tail :=
  skip_embed k tail (by rw [h, List.length_cons, List.length_cons]; omega)

theorem fits_nil (p : Place) : Fits [] p :=
  .inl rfl

theorem Fits.of_settles (h : Fits tail p) (hq : Settles p.rest → Settles q.rest) : Fits tail q :=
  h.imp_right fun ⟨hpipe, hp⟩ => ⟨hpipe, hq hp⟩

/-- A tail still fits after a character that is no backslash. -/
theorem Fits.skip_one {c : Char} {t : Text} (h : Fits tail p) (hp : p.rest = c :: t)
    (hc : c ≠ '\\') : Fits tail (p.skip 1) := by
  refine h.of_settles fun hsettles => ?_
  rw [hp] at hsettles
  rw [rest_skip_one hp]
  exact hsettles.of_cons hc

/-- So it does after the two dots of a descent. -/
theorem Fits.skip_dots {t : Text} (h : Fits tail p) (hp : p.rest = '.' :: '.' :: t) :
    Fits tail (p.skip 2) := by
  refine h.of_settles fun hsettles => ?_
  rw [hp] at hsettles
  rw [rest_skip_two hp]
  exact (hsettles.of_cons (by decide)).of_cons (by decide)

/-- A tail that fits at a place fits at every later place where a component has ended. -/
theorem Fits.of_separator (h : Fits tail p) (hsuffix : q.rest <:+ p.rest)
    (hq : ∀ c ∈ q.rest.head?, isSeparator c = true) : Fits tail q :=
  h.of_settles fun hsettles => hsettles.of_suffix hsuffix hq

theorem rest_shift (k : Nat) (p : Place) : (p.shift k).rest = p.rest :=
  rfl

theorem skip_shift (k : Nat) (p : Place) (n : Nat) : (p.shift k).skip n = (p.skip n).shift k := by
  rw [skip, shift, shift, skip, Nat.add_assoc]

theorem trim_shift (k : Nat) (p : Place) (c : Char → Bool) :
    (p.shift k).trim c = (p.trim c).shift k := by
  have hskip : (p.shift k).skipWhile c = (p.skipWhile c).shift k := skip_shift k p _
  rw [trim, hskip]
  rfl

/-- A part of a text is the same part of the longer text. -/
theorem upTo_embed (k : Nat) (tail : Text) (p q : Place) :
    (p.embed k tail).upTo (q.embed k tail) = (p.upTo q).shift k := by
  have hlength : (p.rest ++ tail).length - (q.rest ++ tail).length =
      p.rest.length - q.rest.length := by
    rw [List.length_append, List.length_append, Nat.add_sub_add_right]
  rw [upTo, upTo, shift, embed, embed, hlength,
    List.take_append_of_le_length (Nat.sub_le _ _)]

theorem upTo_shift (k : Nat) (p q : Place) :
    (p.shift k).upTo (q.shift k) = (p.upTo q).shift k :=
  rfl

/-- A string literal ends where its quote is closed, whatever follows. -/
theorem literal?_embed_of_some {v : Occurrence} (h : p.literal? = some (v, q)) :
    (p.embed k tail).literal? = some (v.shift k, q.embed k tail) := by
  obtain ⟨hfills, -, hrest, -⟩ := eq_of_literal? h
  obtain ⟨off, rest⟩ := p
  dsimp only at hrest
  subst hrest
  rw [literal?_append off hfills, Option.some.injEq, Prod.mk.injEq] at h
  obtain ⟨hv, hq⟩ := h
  have hlonger := literal?_append (k + off) hfills (q.rest ++ tail)
  rw [embed, List.append_assoc, hlonger, Option.some.injEq, Prod.mk.injEq]
  constructor
  · rw [← hv]
    rfl
  · rw [← hq, embed, Nat.add_assoc]

/-! ## Units -/

theorem unit?_eq_none (h : p.unit? = .ok none) : p.rest = [] := by
  unfold unit? at h
  split at h
  · assumption
  · repeat' split at h
    all_goals cases h

theorem unit?_nil (h : p.rest = []) : p.unit? = .ok none := by
  rw [unit?, h]

/-- A unit is a protected character, a string literal, or a bare character. -/
theorem unit?_cases {x : Option Char} (h : p.unit? = .ok (some (x, q))) :
    (∃ t, p.rest = '\\' :: t ∧ x = none ∧ q = p.skip 2) ∨
      (∃ v t, p.rest = '"' :: t ∧ x = none ∧ p.literal? = some (v, q)) ∨
        ∃ c t, p.rest = c :: t ∧ c ≠ '\\' ∧ c ≠ '"' ∧ x = some c ∧ q = p.skip 1 := by
  unfold unit? at h
  split at h
  · cases h
  · next c t hrest =>
      split at h
      · next hc =>
          cases h
          exact .inl ⟨t, by rw [hrest, beq_iff_eq.1 hc], rfl, rfl⟩
      · next hc =>
          split at h
          · next hq =>
              split at h
              · next v _ hliteral =>
                  cases h
                  exact .inr (.inl ⟨v, t, by rw [hrest, beq_iff_eq.1 hq], rfl, hliteral⟩)
              · cases h
          · next hq =>
              cases h
              exact .inr (.inr ⟨c, t, hrest, by simpa using hc, by simpa using hq, rfl, rfl⟩)

theorem unit?_backslash {t : Text} (h : p.rest = '\\' :: t) :
    p.unit? = .ok (some (none, p.skip 2)) := by
  rw [unit?, h]
  rfl

theorem unit?_bare {c : Char} {t : Text} (h : p.rest = c :: t) (hb : c ≠ '\\') (hq : c ≠ '"') :
    p.unit? = .ok (some (some c, p.skip 1)) := by
  rw [unit?, h]
  simp [hb, hq]

theorem unit?_literal {v : Occurrence} {t : Text} (h : p.rest = '"' :: t)
    (hl : p.literal? = some (v, q)) : p.unit? = .ok (some (none, q)) := by
  rw [unit?, h, hl]
  rfl

/-- A unit is the same in a longer text, unless it is a backslash that gets something to protect. -/
theorem unit?_embed {x : Option Char} (h : p.unit? = .ok (some (x, q)))
    (htail : tail = [] ∨ p.rest ≠ ['\\']) :
    (p.embed k tail).unit? = .ok (some (x, q.embed k tail)) := by
  rcases unit?_cases h with ⟨t, hrest, rfl, rfl⟩ | ⟨v, t, hrest, rfl, hliteral⟩ |
    ⟨c, t, hrest, hb, hq, rfl, rfl⟩
  · rw [unit?_backslash (rest_embed hrest k tail)]
    rcases htail with rfl | hne
    · rw [embed_nil, embed_nil, skip_shift]
    · cases t with
      | nil => exact absurd hrest hne
      | cons d t => rw [skip_two_embed hrest]
  · exact unit?_literal (rest_embed hrest k tail) (literal?_embed_of_some hliteral)
  · rw [unit?_bare (rest_embed hrest k tail) hb hq, skip_one_embed hrest]

/-- A backslash at the end protects nothing, and nothing comes after it. -/
theorem rest_of_backslash {x : Option Char} (hrest : p.rest = ['\\'])
    (h : p.unit? = .ok (some (x, q))) : q.rest = [] := by
  rw [unit?_backslash hrest] at h
  cases h
  rw [skip, hrest]
  rfl

/-- A bare character is no backslash. -/
theorem ne_backslash_of_bare {c : Char} (h : p.unit? = .ok (some (some c, q))) :
    tail = [] ∨ p.rest ≠ ['\\'] := by
  refine .inr fun hrest => ?_
  rw [unit?_backslash hrest] at h
  cases h

theorem suffix_skip (p : Place) (n : Nat) : (p.skip n).rest <:+ p.rest :=
  List.drop_suffix n p.rest

theorem suffix_of_unit? {x : Option Char} (h : p.unit? = .ok (some (x, q))) :
    q.rest <:+ p.rest := by
  rcases unit?_cases h with ⟨t, -, -, rfl⟩ | ⟨v, t, -, -, hliteral⟩ | ⟨c, t, -, -, -, -, rfl⟩
  · exact suffix_skip p 2
  · obtain ⟨-, -, -, rfl⟩ := eq_of_literal? hliteral
    exact suffix_skip p _
  · exact suffix_skip p 1

/-! ### What a scan does next

The scans look at the next unit and go on in one of four ways. Here this is stated once for all of
them, so that each has an equation for the end, for a unit that is not bare and for one that is.
-/

section Scan

variable {α : Type} (onError : PathError → α) (onEnd : α) (onUnit : Place → α)
  (onBare : Char → Place → α)

theorem match_unit?_end (h : p.unit? = .ok none) :
    (match _h : p.unit? with
      | .error e => onError e
      | .ok none => onEnd
      | .ok (some (none, r)) => onUnit r
      | .ok (some (some c, r)) => onBare c r) = onEnd := by
  split
  · next hu => rw [h] at hu; cases hu
  · rfl
  · next hu => rw [h] at hu; cases hu
  · next hu => rw [h] at hu; cases hu

theorem match_unit?_unit (h : p.unit? = .ok (some (none, q))) :
    (match _h : p.unit? with
      | .error e => onError e
      | .ok none => onEnd
      | .ok (some (none, r)) => onUnit r
      | .ok (some (some c, r)) => onBare c r) = onUnit q := by
  split
  · next hu => rw [h] at hu; cases hu
  · next hu => rw [h] at hu; cases hu
  · next hu => rw [h] at hu; cases hu; rfl
  · next hu => rw [h] at hu; cases hu

theorem match_unit?_bare {d : Char} (h : p.unit? = .ok (some (some d, q))) :
    (match _h : p.unit? with
      | .error e => onError e
      | .ok none => onEnd
      | .ok (some (none, r)) => onUnit r
      | .ok (some (some c, r)) => onBare c r) = onBare d q := by
  split
  · next hu => rw [h] at hu; cases hu
  · next hu => rw [h] at hu; cases hu
  · next hu => rw [h] at hu; cases hu
  · next hu => rw [h] at hu; cases hu; rfl

end Scan

end Place

open Place

/-! ## The end of a group -/

section Close

variable {opening : Nat} {stack : List Char} {p q : Place} {c : Char}

theorem closeFrom_unit (h : p.unit? = .ok (some (none, q))) :
    closeFrom opening stack p = closeFrom opening stack q := by
  rw [closeFrom]
  exact match_unit?_unit _ _ _ _ h

theorem closeFrom_bare (h : p.unit? = .ok (some (some c, q))) :
    closeFrom opening stack p =
      match closingOf? c with
      | some due => closeFrom opening (due :: stack) q
      | none =>
        if isGroupEnd c then
          match stack with
          | [] => .error (.unbalanced opening p.offset)
          | due :: outer =>
            if due != c then .error (.unbalanced opening p.offset)
            else if outer.isEmpty then .ok p
            else closeFrom opening outer q
        else closeFrom opening stack q := by
  rw [closeFrom]
  exact match_unit?_bare _ _ _ _ h

theorem suffix_of_closeFrom (h : closeFrom opening stack p = .ok q) : q.rest <:+ p.rest := by
  fun_induction closeFrom opening stack p with
  | case1 | case2 | case5 | case6 => cases h
  | case3 stack p r hr ih => exact (ih h).trans (suffix_of_unit? hr)
  | case4 stack p c r hr due hdue ih => exact (ih h).trans (suffix_of_unit? hr)
  | case7 =>
      cases h
      exact List.suffix_rfl
  | case8 p c r hr hdue hend due outer hmatch houter ih => exact (ih h).trans (suffix_of_unit? hr)
  | case9 stack p c r hr hdue hend ih => exact (ih h).trans (suffix_of_unit? hr)

/-- A group is closed before what follows it, so the scan does not look there. -/
theorem closeFrom_embed (h : closeFrom opening stack p = .ok q) (outside k : Nat) (tail : Text) :
    closeFrom outside stack (p.embed k tail) = .ok (q.embed k tail) := by
  fun_induction closeFrom opening stack p with
  | case1 | case2 | case5 | case6 => cases h
  | case3 stack p r hr ih =>
      have hne : p.rest ≠ ['\\'] := by
        intro hrest
        have hsuffix := suffix_of_closeFrom h
        rw [rest_of_backslash hrest hr, List.suffix_nil] at hsuffix
        exact (length_of_closeFrom h).2 hsuffix
      rw [closeFrom_unit (unit?_embed hr (.inr hne))]
      exact ih h
  | case4 stack p c r hr due hdue ih =>
      rw [closeFrom_bare (unit?_embed hr (ne_backslash_of_bare hr)), hdue]
      exact ih h
  | case7 p c r hr hdue hend due outer hmatch houter =>
      cases h
      rw [closeFrom_bare (unit?_embed hr (ne_backslash_of_bare hr)), hdue]
      dsimp only
      rw [if_pos hend, if_neg hmatch, if_pos houter]
  | case8 p c r hr hdue hend due outer hmatch houter ih =>
      rw [closeFrom_bare (unit?_embed hr (ne_backslash_of_bare hr)), hdue]
      dsimp only
      rw [if_pos hend, if_neg hmatch, if_neg houter]
      exact ih h
  | case9 stack p c r hr hdue hend ih =>
      rw [closeFrom_bare (unit?_embed hr (ne_backslash_of_bare hr)), hdue]
      dsimp only
      rw [if_neg hend]
      exact ih h

theorem groupEnd_embed (h : groupEnd p = .ok q) (k : Nat) (tail : Text) :
    groupEnd (p.embed k tail) = .ok (q.embed k tail) :=
  closeFrom_embed h _ k tail

end Close

/-! ## The next pipe -/

section Pipe

variable {depth : Nat} {p q : Place} {c : Char}

theorem pipeFrom_unit (h : p.unit? = .ok (some (none, q))) :
    pipeFrom depth p = pipeFrom depth q := by
  rw [pipeFrom]
  exact match_unit?_unit _ _ _ _ h

theorem pipeFrom_bare (h : p.unit? = .ok (some (some c, q))) :
    pipeFrom depth p =
      if c == '|' && depth == 0 then .ok p else pipeFrom (depthAfter depth c) q := by
  rw [pipeFrom]
  exact match_unit?_bare _ _ _ _ h

theorem pipeFrom_nil (h : p.rest = []) : pipeFrom depth p = .ok p := by
  rw [pipeFrom]
  exact match_unit?_end _ _ _ _ (unit?_nil h)

theorem suffix_of_pipeFrom (h : pipeFrom depth p = .ok q) : q.rest <:+ p.rest := by
  fun_induction pipeFrom depth p with
  | case1 => cases h
  | case2 | case4 =>
      cases h
      exact List.suffix_rfl
  | case3 depth p r hr ih => exact (ih h).trans (suffix_of_unit? hr)
  | case5 depth p c r hr hgo ih => exact (ih h).trans (suffix_of_unit? hr)

/-- A scan that stops at a pipe does not look at what follows. -/
theorem pipeFrom_embed (h : pipeFrom depth p = .ok q) {tail : Text}
    (htail : tail = [] ∨ q.rest ≠ []) (k : Nat) :
    pipeFrom depth (p.embed k tail) = .ok (q.embed k tail) := by
  fun_induction pipeFrom depth p with
  | case1 => cases h
  | case2 depth p hr =>
      cases h
      have hnil := unit?_eq_none hr
      have htail : tail = [] := htail.resolve_right (not_not_intro hnil)
      subst htail
      rw [embed_nil]
      exact pipeFrom_nil hnil
  | case3 depth p r hr ih =>
      have hne : tail = [] ∨ p.rest ≠ ['\\'] := by
        refine htail.imp_right fun hq hrest => ?_
        have hsuffix := suffix_of_pipeFrom h
        rw [rest_of_backslash hrest hr, List.suffix_nil] at hsuffix
        exact hq hsuffix
      rw [pipeFrom_unit (unit?_embed hr hne)]
      exact ih h
  | case4 depth p c r hr hpipe =>
      cases h
      rw [pipeFrom_bare (unit?_embed hr (ne_backslash_of_bare hr)), if_pos hpipe]
  | case5 depth p c r hr hgo ih =>
      rw [pipeFrom_bare (unit?_embed hr (ne_backslash_of_bare hr)), if_neg hgo]
      exact ih h

end Pipe

/-! ### A pipe that follows -/

section Follows

variable {depth count : Nat} {quoted : Bool} {p q : Place} {c : Char}

/-- What a unit that is not bare leaves open. -/
theorem closesFrom_unit (h : p.unit? = .ok (some (none, q)))
    (hp : closesFrom depth quoted p.rest = true) :
    ∃ depth', closesFrom depth' quoted q.rest = true ∧ (quoted = false → depth' = depth) := by
  rcases unit?_cases h with ⟨t, hrest, -, rfl⟩ | ⟨v, t, hrest, -, hliteral⟩ |
    ⟨c, t, -, -, -, hbare, -⟩
  · cases t with
    | nil =>
        rw [hrest] at hp
        cases hp
    | cons c t =>
        rw [hrest, closesFrom_escape] at hp
        rw [rest_skip_two hrest]
        exact ⟨depth, hp, fun _ => rfl⟩
  · obtain ⟨hfills, -, hsplit, -⟩ := eq_of_literal? hliteral
    generalize v.raw = raw at hfills hsplit
    cases hfills with
    | @string body hbody =>
        have hp' : closesFrom depth quoted ('"' :: (body ++ '"' :: q.rest)) = true := by
          rw [← hp, hsplit]
          simp
        cases quoted with
        | false =>
            rw [closesFrom_quote, Bool.not_false, closesFrom_run hbody] at hp'
            exact ⟨depth, hp', fun _ => rfl⟩
        | true =>
            rw [closesFrom_quote, Bool.not_true] at hp'
            obtain ⟨depth', hq⟩ := closesFrom_of_run hbody hp'
            exact ⟨depth', hq, nofun⟩
  · cases hbare

/-- What a bare character leaves open: never less than the scan for a pipe reckons with. -/
theorem closesFrom_bare (h : p.unit? = .ok (some (some c, q)))
    (hp : closesFrom depth quoted p.rest = true) :
    ∃ depth', closesFrom depth' quoted q.rest = true ∧
      (quoted = false → ∀ k, k ≤ depth → depthAfter k c ≤ depth') := by
  rcases unit?_cases h with ⟨t, -, hbare, -⟩ | ⟨v, t, -, hbare, -⟩ |
    ⟨d, t, hrest, hb, hq, hbare, rfl⟩
  · cases hbare
  · cases hbare
  · cases hbare
    rw [hrest, closesFrom_cons hb, if_neg (by simpa using hq)] at hp
    rw [rest_skip_one hrest]
    split at hp
    · next hquoted => exact ⟨depth, hp, fun hplain => absurd hquoted (by simp [hplain])⟩
    · split at hp
      · next ho => exact ⟨depth + 1, hp, fun _ k hk => by rw [depthAfter, if_pos ho]; omega⟩
      · next ho =>
          split at hp
          · next he =>
              rw [Bool.and_eq_true, bne_iff_ne] at hp
              refine ⟨depth - 1, hp.2, fun _ k hk => ?_⟩
              rw [depthAfter, if_neg ho, if_pos he]
              omega
          · next he =>
              refine ⟨depth, hp, fun _ k hk => ?_⟩
              rw [depthAfter, if_neg ho, if_neg he]
              exact hk

/-- A scan that starts between quotes and ends well has not come to the end of the text. -/
theorem pipeFrom_of_quoted (h : pipeFrom count p = .ok q)
    (hp : closesFrom depth true p.rest = true) : q.rest ≠ [] := by
  fun_induction pipeFrom count p generalizing depth with
  | case1 => cases h
  | case2 count p hr =>
      rw [unit?_eq_none hr, closesFrom, Bool.not_true, Bool.and_false] at hp
      cases hp
  | case3 count p r hr ih =>
      obtain ⟨depth', hr', -⟩ := closesFrom_unit hr hp
      exact ih h hr'
  | case4 count p c r hr hpipe =>
      cases h
      intro hnil
      rw [unit?_nil hnil] at hr
      cases hr
  | case5 count p c r hr hgo ih =>
      obtain ⟨depth', hr', -⟩ := closesFrom_bare hr hp
      exact ih h hr'

/-- Where everything is closed, a scan that comes to the end stops before a pipe that follows. -/
theorem pipeFrom_embed_of_closes (h : pipeFrom count p = .ok q)
    (hp : closesFrom depth false p.rest = true) (hopen : count ≤ depth) {tail : Text}
    (htail : tail.head? = some '|') (k : Nat) :
    pipeFrom count (p.embed k tail) = .ok (q.embed k tail) := by
  fun_induction pipeFrom count p generalizing depth with
  | case1 => cases h
  | case2 count p hr =>
      obtain rfl : p = q := Except.ok.inj h
      have hnil := unit?_eq_none hr
      rw [hnil, closesFrom, Bool.not_false, Bool.and_true, beq_iff_eq] at hp
      have hzero : count = 0 := by omega
      obtain ⟨rest, rfl⟩ := List.head?_eq_some_iff.1 htail
      have hembed : (p.embed k ('|' :: rest)).rest = '|' :: rest := by
        rw [embed, hnil, List.nil_append]
      rw [pipeFrom_bare (unit?_bare hembed (by decide) (by decide)), hzero]
      rfl
  | case3 count p r hr ih =>
      have hne : p.rest ≠ ['\\'] := by
        intro hrest
        rw [hrest] at hp
        cases hp
      obtain ⟨depth', hr', hdepth⟩ := closesFrom_unit hr hp
      rw [pipeFrom_unit (unit?_embed hr (.inr hne))]
      exact ih h hr' (by rw [hdepth rfl]; exact hopen)
  | case4 count p c r hr hpipe =>
      cases h
      rw [pipeFrom_bare (unit?_embed hr (ne_backslash_of_bare hr)), if_pos hpipe]
  | case5 count p c r hr hgo ih =>
      obtain ⟨depth', hr', hdepth⟩ := closesFrom_bare hr hp
      rw [pipeFrom_bare (unit?_embed hr (ne_backslash_of_bare hr)), if_neg hgo]
      exact ih h hr' (hdepth rfl count hopen)

/-- The scan finds the same place with any tail that fits. -/
theorem pipeFrom_embed_of_fits (h : pipeFrom 0 p = .ok q) {tail : Text} (htail : Fits tail p)
    (k : Nat) : pipeFrom 0 (p.embed k tail) = .ok (q.embed k tail) := by
  rcases htail with hnil | ⟨hpipe, depth, quoted, hp⟩
  · exact pipeFrom_embed h (.inl hnil) k
  · cases quoted with
    | true => exact pipeFrom_embed h (.inr (pipeFrom_of_quoted h hp)) k
    | false => exact pipeFrom_embed_of_closes h hp (Nat.zero_le depth) hpipe k

end Follows

/-! ## Parts and operators -/

section Parts

variable {separator : Text} {part p q : Place} {depth : Nat} {c : Char}

theorem splitFrom_nil (h : p.rest = []) : splitFrom separator part depth p = .ok [part] := by
  rw [splitFrom]
  exact match_unit?_end _ _ _ _ (unit?_nil h)

theorem splitFrom_unit (h : p.unit? = .ok (some (none, q))) :
    splitFrom separator part depth p = splitFrom separator part depth q := by
  rw [splitFrom]
  exact match_unit?_unit _ _ _ _ h

theorem splitFrom_bare (h : p.unit? = .ok (some (some c, q))) :
    splitFrom separator part depth p =
      if depth == 0 && separator.isPrefixOf p.rest then
        (splitFrom separator (q.skip (separator.length - 1)) 0
          (q.skip (separator.length - 1))).map (part.upTo p :: ·)
      else splitFrom separator part (depthAfter depth c) q := by
  rw [splitFrom]
  exact match_unit?_bare _ _ _ _ h

theorem unit?_shift {x : Option Char} (h : p.unit? = .ok (some (x, q))) (k : Nat) :
    (p.shift k).unit? = .ok (some (x, q.shift k)) := by
  have hembed := unit?_embed (k := k) h (.inl rfl)
  rwa [embed_nil, embed_nil] at hembed

theorem splitFrom_shift {parts : List Place} (h : splitFrom separator part depth p = .ok parts)
    (k : Nat) :
    splitFrom separator (part.shift k) depth (p.shift k) = .ok (parts.map (shift k)) := by
  fun_induction splitFrom separator part depth p generalizing parts with
  | case1 => cases h
  | case2 part depth p hr =>
      cases h
      exact splitFrom_nil ((rest_shift k p).trans (unit?_eq_none hr))
  | case3 part depth p r hr ih =>
      rw [splitFrom_unit (unit?_shift hr k)]
      exact ih h
  | case4 part depth p c r hr hsep after =>
      rename_i ih
      obtain ⟨rest, hrest, rfl⟩ := exists_of_map_eq_ok h
      rw [splitFrom_bare (unit?_shift hr k), rest_shift, if_pos hsep, skip_shift, ih hrest]
      rfl
  | case5 part depth p c r hr hsep ih =>
      rw [splitFrom_bare (unit?_shift hr k), rest_shift, if_neg hsep]
      exact ih h

theorem splitParts_shift {parts : List Place} (h : splitParts separator p = .ok parts) (k : Nat) :
    splitParts separator (p.shift k) = .ok (parts.map (shift k)) :=
  splitFrom_shift h k

theorem operatorFrom_nil (h : p.rest = []) : operatorFrom depth p = .ok none := by
  rw [operatorFrom]
  exact match_unit?_end _ _ _ _ (unit?_nil h)

theorem operatorFrom_unit (h : p.unit? = .ok (some (none, q))) :
    operatorFrom depth p = operatorFrom depth q := by
  rw [operatorFrom]
  exact match_unit?_unit _ _ _ _ h

theorem operatorFrom_bare (h : p.unit? = .ok (some (some c, q))) :
    operatorFrom depth p =
      match depth, operator? p.rest with
      | 0, some (operator, length) => .ok (some (p, operator, length))
      | _, _ => operatorFrom (depthAfter depth c) q := by
  rw [operatorFrom]
  exact match_unit?_bare _ _ _ _ h

theorem operatorFrom_shift {found : Option (Place × Operator × Nat)}
    (h : operatorFrom depth p = .ok found) (k : Nat) :
    operatorFrom depth (p.shift k) =
      .ok (found.map fun (place, operator, length) => (place.shift k, operator, length)) := by
  fun_induction operatorFrom depth p with
  | case1 => cases h
  | case2 depth p hr =>
      cases h
      exact operatorFrom_nil ((rest_shift k p).trans (unit?_eq_none hr))
  | case3 depth p r hr ih =>
      rw [operatorFrom_unit (unit?_shift hr k)]
      exact ih h
  | case4 p c r hr operator length hoperator =>
      cases h
      rw [operatorFrom_bare (unit?_shift hr k), rest_shift, hoperator]
      rfl
  | case5 depth p c r hr hnone ih =>
      rw [operatorFrom_bare (unit?_shift hr k), rest_shift]
      split
      · next hoperator => exact absurd hoperator (hnone _ _ rfl)
      · exact ih h

end Parts

end DotPath
