import DotPath.Proofs.Indexed.Scan
import DotPath.Proofs.Text.Glob

/-!
# Matching globs by index

The match of a glob pattern in place: an index into the pattern and one into the subject move
forward together, and where they get stuck the last star takes one character more. Pattern and
subject are lists of characters here, so both indices count characters.

That it suffices to go back to the last star is the point of the proof. Between two stars as many
characters are taken as there are tokens, so whatever an earlier star could still take, the later
one can take as well. The loop ends because the last star moves forward in the pattern, or takes
more, or the indices move.

## Main definitions

* `Decides`: the answer of the loop from a state.

## Main results

* `unitWidth_cases`: what one unit of a pattern does.
* `globFrom_starred`, `globFrom_unstarred`: what is left to match decides the answer.
* `matchGlob_eq`: the loops are defined and give the answer of the table.
* `matchGlob_iff_parts`: what the answer means.
-/

namespace DotPath.Indexed

open Glob

/-! ## The loops -/

/-- The width of the unit at an index of a pattern, if it stands for a character of the subject. -/
def unitWidth (p s : Text) (i k : Nat) : Part (Option Nat) :=
  match p[i]? with
  | none => pure none
  | some c =>
    if c == '?' then pure (some 1)
    else if c == '\\' && i + 1 < p.length then do
      return if (← octet p (i + 1)) == (← octet s k) then some 2 else none
    else do
      return if c == (← octet s k) then some 1 else none

/-- What to do after a unit that stands for the character or does not. -/
def afterUnit (i k : Nat) (star : Option (Nat × Nat)) :
    Option Nat → Option Nat ⊕ Nat × Nat × Option (Nat × Nat)
  | some width => .inr (i + width, k + 1, star)
  | none => star.elim (.inl none) fun (a, b) => .inr (a + 1, b + 1, some (a, b + 1))

/--
One step of a match, with the indices into pattern and subject, and for the last star its index and
how far into the subject it reaches. At the end of the subject the index into the pattern is left.
-/
def globRound (p s : Text) : Nat × Nat × Option (Nat × Nat) →
    Part (Option Nat ⊕ Nat × Nat × Option (Nat × Nat))
  | (i, k, star) =>
    if k < s.length then
      if p[i]? == some '*' then pure (.inr (i + 1, k, some (i, k)))
      else do
        return afterUnit i k star (← unitWidth p s i k)
    else pure (.inl (some i))

/-- One step over stars at the end of a pattern. -/
def starRound (p : Text) (i : Nat) : Part (Nat ⊕ Nat) :=
  pure (if p[i]? == some '*' then .inr (i + 1) else .inl i)

/-- Whether a pattern matches a subject. -/
def matchGlob (p s : Text) : Part Bool :=
  if p == ['*'] then pure true
  else do
    match ← loop (globRound p s) (0, 0, none) with
    | none => return false
    | some i => return (← loop (starRound p) i) == p.length

/-! ## Units -/

section Units

variable {p s : Text} {i k : Nat} {c d : Char}

theorem drop_eq_cons (h : p[i]? = some c) : p.drop i = c :: p.drop (i + 1) := by
  obtain ⟨hlt, rfl⟩ := List.getElem?_eq_some_iff.1 h
  exact List.drop_eq_getElem_cons hlt

theorem tokens_star (h : p[i]? = some '*') :
    tokens (p.drop i) = .run :: tokens (p.drop (i + 1)) := by
  rw [drop_eq_cons h]
  rfl

theorem tokens_head {t : Text} (hstar : c ≠ '*') :
    ∃ token rest, tokens (c :: t) = token :: rest ∧ token ≠ .run := by
  unfold tokens
  split
  · next heq => cases heq
  · next heq =>
      cases heq
      exact absurd rfl hstar
  all_goals exact ⟨_, _, rfl, Token.noConfusion⟩

/-- A unit is one token of the pattern that is no star; at the end there is none. -/
theorem unitWidth_cases (hk : s[k]? = some d) (hi : p[i]? ≠ some '*') :
    (∃ token width, tokens (p.drop i) = token :: tokens (p.drop (i + width)) ∧ token ≠ .run ∧
      i + width ≤ p.length ∧
      unitWidth p s i k = .some (if token.accepts d then some width else none)) ∨
    tokens (p.drop i) = [] ∧ unitWidth p s i k = .some none := by
  rw [unitWidth]
  cases hp : p[i]? with
  | none =>
      refine .inr ⟨?_, rfl⟩
      rw [List.drop_eq_nil_of_le (List.getElem?_eq_none_iff.1 hp)]
      rfl
  | some c =>
      left
      have hlt := lt_of_getElem? hp
      have hdrop := drop_eq_cons hp
      have hstar : c ≠ '*' := fun hc => hi (hc ▸ hp)
      dsimp only
      by_cases hone : c = '?'
      · subst hone
        exact ⟨.one, 1, by rw [hdrop]; rfl, Token.noConfusion, hlt, rfl⟩
      · rw [if_neg (by simpa using hone)]
        by_cases hescape : (c == '\\' && i + 1 < p.length) = true
        · obtain ⟨hc, hnext⟩ := Bool.and_eq_true_iff.1 hescape
          obtain rfl := beq_iff_eq.1 hc
          have he := List.getElem?_eq_getElem (of_decide_eq_true hnext)
          rw [if_pos hescape, octet_eq he, some_bind, octet_eq hk, some_bind, BEq.comm]
          refine ⟨.literal _, 2, ?_, Token.noConfusion, of_decide_eq_true hnext, rfl⟩
          rw [hdrop, drop_eq_cons he]
          rfl
        · rw [if_neg hescape, octet_eq hk, some_bind, BEq.comm]
          refine ⟨.literal c, 1, ?_, Token.noConfusion, hlt, rfl⟩
          rw [hdrop]
          refine tokens_literal hstar hone fun hc => ?_
          subst hc
          refine List.drop_eq_nil_of_le (Nat.le_of_not_lt fun hnext => hescape ?_)
          rw [beq_self_eq_true, Bool.true_and]
          exact decide_eq_true hnext

/-- A unit takes the next character, and what is left has to match, or nothing matches. -/
theorem unitWidth_matches (hk : s[k]? = some d) (hi : p[i]? ≠ some '*') :
    (∃ token width, tokens (p.drop i) = token :: tokens (p.drop (i + width)) ∧ token ≠ .run ∧
      i + width ≤ p.length ∧ unitWidth p s i k = .some (some width) ∧
      (Matches (tokens (p.drop i)) (s.drop k) ↔
        Matches (tokens (p.drop (i + width))) (s.drop (k + 1)))) ∨
    unitWidth p s i k = .some none ∧ ¬ Matches (tokens (p.drop i)) (s.drop k) := by
  have hdrop := drop_eq_cons hk
  rcases unitWidth_cases hk hi with ⟨token, width, htokens, htoken, hwidth, hunit⟩ | ⟨hnil, hunit⟩
  · have hmatch : Matches (tokens (p.drop i)) (s.drop k) ↔
        token.accepts d = true ∧ Matches (tokens (p.drop (i + width))) (s.drop (k + 1)) := by
      rw [htokens, hdrop, Matches.cons_iff htoken]
    by_cases haccepts : token.accepts d = true
    · rw [if_pos haccepts] at hunit
      exact .inl ⟨token, width, htokens, htoken, hwidth, hunit,
        hmatch.trans (and_iff_right haccepts)⟩
    · rw [if_neg haccepts] at hunit
      exact .inr ⟨hunit, fun h => haccepts (hmatch.1 h).1⟩
  · refine .inr ⟨hunit, fun h => ?_⟩
    rw [hnil, hdrop] at h
    cases Matches.nil_iff.1 h

end Units

/-! ## The loop of a match -/

section Loop

variable {p s : Text}

theorem globRound_end {i k : Nat} (hk : ¬ k < s.length) (star : Option (Nat × Nat)) :
    globRound p s (i, k, star) = .some (.inl (some i)) :=
  if_neg hk

theorem globRound_star {i k : Nat} (hk : k < s.length) (hi : p[i]? = some '*')
    (star : Option (Nat × Nat)) :
    globRound p s (i, k, star) = .some (.inr (i + 1, k, some (i, k))) := by
  rw [globRound, if_pos hk, hi]
  rfl

theorem globRound_unit {i k : Nat} (hk : k < s.length) (hi : p[i]? ≠ some '*')
    {width : Option Nat} (hwidth : unitWidth p s i k = .some width) (star : Option (Nat × Nat)) :
    globRound p s (i, k, star) = .some (afterUnit i k star width) := by
  rw [globRound, if_pos hk, beq_false_of_ne hi, if_neg Bool.false_ne_true, hwidth, some_bind]
  rfl

/-- The loop ends from a state, and what it leaves of the pattern is met exactly if `Q` holds. -/
def Decides (p s : Text) (state : Nat × Nat × Option (Nat × Nat)) (Q : Prop) : Prop :=
  ∃ r, loop (globRound p s) state = .some r ∧ (∀ j ∈ r, j ≤ p.length) ∧
    ((∃ j ∈ r, Matches (tokens (p.drop j)) []) ↔ Q)

section Decides

variable {state next : Nat × Nat × Option (Nat × Nat)} {Q Q' : Prop}

theorem Decides.of_next (hround : globRound p s state = .some (.inr next))
    (h : Decides p s next Q') (hQ : Q' ↔ Q) : Decides p s state Q := by
  obtain ⟨r, hloop, hle, hanswer⟩ := h
  exact ⟨r, (loop_next hround).trans hloop, hle, hanswer.trans hQ⟩

theorem decides_end {i k : Nat} {star : Option (Nat × Nat)} (hk : ¬ k < s.length)
    (hi : i ≤ p.length) (hQ : Matches (tokens (p.drop i)) [] ↔ Q) :
    Decides p s (i, k, star) Q := by
  refine ⟨some i, loop_break (globRound_end hk star), by rintro j ⟨⟩; exact hi, ?_⟩
  rw [← hQ]
  constructor
  · rintro ⟨j, ⟨⟩, hmatch⟩
    exact hmatch
  · exact fun hmatch => ⟨i, rfl, hmatch⟩

theorem decides_stuck (hround : globRound p s state = .some (.inl none)) (hQ : ¬ Q) :
    Decides p s state Q :=
  ⟨none, loop_break hround, by simp, iff_of_false (by simp) hQ⟩

end Decides

/-- Between a star and an index of the pattern there are tokens that take one character each. -/
def AfterStar (p : Text) (a i n : Nat) : Prop :=
  ∃ between, (∀ token ∈ between, token ≠ .run) ∧ between.length = n ∧
    tokens (p.drop (a + 1)) = between ++ tokens (p.drop i)

/-- Right behind a star nothing has been taken. -/
theorem afterStar_self (p : Text) (a k : Nat) : AfterStar p a (a + 1) (k - k) :=
  ⟨[], by simp, (Nat.sub_self k).symm, rfl⟩

theorem AfterStar.unit {a i n width : Nat} {token : Token} (h : AfterStar p a i n)
    (htokens : tokens (p.drop i) = token :: tokens (p.drop (i + width))) (htoken : token ≠ .run) :
    AfterStar p a (i + width) (n + 1) := by
  obtain ⟨between, hbetween, rfl, hdrop⟩ := h
  refine ⟨between ++ [token], ?_, List.length_append, ?_⟩
  · intro other hother
    rcases List.mem_append.1 hother with hother | hother
    · exact hbetween other hother
    · rwa [List.mem_singleton.1 hother]
  · rw [hdrop, htokens, List.append_assoc]
    rfl

/-- What an earlier star could still take leaves something that the pattern matches further on. -/
theorem AfterStar.of_run {a i b k : Nat} (h : AfterStar p a i (k - b)) (hbk : b ≤ k)
    (hrun : Matches (.run :: tokens (p.drop (a + 1))) (s.drop (b + 1))) :
    ∃ n, k < n ∧ Matches (tokens (p.drop i)) (s.drop n) := by
  obtain ⟨between, hbetween, hlength, hdrop⟩ := h
  rw [hdrop] at hrun
  obtain ⟨n, hle, -, hmatch⟩ := Matches.of_run_append hbetween hrun
  rw [List.drop_drop] at hmatch
  exact ⟨b + 1 + n, by omega, hmatch⟩

/-- The answer of a loop whose last star is at `a` and reaches up to `b`. -/
theorem globFrom_starred {a b i k : Nat} (ha : a < i) (hi : i ≤ p.length) (hbk : b ≤ k)
    (hk : k ≤ s.length) (h : AfterStar p a i (k - b)) :
    Decides p s (i, k, some (a, b))
      (Matches (tokens (p.drop i)) (s.drop k) ∨
        Matches (.run :: tokens (p.drop (a + 1))) (s.drop (b + 1))) := by
  by_cases hend : k < s.length
  · obtain ⟨d, hd⟩ : ∃ d, s[k]? = some d := ⟨_, List.getElem?_eq_getElem hend⟩
    by_cases hstar : p[i]? = some '*'
    · refine .of_next (globRound_star hend hstar _) (globFrom_starred (Nat.lt_succ_self i)
        (lt_of_getElem? hstar) (Nat.le_refl k) hk (afterStar_self p i k)) ?_
      rw [← Matches.run_drop_iff, tokens_star hstar]
      -- What the earlier star could take, the one at `i` can take, too.
      refine ⟨.inl, fun hcases => hcases.elim id fun hrun => ?_⟩
      obtain ⟨n, hn, hmatch⟩ := h.of_run hbk hrun
      have hdrop : s.drop n = (s.drop k).drop (n - k) := by
        rw [List.drop_drop]
        congr 1
        omega
      rw [tokens_star hstar, hdrop] at hmatch
      exact Matches.run_of_drop hmatch
    · rcases unitWidth_matches hd hstar with
        ⟨token, width, htokens, htoken, hwidth, hunit, hmatch⟩ | ⟨hunit, hfails⟩
      · have hafter : AfterStar p a (i + width) (k + 1 - b) := by
          rw [Nat.succ_sub hbk]
          exact h.unit htokens htoken
        exact .of_next (globRound_unit hend hstar hunit _)
          (globFrom_starred (by omega) hwidth (Nat.le_succ_of_le hbk) hend hafter)
          (or_congr_left hmatch.symm)
      · -- Where the unit does not accept the character, the last star takes one more.
        refine .of_next (globRound_unit hend hstar hunit _) (globFrom_starred (Nat.lt_succ_self a)
          (Nat.le_trans ha hi) (Nat.le_refl (b + 1)) (by omega) (afterStar_self p a (b + 1))) ?_
        rw [← Matches.run_drop_iff, or_iff_right hfails]
  · refine decides_end hend hi ?_
    rw [List.drop_eq_nil_of_le (Nat.le_of_not_lt hend)]
    refine ⟨.inl, fun hcases => hcases.elim id fun hrun => ?_⟩
    obtain ⟨n, hn, hmatch⟩ := h.of_run hbk hrun
    have hbehind : s.drop n = [] := List.drop_eq_nil_of_le (by omega)
    rwa [hbehind] at hmatch
termination_by (p.length - a, s.length - b, s.length - k)

/-- The answer of a loop that has met no star. -/
theorem globFrom_unstarred {i k : Nat} (hi : i ≤ p.length) (hk : k ≤ s.length) :
    Decides p s (i, k, none) (Matches (tokens (p.drop i)) (s.drop k)) := by
  by_cases hend : k < s.length
  · obtain ⟨d, hd⟩ : ∃ d, s[k]? = some d := ⟨_, List.getElem?_eq_getElem hend⟩
    by_cases hstar : p[i]? = some '*'
    · refine .of_next (globRound_star hend hstar _) (globFrom_starred (Nat.lt_succ_self i)
        (lt_of_getElem? hstar) (Nat.le_refl k) hk (afterStar_self p i k)) ?_
      rw [← Matches.run_drop_iff, tokens_star hstar]
    · rcases unitWidth_matches hd hstar with
        ⟨token, width, -, -, hwidth, hunit, hmatch⟩ | ⟨hunit, hfails⟩
      · exact .of_next (globRound_unit hend hstar hunit none) (globFrom_unstarred hwidth hend)
          hmatch.symm
      · exact decides_stuck (globRound_unit hend hstar hunit none) hfails
  · refine decides_end hend hi ?_
    rw [List.drop_eq_nil_of_le (Nat.le_of_not_lt hend)]
termination_by s.length - k

end Loop

/-! ## The answer -/

/-- Only stars match the empty subject. -/
theorem starRound_loop {p : Text} {i : Nat} (hi : i ≤ p.length) :
    ∃ j, loop (starRound p) i = .some j ∧
      ((j == p.length) = true ↔ Matches (tokens (p.drop i)) []) := by
  by_cases hstar : p[i]? = some '*'
  · have hlt := lt_of_getElem? hstar
    obtain ⟨j, hloop, hanswer⟩ := starRound_loop (p := p) hlt
    refine ⟨j, (loop_next ?_).trans hloop, hanswer.trans ?_⟩
    · rw [starRound, hstar]
      rfl
    · rw [tokens_star hstar, Matches.run_nil_iff]
  · refine ⟨i, loop_break ?_, ?_⟩
    · rw [starRound, beq_false_of_ne hstar]
      rfl
    · rw [beq_iff_eq]
      constructor
      · rintro rfl
        rw [List.drop_length]
        exact .nil
      · intro hmatch
        by_contra hne
        have hlt : i < p.length := Nat.lt_of_le_of_ne hi hne
        have hc := List.getElem?_eq_getElem hlt
        obtain ⟨token, rest, htokens, htoken⟩ :=
          tokens_head (t := p.drop (i + 1)) fun hc' => hstar (hc' ▸ hc)
        rw [drop_eq_cons hc, htokens] at hmatch
        exact Matches.not_cons_nil htoken hmatch
termination_by p.length - i

/-- The loops give the answer of the table. -/
theorem matchGlob_eq (p s : Text) : matchGlob p s = .some (isMatch p s) := by
  rw [matchGlob]
  by_cases hall : (p == ['*']) = true
  · rw [if_pos hall]
    obtain rfl := beq_iff_eq.1 hall
    have hmatch : isMatch ['*'] s = true :=
      accepts_iff.2 (Matches.run_iff_exists.2 ⟨s, [], (List.append_nil s).symm, .nil⟩)
    rw [hmatch]
    rfl
  · rw [if_neg hall]
    obtain ⟨r, hloop, hle, hanswer⟩ :=
      globFrom_unstarred (Nat.zero_le p.length) (Nat.zero_le s.length)
    rw [List.drop_zero, List.drop_zero, ← accepts_iff] at hanswer
    rw [hloop, some_bind]
    cases r with
    | none =>
        have hfalse : isMatch p s = false :=
          Bool.eq_false_iff.2 fun hmatch => by simpa using hanswer.2 hmatch
        rw [hfalse]
        rfl
    | some i =>
        obtain ⟨j, hstars, hend⟩ := starRound_loop (hle i rfl)
        have hsame : (j == p.length) = isMatch p s := by
          rw [Bool.eq_iff_iff, hend]
          refine Iff.trans ?_ hanswer
          exact ⟨fun hmatch => ⟨i, rfl, hmatch⟩, fun ⟨_, hi, hmatch⟩ => Option.some.inj hi ▸ hmatch⟩
        dsimp only
        rw [hstars, some_bind, hsame]
        rfl

/--
A pattern is read as tokens in one way. The match in place ends on every pattern and subject, with
the answer of the table, and the answer is yes exactly if the subject is made of parts, one for each
token and in their order, of which each is what its token stands for.
-/
theorem matchGlob_iff_parts (p s : Text) :
    (∃! ts, Spells p ts) ∧
      ∃ answer, matchGlob p s = .some answer ∧ isMatch p s = answer ∧
        (answer = true ↔ ∃ ts parts, Spells p ts ∧ List.Forall₂ Token.StandsFor ts parts ∧
          parts.flatten = s) := by
  have hunique : ∀ ts, Spells p ts → ts = tokens p := fun _ => spells_iff.1
  refine ⟨⟨tokens p, spells_tokens p, hunique⟩, isMatch p s, matchGlob_eq p s, rfl, ?_⟩
  rw [isMatch, accepts_iff, matches_iff_parts]
  constructor
  · rintro ⟨parts, hparts, hs⟩
    exact ⟨tokens p, parts, spells_tokens p, hparts, hs⟩
  · rintro ⟨ts, parts, hspells, hparts, hs⟩
    obtain rfl := hunique ts hspells
    exact ⟨parts, hparts, hs⟩

end DotPath.Indexed
