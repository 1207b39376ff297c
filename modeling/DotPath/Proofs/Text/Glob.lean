import Mathlib.Data.List.Forall2
import DotPath.Path.Escape
import DotPath.Text.Glob

/-!
# What a glob pattern matches

The rows of the table, one for each character of the subject, say of every suffix of the pattern
whether it matches what is left of the subject. So the entry for the whole pattern and the whole
subject is the answer.

What it is the answer to can be said without a table or a recursion: the pattern is spelled from
tokens in one way, and the subject is made of parts of which each is what its token stands for. A
pattern without a star or a question mark then stands for one text, the key that it is read as where
it is a plain component.

## Main definitions

* `Spells`: how a pattern is read as tokens.
* `Token.StandsFor`: what a token stands for.
* `holdsWildcard`: the scan for a star or a question mark.

## Main results

* `Matches.cons_iff`, `Matches.run_iff`: the first token decides what is left to match.
* `accepts_iff`: the table is right about every pattern and every subject.
* `spells_iff`, `matches_iff_parts`: tokens and matches, by what they are.
* `isPattern_eq_holdsWildcard`: the scan agrees with the tokens.
* `isMatch_of_not_isPattern`: a pattern without wildcards matches the key that it is read as.
-/

namespace DotPath.Glob

variable {token : Token} {pattern : List Token} {subject : Text} {c : Char}

/-- Whether a token stands for a character. -/
def Token.accepts (c : Char) : Token → Bool
  | .literal d => c == d
  | .one => true
  | .run => false

namespace Matches

theorem nil_iff : Matches [] subject ↔ subject = [] := by
  constructor
  · intro h
    cases h
    rfl
  · rintro rfl
    exact .nil

/-- A token that is no star stands for the first character of the subject. -/
theorem cons_iff (htoken : token ≠ .run) :
    Matches (token :: pattern) (c :: subject) ↔
      token.accepts c = true ∧ Matches pattern subject := by
  constructor
  · intro h
    cases token with
    | literal d =>
        cases h with
        | literal _ h => exact ⟨beq_self_eq_true _, h⟩
    | one =>
        cases h with
        | one _ h => exact ⟨rfl, h⟩
    | run => exact absurd rfl htoken
  · rintro ⟨hc, h⟩
    cases token with
    | literal d =>
        obtain rfl := beq_iff_eq.1 hc
        exact .literal c h
    | one => exact .one c h
    | run => exact absurd rfl htoken

theorem not_cons_nil (htoken : token ≠ .run) : ¬ Matches (token :: pattern) [] := by
  generalize hu : ([] : Text) = u
  intro h
  cases h with
  | run => exact htoken rfl
  | literal | one => cases hu

/-- A star stands for the text before what the other tokens stand for. -/
theorem run_iff_exists :
    Matches (.run :: pattern) subject ↔ ∃ taken rest, subject = taken ++ rest ∧
      Matches pattern rest := by
  constructor
  · generalize hq : Token.run :: pattern = q
    intro h
    cases h with
    | @run taken q rest h =>
        obtain ⟨-, rfl⟩ := List.cons.inj hq
        exact ⟨taken, rest, rfl, h⟩
    | nil | literal | one => cases hq
  · rintro ⟨taken, rest, rfl, h⟩
    exact .run taken h

/-- A star stands for nothing, or for the first character and what a star stands for after it. -/
theorem run_iff : Matches (.run :: pattern) (c :: subject) ↔
    Matches pattern (c :: subject) ∨ Matches (.run :: pattern) subject := by
  rw [run_iff_exists, run_iff_exists]
  constructor
  · rintro ⟨taken, rest, hsubject, h⟩
    cases taken with
    | nil => exact .inl (hsubject ▸ h)
    | cons d taken =>
        obtain ⟨rfl, rfl⟩ := List.cons.inj hsubject
        exact .inr ⟨taken, rest, rfl, h⟩
  · rintro (h | ⟨taken, rest, rfl, h⟩)
    · exact ⟨[], c :: subject, rfl, h⟩
    · exact ⟨c :: taken, rest, rfl, h⟩

theorem run_nil_iff : Matches (.run :: pattern) [] ↔ Matches pattern [] := by
  rw [run_iff_exists]
  constructor
  · rintro ⟨taken, rest, hnil, h⟩
    obtain ⟨rfl, rfl⟩ := List.append_eq_nil_iff.1 hnil.symm
    exact h
  · exact fun h => ⟨[], [], rfl, h⟩

/-- The same at an index into the subject, where it does not matter whether anything is left. -/
theorem run_drop_iff (subject : Text) (n : Nat) : Matches (.run :: pattern) (subject.drop n) ↔
    Matches pattern (subject.drop n) ∨ Matches (.run :: pattern) (subject.drop (n + 1)) := by
  by_cases hn : n < subject.length
  · rw [List.drop_eq_getElem_cons hn, run_iff]
  · have hnil := List.drop_eq_nil_of_le (Nat.le_of_not_lt hn)
    rw [hnil, List.drop_eq_nil_of_le (Nat.le_succ_of_le (Nat.le_of_not_lt hn)), run_nil_iff, or_self]

/-- What comes before does not matter to a star. -/
theorem run_of_drop {n : Nat} (h : Matches (.run :: pattern) (subject.drop n)) :
    Matches (.run :: pattern) subject := by
  obtain ⟨taken, rest, hdrop, h⟩ := run_iff_exists.1 h
  refine run_iff_exists.2 ⟨subject.take n ++ taken, rest, ?_, h⟩
  rw [List.append_assoc, ← hdrop, List.take_append_drop]

/-- Tokens without a star take one character each. -/
theorem of_append {tokens : List Token} (htokens : ∀ token ∈ tokens, token ≠ .run)
    (h : Matches (tokens ++ pattern) subject) :
    tokens.length ≤ subject.length ∧ Matches pattern (subject.drop tokens.length) := by
  induction tokens generalizing subject with
  | nil => exact ⟨Nat.zero_le _, h⟩
  | cons token tokens ih =>
      have htoken := htokens token List.mem_cons_self
      cases subject with
      | nil => exact absurd h (not_cons_nil htoken)
      | cons c subject =>
          obtain ⟨hlength, hrest⟩ := ih (fun other hother =>
            htokens other (List.mem_cons_of_mem token hother)) ((cons_iff htoken).1 h).2
          exact ⟨Nat.succ_le_succ hlength, hrest⟩

/-- So a star and tokens without one take at least as many characters as there are such tokens. -/
theorem of_run_append {tokens : List Token} (htokens : ∀ token ∈ tokens, token ≠ .run)
    (h : Matches (.run :: (tokens ++ pattern)) subject) :
    ∃ n, tokens.length ≤ n ∧ n ≤ subject.length ∧ Matches pattern (subject.drop n) := by
  obtain ⟨taken, rest, rfl, hmatch⟩ := run_iff_exists.1 h
  obtain ⟨hlength, hrest⟩ := of_append htokens hmatch
  refine ⟨taken.length + tokens.length, Nat.le_add_left _ _, ?_, ?_⟩
  · rw [List.length_append]
    omega
  · rw [← List.drop_drop, List.drop_left]
    exact hrest

end Matches

/-! ## Rows -/

/-- The row of a table for what is left of the subject: one entry for each suffix of a pattern. -/
def IsRow (subject : Text) : List Token → List Bool → Prop
  | [], row => ∃ b, row = [b] ∧ (b = true ↔ Matches [] subject)
  | token :: pattern, row => ∃ b below, row = b :: below ∧
      (b = true ↔ Matches (token :: pattern) subject) ∧ IsRow subject pattern below

theorem IsRow.headD_iff {row : List Bool} (h : IsRow subject pattern row) :
    row.headD false = true ↔ Matches pattern subject := by
  cases pattern with
  | nil =>
      obtain ⟨b, rfl, hb⟩ := h
      exact hb
  | cons token pattern =>
      obtain ⟨b, below, rfl, hb, -⟩ := h
      exact hb

theorem isRow_lastRow (pattern : List Token) : IsRow [] pattern (lastRow pattern) := by
  induction pattern with
  | nil => exact ⟨true, rfl, iff_of_true rfl .nil⟩
  | cons token pattern ih =>
      refine ⟨_, _, rfl, ?_, ih⟩
      rw [Bool.and_eq_true, ih.headD_iff, beq_iff_eq]
      constructor
      · rintro ⟨rfl, h⟩
        exact Matches.run_nil_iff.2 h
      · intro h
        by_cases htoken : token = .run
        · subst htoken
          exact ⟨rfl, Matches.run_nil_iff.1 h⟩
        · exact absurd h (Matches.not_cons_nil htoken)

theorem IsRow.rowBefore {row : List Bool} (h : IsRow subject pattern row) (c : Char) :
    IsRow (c :: subject) pattern (rowBefore c pattern row) := by
  induction pattern generalizing row with
  | nil =>
      refine ⟨false, rfl, iff_of_false Bool.false_ne_true fun h => ?_⟩
      cases Matches.nil_iff.1 h
  | cons token pattern ih =>
      obtain ⟨b, below, rfl, hb, hbelow⟩ := h
      have hafter := hbelow.headD_iff
      have hhere := (ih hbelow).headD_iff
      refine ⟨_, _, rfl, ?_, ih hbelow⟩
      cases token with
      | literal d =>
          rw [Matches.cons_iff Token.noConfusion, ← hafter]
          exact Bool.and_eq_true_iff
      | one =>
          rw [Matches.cons_iff Token.noConfusion, ← hafter]
          exact (and_iff_right rfl).symm
      | run =>
          rw [Matches.run_iff, ← hb, ← hhere, or_comm]
          exact Bool.or_eq_true_iff

/-- The table is right about the whole pattern and the whole subject. -/
theorem accepts_iff : accepts pattern subject = true ↔ Matches pattern subject := by
  refine IsRow.headD_iff ?_
  induction subject with
  | nil => exact isRow_lastRow pattern
  | cons c subject ih => exact ih.rowBefore c

/-! ## Patterns by their spelling -/

/-- How a pattern is read: what its characters are, one unit after the other. -/
inductive Spells : Text → List Token → Prop where
  | nil : Spells [] []
  | run {p : Text} {ts : List Token} : Spells p ts → Spells ('*' :: p) (.run :: ts)
  | one {p : Text} {ts : List Token} : Spells p ts → Spells ('?' :: p) (.one :: ts)
  /-- A backslash makes the character after it stand for itself. -/
  | escaped (c : Char) {p : Text} {ts : List Token} :
      Spells p ts → Spells ('\\' :: c :: p) (.literal c :: ts)
  /-- A backslash at the end stands for itself. -/
  | last : Spells ['\\'] [.literal '\\']
  | plain {c : Char} {p : Text} {ts : List Token} :
      c ≠ '*' → c ≠ '?' → c ≠ '\\' → Spells p ts → Spells (c :: p) (.literal c :: ts)

/-- What a token stands for. -/
def Token.StandsFor : Token → Text → Prop
  | .literal c, part => part = [c]
  | .one, part => part.length = 1
  | .run, _ => True

theorem tokens_literal {c : Char} {t : Text} (hstar : c ≠ '*') (hone : c ≠ '?')
    (hescape : c = '\\' → t = []) : tokens (c :: t) = .literal c :: tokens t := by
  rw [tokens]
  · exact fun h => hstar h
  · exact fun h => hone h
  · rintro d rest hc rfl
    cases hescape hc

theorem spells_tokens (p : Text) : Spells p (tokens p) := by
  fun_induction tokens p with
  | case1 => exact .nil
  | case2 rest ih => exact .run ih
  | case3 rest ih => exact .one ih
  | case4 c rest ih => exact .escaped c ih
  | case5 c rest hstar hone hescape ih =>
      by_cases hc : c = '\\'
      · -- Something after the backslash would make it an escape.
        cases rest with
        | nil => exact hc ▸ .last
        | cons d rest => exact absurd rfl (hescape d rest hc)
      · exact .plain hstar hone hc ih

/-- A pattern is spelled from its tokens, and from no others. -/
theorem spells_iff {p : Text} {ts : List Token} : Spells p ts ↔ ts = tokens p := by
  constructor
  · intro h
    induction h with
    | nil => rfl
    | run _ ih | one _ ih | escaped _ _ ih => rw [ih]; rfl
    | last => rfl
    | plain hstar hone hescape _ ih =>
        rw [tokens_literal hstar hone fun hc => absurd hc hescape, ih]
  · rintro rfl
    exact spells_tokens p

/-- Tokens match what is made of parts that they stand for. -/
theorem matches_iff_parts :
    Matches pattern subject ↔
      ∃ parts : List Text, List.Forall₂ Token.StandsFor pattern parts ∧ parts.flatten = subject := by
  constructor
  · intro h
    induction h with
    | nil => exact ⟨[], .nil, rfl⟩
    | literal c _ ih =>
        obtain ⟨parts, hparts, rfl⟩ := ih
        exact ⟨[c] :: parts, .cons rfl hparts, rfl⟩
    | one c _ ih =>
        obtain ⟨parts, hparts, rfl⟩ := ih
        exact ⟨[c] :: parts, .cons rfl hparts, rfl⟩
    | run taken _ ih =>
        obtain ⟨parts, hparts, rfl⟩ := ih
        exact ⟨taken :: parts, .cons trivial hparts, rfl⟩
  · rintro ⟨parts, hparts, rfl⟩
    induction hparts with
    | nil => exact .nil
    | @cons token part pattern parts htoken _ ih =>
        cases token with
        | literal c =>
            obtain rfl : part = [c] := htoken
            exact .literal c ih
        | one =>
            obtain ⟨c, rfl⟩ := List.length_eq_one_iff.1 htoken
            exact .one c ih
        | run => exact .run part ih

/-! ## Patterns without wildcards -/

/--
Whether there is a star or a question mark in a text, as a scan finds it that passes over what a
backslash protects.
-/
def holdsWildcard : Text → Bool
  | '\\' :: _ :: rest => holdsWildcard rest
  | c :: rest => c == '*' || c == '?' || holdsWildcard rest
  | [] => false

/-- The scan and the tokens agree on what is a pattern. -/
theorem isPattern_eq_holdsWildcard (p : Text) : isPattern p = holdsWildcard p := by
  rw [isPattern]
  fun_induction tokens p with
  | case1 => rfl
  | case2 rest ih => simp [holdsWildcard]
  | case3 rest ih => simp [holdsWildcard]
  | case4 c rest ih =>
      rw [List.any_cons, ih, holdsWildcard]
      rfl
  | case5 c rest hstar hone hescape ih =>
      have hscan : holdsWildcard (c :: rest) = (c == '*' || c == '?' || holdsWildcard rest) := by
        rw [holdsWildcard]
        exact hescape
      have hplain : (c == '*' || c == '?') = false := by
        simpa using ⟨hstar, hone⟩
      rw [List.any_cons, ih, hscan, hplain]
      rfl

theorem matches_literals {key subject : Text} :
    Matches (key.map .literal) subject ↔ subject = key := by
  induction key generalizing subject with
  | nil => exact Matches.nil_iff
  | cons c key ih =>
      rw [List.map_cons]
      cases subject with
      | nil => exact iff_of_false (Matches.not_cons_nil Token.noConfusion) (by simp)
      | cons d subject =>
          rw [Matches.cons_iff Token.noConfusion, ih, Token.accepts, beq_iff_eq, List.cons.injEq]

/-- Without wildcards, the tokens of a text are the characters of the key that it is read as. -/
theorem tokens_of_not_isPattern {p : Text} (h : isPattern p = false) :
    tokens p = (unescapeComponent p).map .literal := by
  rw [isPattern] at h
  fun_induction tokens p with
  | case1 => rfl
  | case2 rest ih => simp at h
  | case3 rest ih => simp at h
  | case4 c rest ih =>
      rw [List.any_cons, Bool.or_eq_false_iff] at h
      rw [unescapeComponent, List.map_cons, ih h.2]
  | case5 c rest hstar hone hescape ih =>
      rw [List.any_cons, Bool.or_eq_false_iff] at h
      rw [unescapeComponent, List.map_cons, ih h.2]
      exact hescape

/-- A pattern without wildcards matches the key that it is read as, and nothing else. -/
theorem isMatch_of_not_isPattern {p subject : Text} (h : isPattern p = false) :
    isMatch p subject = true ↔ subject = unescapeComponent p := by
  rw [isMatch, accepts_iff, tokens_of_not_isPattern h, matches_literals]

end DotPath.Glob
