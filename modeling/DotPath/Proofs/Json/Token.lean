import DotPath.Json.WellFormed
import DotPath.Proofs.Json.Numeral
import DotPath.Proofs.Text.Octets

/-!
# The strict readers of tokens

Each strict reader passes over one token and gives what follows it. Here every reader is matched
with its part of the grammar, in both directions: a token that the grammar derives is passed over
whole, and what a reader passes over is such a token.

The readers look at octets, the grammar at characters. That makes a difference in strings only:
other tokens are ASCII, and so are the characters that the inside of a string is built around.

Only a number depends on what comes behind it: it has to be `Delimited`.
-/

namespace DotPath.Json

/-! ## Spaces -/

/-- Spaces in front are dropped, all of them, and nothing else. -/
theorem dropWhile_spaces (s : Spaces) {t : Text} (ht : Lacks isSpace t) :
    (s.1 ++ t).dropWhile isSpace = t := by
  rw [List.dropWhile_append_of_pos s.2]
  cases t with
  | nil => rfl
  | cons c t =>
      have := ht c rfl
      simp [this]

/-- Any text starts with spaces, perhaps none, and goes on with no space. -/
theorem exists_spaces (t : Text) :
    ∃ s : Spaces, t = s.1 ++ t.dropWhile isSpace ∧ Lacks isSpace (t.dropWhile isSpace) := by
  refine ⟨⟨t.takeWhile isSpace, ?_⟩, ?_, ?_⟩
  · exact List.all_eq_true.1 List.all_takeWhile
  · exact List.takeWhile_append_dropWhile.symm
  · exact lacks_dropWhile isSpace t

theorem Spaces.delimited (s : Spaces) {t : Text} (ht : Delimited t) : Delimited (s.1 ++ t) := by
  refine Lacks.append (fun c hc => ?_) ht
  rcases eq_of_isSpace (s.2 c (List.mem_of_head? hc)) with rfl | rfl | rfl | rfl <;> rfl

/-! ## Strings -/

private theorem isSome_hexValue? (c : Char) : (Quoted.hexValue? c).isSome = isHexDigit c := by
  have bounds : isHexDigit c = true ↔ (0x30 ≤ c.toNat ∧ c.toNat ≤ 0x39) ∨
      (0x61 ≤ c.toNat ∧ c.toNat ≤ 0x66) ∨ (0x41 ≤ c.toNat ∧ c.toNat ≤ 0x46) := by
    simp only [isHexDigit, Char.isDigit, Char.le_def, UInt32.le_iff_toNat_le, Bool.or_eq_true,
      Bool.and_eq_true, decide_eq_true_eq, or_assoc]
    exact Iff.rfl
  rw [Bool.eq_iff_iff, bounds]
  simp only [Quoted.hexValue?]
  split
  · simp
    omega
  · split
    · simp
      omega
    · split
      · simp
        omega
      · simp
        omega

private theorem isSome_hex4? (a b c d : Char) :
    (Quoted.hex4? a b c d).isSome ↔
      isHexDigit a ∧ isHexDigit b ∧ isHexDigit c ∧ isHexDigit d := by
  rw [← isSome_hexValue? a, ← isSome_hexValue? b, ← isSome_hexValue? c, ← isSome_hexValue? d]
  unfold Quoted.hex4?
  cases Quoted.hexValue? a <;> cases Quoted.hexValue? b <;> cases Quoted.hexValue? c <;>
    cases Quoted.hexValue? d <;> simp

private theorem isSome_unescaped? (c : Char) :
    (Quoted.unescaped? c).isSome ↔ c ∈ escapeLetters := by
  simp only [Quoted.unescaped?, escapeLetters, List.mem_cons, List.not_mem_nil, or_false,
    Bool.or_eq_true, beq_iff_eq]
  split
  · next h =>
      simp only [Option.isSome_some, true_iff]
      rcases h with (h | h) | h <;> simp [h]
  · split
    · simp_all
    · split
      · simp_all
      · split
        · simp_all
        · split
          · simp_all
          · split <;> simp_all

/-- A string is taken up to its closing quote. -/
theorem IsBody.bodyEnd?_append {body : Text} (h : IsBody body) :
    ∀ (n : Nat) (rest : Text), bodyEnd? n (body ++ '"' :: rest) = some (n + body.length) := by
  induction h with
  | nil =>
      intro n rest
      simp [bodyEnd?]
  | @plain c t hc hq hb _ ih =>
      intro n rest
      have hlt : ¬ c.toNat < 0x20 := by omega
      simp [bodyEnd?, hq, hb, hlt, ih (n + 1) rest]
      omega
  | @escape c t hc _ ih =>
      intro n rest
      have hsome := (isSome_unescaped? c).2 hc
      have hu : c ≠ 'u' := by
        rintro rfl
        simp [escapeLetters] at hc
      simp [bodyEnd?, hu, hsome, ih (n + 2) rest]
      omega
  | @unicode a b c d t ha hb hc hd _ ih =>
      intro n rest
      have hsome := (isSome_hex4? a b c d).2 ⟨ha, hb, hc, hd⟩
      simp [bodyEnd?, hsome, ih (n + 6) rest]
      omega

theorem isBody_of_bodyEnd? {n k : Nat} {t : Text} (h : bodyEnd? n t = some k) :
    ∃ body rest, IsBody body ∧ t = body ++ '"' :: rest ∧ k = n + body.length := by
  fun_induction bodyEnd? n t with
  | case1 => cases h
  | case2 n a b c d t hs ih =>
      obtain ⟨body, rest, hbody, rfl, rfl⟩ := ih h
      obtain ⟨ha, hb, hc, hd⟩ := (isSome_hex4? a b c d).1 hs
      exact ⟨_, rest, .unicode ha hb hc hd hbody, rfl, by simp only [List.length_cons]; omega⟩
  | case3 => cases h
  | case4 n c t _ hs ih =>
      obtain ⟨body, rest, hbody, rfl, rfl⟩ := ih h
      exact ⟨_, rest, .escape ((isSome_unescaped? c).1 hs) hbody, rfl, by
        simp only [List.length_cons]
        omega⟩
  | case5 => cases h
  | case6 n c t _ _ hc =>
      rw [beq_iff_eq] at hc
      cases h
      exact ⟨[], t, .nil, by rw [hc]; rfl, rfl⟩
  | case7 => cases h
  | case8 n c t _ _ hq hc ih =>
      obtain ⟨body, rest, hbody, rfl, rfl⟩ := ih h
      simp only [Bool.or_eq_true, beq_iff_eq, decide_eq_true_eq, not_or, Nat.not_lt] at hc
      refine ⟨c :: body, rest, .plain hc.2 (by simpa using hq) hc.1 hbody, rfl, ?_⟩
      simp only [List.length_cons]
      omega

/-! ### Strings in octets -/

/-- What is no ASCII stands for itself in a string. -/
theorem isBody_append_iff {s t : Text} (hs : ∀ c ∈ s, 0x80 ≤ c.toNat) :
    IsBody (s ++ t) ↔ IsBody t := by
  induction s with
  | nil => exact Iff.rfl
  | cons c s ih =>
      have hc : 0x80 ≤ c.toNat := hs c List.mem_cons_self
      have hq : c ≠ '"' := by
        rintro rfl
        exact absurd hc (by decide)
      have hb : c ≠ '\\' := by
        rintro rfl
        exact absurd hc (by decide)
      rw [← ih fun d hd => hs d (List.mem_cons_of_mem c hd), List.cons_append]
      generalize s ++ t = u
      constructor
      · intro h
        cases h with
        | plain _ _ _ ht => exact ht
        | escape _ _ => exact absurd rfl hb
        | unicode _ _ _ _ _ => exact absurd rfl hb
      · exact .plain (by omega) hq hb

theorem toNat_lt_of_isHexDigit {c : Char} (h : isHexDigit c) : c.toNat < 0x80 := by
  simp only [isHexDigit, Char.isDigit, Char.le_def, UInt32.le_iff_toNat_le, Bool.or_eq_true,
    Bool.and_eq_true, decide_eq_true_eq] at h
  have : c.toNat ≤ 0x66 := by
    rcases h with (h | h) | h
    · exact Nat.le_trans h.2 (by decide)
    · exact h.2
    · exact Nat.le_trans h.2 (by decide)
  omega

theorem toNat_lt_of_mem_escapeLetters {c : Char} (h : c ∈ escapeLetters) : c.toNat < 0x80 := by
  simp only [escapeLetters, List.mem_cons, List.not_mem_nil, or_false] at h
  rcases h with rfl | rfl | rfl | rfl | rfl | rfl | rfl | rfl <;> decide

/-- The inside of a string is the inside of a string in octets as well. -/
theorem IsBody.asOctets {body : Text} (h : IsBody body) : IsBody body.asOctets := by
  induction h with
  | nil => exact .nil
  | @plain c t hc hq hb _ ih =>
      by_cases hascii : c.toNat < 0x80
      · rw [Text.asOctets_cons_ascii hascii]
        exact .plain hc hq hb ih
      · rw [← List.singleton_append, Text.asOctets_append]
        refine (isBody_append_iff fun d hd => ?_).2 ih
        exact Text.le_of_mem_asOctets_singleton (Nat.le_of_not_lt hascii) hd
  | @escape c t hc _ ih =>
      rw [Text.asOctets_cons_ascii (by decide),
        Text.asOctets_cons_ascii (toNat_lt_of_mem_escapeLetters hc)]
      exact .escape hc ih
  | @unicode a b c d t ha hb hc hd _ ih =>
      rw [Text.asOctets_cons_ascii (by decide), Text.asOctets_cons_ascii (by decide),
        Text.asOctets_cons_ascii (toNat_lt_of_isHexDigit ha),
        Text.asOctets_cons_ascii (toNat_lt_of_isHexDigit hb),
        Text.asOctets_cons_ascii (toNat_lt_of_isHexDigit hc),
        Text.asOctets_cons_ascii (toNat_lt_of_isHexDigit hd)]
      exact .unicode ha hb hc hd ih

/-- Only the inside of a string is one in octets. -/
theorem isBody_of_asOctets {body : Text} (h : IsBody body.asOctets) : IsBody body := by
  -- The cases are those of the octets; an octet that is ASCII stands for itself in the text.
  induction hn : body.length using Nat.strongRecOn generalizing body with
  | ind n ih =>
      cases body with
      | nil => exact .nil
      | cons c t =>
          rw [List.length_cons] at hn
          have rest : ∀ {u : Text}, u.length ≤ t.length → IsBody u.asOctets → IsBody u :=
            fun hlen hu => ih _ (by omega) hu rfl
          by_cases hascii : c.toNat < 0x80
          · rw [Text.asOctets_cons_ascii hascii] at h
            generalize ho : Text.asOctets t = o at h
            cases h with
            | plain hc hq hb ht =>
                subst ho
                exact .plain hc hq hb (rest (Nat.le_refl _) ht)
            | escape he ht =>
                have hletter := toNat_lt_of_mem_escapeLetters he
                obtain ⟨u, rfl, rfl⟩ := Text.eq_cons_of_asOctets ho hletter
                exact .escape he (rest (Nat.le_succ _) ht)
            | unicode h1 h2 h3 h4 ht =>
                obtain ⟨u, rfl, hu⟩ := Text.eq_cons_of_asOctets ho (by decide)
                obtain ⟨v, rfl, hv⟩ := Text.eq_cons_of_asOctets hu (toNat_lt_of_isHexDigit h1)
                obtain ⟨w, rfl, hw⟩ := Text.eq_cons_of_asOctets hv (toNat_lt_of_isHexDigit h2)
                obtain ⟨x, rfl, hx⟩ := Text.eq_cons_of_asOctets hw (toNat_lt_of_isHexDigit h3)
                obtain ⟨y, rfl, rfl⟩ := Text.eq_cons_of_asOctets hx (toNat_lt_of_isHexDigit h4)
                exact .unicode h1 h2 h3 h4 (rest (by simp only [List.length_cons]; omega) ht)
          · have hc : 0x80 ≤ c.toNat := Nat.le_of_not_lt hascii
            rw [← List.singleton_append, Text.asOctets_append,
              isBody_append_iff fun d hd => Text.le_of_mem_asOctets_singleton hc hd] at h
            refine (isBody_append_iff (s := [c]) fun d hd => ?_).2 (rest (Nat.le_refl _) h)
            rw [List.mem_singleton.1 hd]
            exact hc

/-- A string of octets is passed over, if it is a string and UTF-8. -/
theorem IsBody.afterString?_append {body : Text} (h : IsBody body) (rest : Text) :
    afterString? (body.asOctets ++ '"' :: rest) = some rest := by
  have hend := h.asOctets.bodyEnd?_append 0 rest
  rw [Nat.zero_add] at hend
  rw [afterString?, hend, Option.bind_eq_bind, Option.bind_some, List.take_left,
    if_pos (Text.isUtf8_asOctets body), List.drop_append, List.drop_of_length_le (Nat.le_succ _),
    Nat.add_sub_cancel_left]
  rfl

theorem isBody_of_afterString? {t rest : Text} (h : afterString? t = some rest)
    (ht : t.IsOctets) : ∃ body, IsBody body ∧ t = body.asOctets ++ '"' :: rest := by
  simp only [afterString?, Option.bind_eq_bind, Option.bind_eq_some_iff] at h
  obtain ⟨n, hn, h⟩ := h
  obtain ⟨run, tail, hrun, rfl, rfl⟩ := isBody_of_bodyEnd? hn
  rw [Nat.zero_add, List.take_left] at h
  split at h
  · next hutf8 =>
      obtain ⟨body, rfl⟩ := Text.exists_asOctets_of_isUtf8 hutf8 fun c hc =>
        ht c (List.mem_append_left _ hc)
      obtain rfl : tail = rest := by simpa using h
      exact ⟨body, isBody_of_asOctets hrun, rfl⟩
  · cases h

/-! ## Numbers -/

private theorem hasLeadingZero_append {t rest : Text} (h : IsNumber t) (hr : Delimited rest) :
    hasLeadingZero (t ++ rest) = false := by
  obtain @⟨sign, whole, fraction, exponent, hs, hw, hf, he⟩ := h
  have hnext := lacks_digit_append hf he hr
  simp only [List.append_assoc, hasLeadingZero, minus_append hs hw.isDigits]
  cases hw with
  | zero =>
      split
      · next c after heq =>
          simp only [List.cons_append, List.nil_append, List.cons.injEq, true_and] at heq
          exact hnext c (by simp [heq])
      · rfl
  | digits hne _ =>
      split
      · next heq => simp_all
      · rfl

theorem IsNumber.afterNumber?_append {t rest : Text} (h : IsNumber t) (hr : Delimited rest) :
    afterNumber? (t ++ rest) = some rest := by
  simp [afterNumber?, hasLeadingZero_append h hr, h.isNumeral.numberEnd?_append hr]

theorem isNumber_of_afterNumber? {t rest : Text} (h : afterNumber? t = some rest) :
    ∃ num, IsNumber num ∧ t = num ++ rest := by
  unfold afterNumber? at h
  split at h
  · simp at h
  · next hz =>
      simp only [Option.map_eq_some_iff] at h
      obtain ⟨n, hn, rfl⟩ := h
      obtain ⟨num, tail, rfl, rfl, hnum⟩ := isNumeral_of_numberEnd? hn
      refine ⟨num, ?_, by simp⟩
      obtain @⟨sign, whole, fraction, exponent, hs, hw, hf, he⟩ := hnum
      refine .mk hs ?_ hf he
      simp only [List.append_assoc, hasLeadingZero, minus_append hs hw] at hz
      cases whole with
      | nil => exact absurd rfl hw.1
      | cons c ds =>
          by_cases hc : c = '0'
          · subst hc
            cases ds with
            | nil => exact .zero
            | cons d ds =>
                have := hw.2 d (by simp)
                simp [this] at hz
          · exact .digits hc hw

/-! ## Scalars and keys -/

theorem afterWord?_append (word rest : Text) : afterWord? word (word ++ rest) = some rest := by
  simp [afterWord?, wordEnd?]

theorem eq_append_of_afterWord? {word t rest : Text} (h : afterWord? word t = some rest) :
    t = word ++ rest := by
  simp only [afterWord?, wordEnd?, Option.map_eq_some_iff] at h
  obtain ⟨n, hn, rfl⟩ := h
  split at hn
  · next hp =>
      obtain ⟨tail, rfl⟩ := List.isPrefixOf_iff_prefix.1 hp
      obtain rfl : word.length = n := by simpa using hn
      simp
  · simp at hn

/-- The first character tells a number from the other scalars. -/
private theorem number_head {c : Char} (hc : c = '-' ∨ c.isDigit) :
    (c ≠ '"' ∧ c ≠ 't' ∧ c ≠ 'f' ∧ c ≠ 'n') ∧ (c ≠ '[' ∧ c ≠ '\x7b') ∧ isSpace c = false := by
  rcases hc with rfl | hc
  · decide
  · simp [isSpace, ne_of_isDigit hc]

theorem asOctets_quoted (body : Text) :
    Text.asOctets ('"' :: (body ++ ['"'])) = '"' :: (body.asOctets ++ ['"']) := by
  simp

theorem IsNumber.asOctets {t : Text} (h : IsNumber t) : t.asOctets = t :=
  Text.asOctets_of_ascii fun c hc => toNat_lt_of_isNumeric (h.isNumeral.isNumeric c hc)

/-- A scalar is one in octets as well. -/
theorem IsScalar.asOctets {kind : Kind} {raw : Text} (h : IsScalar kind raw) :
    IsScalar kind raw.asOctets := by
  cases h with
  | nullWord => exact .nullWord
  | falseWord => exact .falseWord
  | trueWord => exact .trueWord
  | string hb =>
      rw [asOctets_quoted]
      exact .string hb.asOctets
  | number hn =>
      rw [hn.asOctets]
      exact .number hn

theorem IsScalar.afterScalar?_append {kind : Kind} {raw rest : Text} (h : IsScalar kind raw)
    (hr : Delimited rest) : afterScalar? (raw.asOctets ++ rest) = some rest := by
  cases h with
  | nullWord => exact afterWord?_append ['n', 'u', 'l', 'l'] rest
  | falseWord => exact afterWord?_append ['f', 'a', 'l', 's', 'e'] rest
  | trueWord => exact afterWord?_append ['t', 'r', 'u', 'e'] rest
  | @string body hb =>
      have := hb.afterString?_append rest
      rw [asOctets_quoted]
      simpa [afterScalar?] using this
  | number hn =>
      have hafter := hn.afterNumber?_append hr
      rw [hn.asOctets]
      obtain ⟨c, s, rfl, hc⟩ := hn.isNumeral.head
      have hne := (number_head hc).1
      have hc' : (c == '-' || c.isDigit) = true := by simpa using hc
      simpa [afterScalar?, hne, hc'] using hafter

theorem isScalar_of_afterScalar? {t rest : Text} (h : afterScalar? t = some rest)
    (ht : t.IsOctets) : ∃ kind raw, IsScalar kind raw ∧ t = raw.asOctets ++ rest := by
  unfold afterScalar? at h
  split at h
  · simp at h
  · next c after =>
      split at h
      · next hq =>
          obtain ⟨body, hbody, rfl⟩ :=
            isBody_of_afterString? h fun d hd => ht d (List.mem_cons_of_mem c hd)
          rw [beq_iff_eq] at hq
          exact ⟨_, _, .string hbody, by simp [hq]⟩
      · split at h
        · exact ⟨_, _, .trueWord, eq_append_of_afterWord? h⟩
        · split at h
          · exact ⟨_, _, .falseWord, eq_append_of_afterWord? h⟩
          · split at h
            · exact ⟨_, _, .nullWord, eq_append_of_afterWord? h⟩
            · split at h
              · obtain ⟨num, hnum, heq⟩ := isNumber_of_afterNumber? h
                exact ⟨_, _, .number hnum, by rw [hnum.asOctets, heq]⟩
              · simp at h

/-- A scalar starts with a character that is no space and opens nothing. -/
theorem IsScalar.head {kind : Kind} {raw : Text} (h : IsScalar kind raw) :
    ∃ c s, raw = c :: s ∧ isSpace c = false ∧ c ≠ '[' ∧ c ≠ '\x7b' := by
  cases h with
  | nullWord => exact ⟨_, _, rfl, by decide⟩
  | falseWord => exact ⟨_, _, rfl, by decide⟩
  | trueWord => exact ⟨_, _, rfl, by decide⟩
  | string _ => exact ⟨_, _, rfl, by decide⟩
  | number hn =>
      obtain ⟨c, s, rfl, hc⟩ := hn.isNumeral.head
      have := number_head hc
      exact ⟨c, s, rfl, this.2.2, this.2.1⟩

/-- A key is passed over with its colon. -/
theorem afterKey?_append (key : Key) (gap : Spaces) (rest : Text) :
    afterKey? (key.source.asOctets ++ (gap.1 ++ ':' :: rest)) = some rest := by
  have hbody := key.spelled.afterString?_append (gap.1 ++ ':' :: rest)
  have hgap : (gap.1 ++ ':' :: rest).dropWhile isSpace = ':' :: rest :=
    dropWhile_spaces gap (lacks_cons rfl)
  rw [Key.source, asOctets_quoted]
  simp [afterKey?, hbody, hgap]

theorem exists_key_of_afterKey? {t rest : Text} (h : afterKey? t = some rest)
    (ht : t.IsOctets) :
    ∃ (key : Key) (gap : Spaces), t = key.source.asOctets ++ (gap.1 ++ ':' :: rest) := by
  unfold afterKey? at h
  split at h
  · next after =>
      simp only [Option.bind_eq_bind, Option.bind_eq_some_iff] at h
      obtain ⟨tail, htail, h⟩ := h
      obtain ⟨body, hbody, rfl⟩ :=
        isBody_of_afterString? htail fun c hc => ht c (List.mem_cons_of_mem _ hc)
      obtain ⟨gap, hgap, _⟩ := exists_spaces tail
      split at h
      · next last hlast =>
          obtain rfl : last = rest := by simpa using h
          refine ⟨⟨body, hbody⟩, gap, ?_⟩
          rw [← hlast, ← hgap, Key.source, asOctets_quoted]
          simp
      · simp at h
  · simp at h

end DotPath.Json
