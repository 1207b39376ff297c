import DotPath.Proofs.Json.Grammar

/-!
# What the scan for numbers finds

The scan takes the longest run that has the form of a number, but for zeros in front: `IsNumeral`.
It stops with that run unless what follows runs on in it. A mark without digits after it leaves no
number, so a numeral followed by a point is not found at all where the point stands alone.

## Main results

* `isNumeral_of_numberEnd?` and `IsNumeral.numberEnd?_append`: the scan finds exactly the numerals.
-/

namespace DotPath.Json

/-! ## Numbers -/

/-- A number as the scan takes it: the strict form, but for zeros in front. -/
inductive IsNumeral : Text → Prop where
  | mk {sign whole fraction exponent : Text} : sign = [] ∨ sign = ['-'] → IsDigits whole →
      IsFraction fraction → IsExponent exponent →
        IsNumeral (sign ++ (whole ++ (fraction ++ exponent)))

/-- A number starts with its sign or with a digit. -/
theorem IsNumeral.head {t : Text} (h : IsNumeral t) :
    ∃ c s, t = c :: s ∧ (c = '-' ∨ c.isDigit) := by
  obtain @⟨sign, whole, fraction, exponent, hs, ⟨hne, hall⟩, _, _⟩ := h
  rcases hs with rfl | rfl
  · cases whole with
    | nil => exact absurd rfl hne
    | cons d ds => exact ⟨d, _, rfl, .inr (hall d (by simp))⟩
  · exact ⟨'-', _, rfl, .inl rfl⟩

theorem IsDigits.last {t : Text} (h : IsDigits t) : ∃ s c, t = s ++ [c] ∧ c.isDigit := by
  refine ⟨t.dropLast, t.getLast h.1, (List.dropLast_concat_getLast h.1).symm, ?_⟩
  exact h.2 _ (List.getLast_mem h.1)

/-- A number ends with a digit. -/
theorem IsNumeral.last {t : Text} (h : IsNumeral t) : ∃ s c, t = s ++ [c] ∧ c.isDigit := by
  have behind : ∀ {u v : Text}, (∃ s c, v = s ++ [c] ∧ c.isDigit) →
      ∃ s c, u ++ v = s ++ [c] ∧ c.isDigit := by
    rintro u _ ⟨s, c, rfl, hc⟩
    exact ⟨u ++ s, c, by rw [List.append_assoc], hc⟩
  obtain @⟨sign, whole, fraction, exponent, -, hw, hf, he⟩ := h
  apply behind
  cases he with
  | @present e sign ds _ _ hd =>
      apply behind
      apply behind
      rw [← List.cons_append]
      exact behind hd.last
  | absent =>
      cases hf with
      | @present ds hd =>
          apply behind
          rw [List.append_nil, ← List.singleton_append]
          exact behind hd.last
      | absent =>
          rw [List.append_nil, List.append_nil]
          exact hw.last

theorem IsWhole.isDigits {t : Text} (h : IsWhole t) : IsDigits t := by
  cases h with
  | zero => exact ⟨by simp, by simp⟩
  | digits _ h => exact h

theorem IsNumber.isNumeral {t : Text} (h : IsNumber t) : IsNumeral t := by
  obtain ⟨hs, hw, hf, he⟩ := h
  exact .mk hs hw.isDigits hf he

/-! ### The characters of numbers -/

/-- The characters that the scan for numbers looks at. -/
def isNumeric (c : Char) : Bool :=
  c.isDigit || c == '.' || c == 'e' || c == 'E' || c == '+' || c == '-'

theorem IsNumeral.isNumeric {t : Text} (h : IsNumeral t) : ∀ c ∈ t, isNumeric c := by
  obtain @⟨sign, whole, fraction, exponent, hs, hw, hf, he⟩ := h
  have digits : ∀ {ds : Text}, IsDigits ds → ∀ c ∈ ds, Json.isNumeric c := by
    intro ds hd c hc
    simp [Json.isNumeric, hd.2 c hc]
  intro c hc
  simp only [List.mem_append] at hc
  rcases hc with hc | hc | hc | hc
  · rcases hs with rfl | rfl
    · cases hc
    · rw [List.mem_singleton.1 hc]
      rfl
  · exact digits hw c hc
  · cases hf with
    | absent => cases hc
    | present hd =>
        rcases List.mem_cons.1 hc with rfl | hc
        · rfl
        · exact digits hd c hc
  · cases he with
    | absent => cases hc
    | present hmark hsign hd =>
        simp only [List.mem_cons, List.mem_append] at hc
        rcases hc with rfl | hc | hc
        · rcases hmark with rfl | rfl <;> rfl
        · rcases hsign with rfl | rfl | rfl
          · cases hc
          · rw [List.mem_singleton.1 hc]
            rfl
          · rw [List.mem_singleton.1 hc]
            rfl
        · exact digits hd c hc

theorem toNat_lt_of_isNumeric {c : Char} (h : isNumeric c) : c.toNat < 0x80 := by
  simp only [isNumeric, Bool.or_eq_true, beq_iff_eq] at h
  rcases h with ((((h | rfl) | rfl) | rfl) | rfl) | rfl
  · simp only [Char.isDigit, Bool.and_eq_true, decide_eq_true_eq] at h
    exact Nat.lt_of_le_of_lt (UInt32.le_iff_toNat_le.1 h.2) (by decide)
  all_goals decide

/-! ### What comes next -/

/-- No character of class `p` comes next. -/
def Lacks (p : Char → Bool) (t : Text) : Prop :=
  ∀ c ∈ t.head?, p c = false

theorem Lacks.append {p : Char → Bool} {s t : Text} (hs : Lacks p s) (ht : Lacks p t) :
    Lacks p (s ++ t) := by
  cases s with
  | nil => exact ht
  | cons c s => exact hs

theorem lacks_nil (p : Char → Bool) : Lacks p [] := by
  intro c hc
  cases hc

theorem lacks_cons {p : Char → Bool} {c : Char} {t : Text} (h : p c = false) :
    Lacks p (c :: t) := by
  intro d hd
  cases hd
  exact h

theorem Lacks.mono {p q : Char → Bool} {t : Text} (h : Lacks q t) (hpq : ∀ c, p c → q c) :
    Lacks p t := by
  intro c hc
  have := h c hc
  cases hp : p c with
  | false => rfl
  | true => simp [hpq c hp] at this

theorem lacks_dropWhile (p : Char → Bool) (t : Text) : Lacks p (t.dropWhile p) := by
  intro c hc
  have := List.head?_dropWhile_not p t
  rw [Option.mem_def] at hc
  simpa [hc] using this

/-- The characters that a number may go on with. -/
def extendsNumber (c : Char) : Bool :=
  c.isDigit || c == '.' || c == 'e' || c == 'E'

/-- What follows a number without running on in it. -/
abbrev Delimited (t : Text) : Prop :=
  Lacks extendsNumber t

private theorem digits?_append {ds rest : Text} (hd : IsDigits ds)
    (hr : Lacks Char.isDigit rest) : digits? (ds ++ rest) = some (ds.length, rest) := by
  have hnone : rest.takeWhile Char.isDigit = [] ∧ rest.dropWhile Char.isDigit = rest := by
    cases rest with
    | nil => simp
    | cons c t =>
        have := hr c rfl
        simp [this]
  have htake : (ds ++ rest).takeWhile Char.isDigit = ds := by
    rw [List.takeWhile_append_of_pos hd.2, hnone.1, List.append_nil]
  have hdrop : (ds ++ rest).dropWhile Char.isDigit = rest := by
    rw [List.dropWhile_append_of_pos hd.2, hnone.2]
  have hne : ds.isEmpty = false := by simpa using hd.1
  simp only [digits?, htake, hdrop, hne, Bool.false_eq_true, if_false]

private theorem isDigits_of_digits? {t rest : Text} {n : Nat} (h : digits? t = some (n, rest)) :
    ∃ ds, IsDigits ds ∧ t = ds ++ rest ∧ n = ds.length ∧ Lacks Char.isDigit rest := by
  simp only [digits?] at h
  split at h
  · simp at h
  · next hne =>
      simp only [Option.some.injEq, Prod.mk.injEq] at h
      obtain ⟨rfl, rfl⟩ := h
      refine ⟨t.takeWhile Char.isDigit, ⟨by simpa using hne, ?_⟩, ?_, rfl, ?_⟩
      · intro c hc
        exact List.all_eq_true.1 List.all_takeWhile c hc
      · exact List.takeWhile_append_dropWhile.symm
      · exact lacks_dropWhile Char.isDigit t

private theorem lacks_exponent {p : Char → Bool} {t : Text} (h : IsExponent t)
    (hp : p 'e' = false ∧ p 'E' = false) : Lacks p t := by
  cases h with
  | absent => exact lacks_nil p
  | present he _ _ =>
      rcases he with rfl | rfl
      · exact lacks_cons hp.1
      · exact lacks_cons hp.2

private theorem exponent?_append {t rest : Text} (h : IsExponent t) (hr : Delimited rest) :
    exponent? (t ++ rest) = some (t.length, rest) := by
  cases h with
  | absent =>
      cases rest with
      | nil => rfl
      | cons c rest =>
          have hc := hr c rfl
          simp only [extendsNumber, Bool.or_eq_false_iff, beq_eq_false_iff_ne] at hc
          simp [exponent?, hc]
  | @present e sign ds he hs hd =>
      have hdig := digits?_append hd (hr.mono fun c hc => by simp [extendsNumber, hc])
      have hsign : exponentSign (sign ++ (ds ++ rest)) = (sign.length, ds ++ rest) := by
        obtain ⟨hne, hall⟩ := hd
        cases ds with
        | nil => exact absurd rfl hne
        | cons d ds =>
            have hdd : d ≠ '+' ∧ d ≠ '-' := by
              have := hall d (by simp)
              constructor <;> rintro rfl <;> simp at this
            rcases hs with rfl | rfl | rfl <;> simp [exponentSign, hdd]
      rcases he with rfl | rfl <;>
        simp [exponent?, hsign, hdig] <;> omega

private theorem fraction?_append {t rest : Text} (h : IsFraction t)
    (hd : Lacks Char.isDigit rest) (hp : Lacks (· == '.') rest) :
    fraction? (t ++ rest) = some (t.length, rest) := by
  cases h with
  | absent =>
      unfold fraction?
      split
      · next tail =>
          have := hp '.' (by simp_all)
          simp at this
      · simp
  | present hds =>
      simp [fraction?, digits?_append hds hd]

/-- A minus sign is told from the digits after it. -/
theorem minus_append {sign whole : Text} (hs : sign = [] ∨ sign = ['-']) (hw : IsDigits whole)
    (rest : Text) : minus (sign ++ (whole ++ rest)) = (sign.length, whole ++ rest) := by
  rcases hs with rfl | rfl
  · obtain ⟨hne, hall⟩ := hw
    cases whole with
    | nil => exact absurd rfl hne
    | cons d ds =>
        have hd : d ≠ '-' := by
          rintro rfl
          simpa using hall '-' (by simp)
        simp only [List.nil_append, List.cons_append, minus]
        split
        · next heq => simp_all
        · rfl
  · rfl

/-- What follows the whole part of a number starts with no digit. -/
theorem lacks_digit_append {fraction exponent rest : Text} (hf : IsFraction fraction)
    (he : IsExponent exponent) (hr : Delimited rest) :
    Lacks Char.isDigit (fraction ++ (exponent ++ rest)) := by
  refine Lacks.append ?_ ((lacks_exponent he ⟨rfl, rfl⟩).append ?_)
  · cases hf with
    | absent => exact lacks_nil _
    | present _ => exact lacks_cons rfl
  · exact hr.mono fun c hc => by simp [extendsNumber, hc]

/-- A number is found whole, unless what follows runs on in it. -/
theorem IsNumeral.numberEnd?_append {t rest : Text} (h : IsNumeral t) (hr : Delimited rest) :
    numberEnd? (t ++ rest) = some t.length := by
  obtain @⟨sign, whole, fraction, exponent, hs, hw, hf, he⟩ := h
  have hdig : Lacks Char.isDigit (exponent ++ rest) :=
    (lacks_exponent he ⟨rfl, rfl⟩).append (hr.mono fun c hc => by simp [extendsNumber, hc])
  have hpoint : Lacks (· == '.') (exponent ++ rest) :=
    (lacks_exponent he ⟨rfl, rfl⟩).append
      (hr.mono fun c hc => by simp_all [extendsNumber])
  have hfrac := lacks_digit_append hf he hr
  have hminus := minus_append hs hw (fraction ++ (exponent ++ rest))
  simp only [numberEnd?, List.append_assoc, hminus, digits?_append hw hfrac,
    fraction?_append hf hdig hpoint, exponent?_append he hr, Option.bind_eq_bind,
    Option.bind_some, Option.pure_def, Option.some.injEq, List.length_append]
  omega

private theorem minus_spec (t : Text) :
    ∃ sign, (sign = [] ∨ sign = ['-']) ∧ t = sign ++ (minus t).2 ∧ (minus t).1 = sign.length := by
  unfold minus
  split
  · exact ⟨['-'], .inr rfl, rfl, rfl⟩
  · exact ⟨[], .inl rfl, rfl, rfl⟩

private theorem fraction?_spec {t rest : Text} {n : Nat} (h : fraction? t = some (n, rest)) :
    ∃ f, IsFraction f ∧ t = f ++ rest ∧ n = f.length := by
  unfold fraction? at h
  split at h
  · simp only [Option.map_eq_some_iff, Prod.mk.injEq, Prod.exists] at h
    obtain ⟨m, tail, hd, rfl, rfl⟩ := h
    obtain ⟨ds, hds, rfl, rfl, _⟩ := isDigits_of_digits? hd
    exact ⟨'.' :: ds, .present hds, rfl, rfl⟩
  · simp only [Option.some.injEq, Prod.mk.injEq] at h
    obtain ⟨rfl, rfl⟩ := h
    exact ⟨[], .absent, rfl, rfl⟩

private theorem exponentSign_spec (t : Text) :
    ∃ sign, (sign = [] ∨ sign = ['+'] ∨ sign = ['-']) ∧ t = sign ++ (exponentSign t).2 ∧
      (exponentSign t).1 = sign.length := by
  unfold exponentSign
  split
  · next c rest =>
      split
      · next hc =>
          simp only [Bool.or_eq_true, beq_iff_eq] at hc
          rcases hc with rfl | rfl
          · exact ⟨['+'], .inr (.inl rfl), rfl, rfl⟩
          · exact ⟨['-'], .inr (.inr rfl), rfl, rfl⟩
      · exact ⟨[], .inl rfl, rfl, rfl⟩
  · exact ⟨[], .inl rfl, rfl, rfl⟩

private theorem exponent?_spec {t rest : Text} {n : Nat} (h : exponent? t = some (n, rest)) :
    ∃ e, IsExponent e ∧ t = e ++ rest ∧ n = e.length := by
  unfold exponent? at h
  split at h
  · next c tail =>
      split at h
      · next hc =>
          obtain ⟨sign, hs, htail, hlen⟩ := exponentSign_spec tail
          simp only [Option.map_eq_some_iff, Prod.mk.injEq, Prod.exists] at h
          obtain ⟨m, after, hd, rfl, rfl⟩ := h
          obtain ⟨ds, hds, hafter, rfl, _⟩ := isDigits_of_digits? hd
          simp only [Bool.or_eq_true, beq_iff_eq] at hc
          refine ⟨c :: (sign ++ ds), .present hc hs hds, ?_, ?_⟩
          · rw [htail, hafter, List.cons_append, List.append_assoc]
          · rw [hlen]
            simp only [List.length_cons, List.length_append]
            omega
      · simp only [Option.some.injEq, Prod.mk.injEq] at h
        obtain ⟨rfl, rfl⟩ := h
        exact ⟨[], .absent, rfl, rfl⟩
  · simp only [Option.some.injEq, Prod.mk.injEq] at h
    obtain ⟨rfl, rfl⟩ := h
    exact ⟨[], .absent, rfl, rfl⟩

theorem isNumeral_of_numberEnd? {t : Text} {n : Nat} (h : numberEnd? t = some n) :
    ∃ num rest, t = num ++ rest ∧ n = num.length ∧ IsNumeral num := by
  obtain ⟨sign, hs, ht, hsign⟩ := minus_spec t
  simp only [numberEnd?, Option.bind_eq_bind, Option.pure_def, Option.bind_eq_some_iff,
    Option.some.injEq, Prod.exists] at h
  obtain ⟨_, t₁, hw, _, t₂, hf, _, t₃, he, rfl⟩ := h
  obtain ⟨whole, hwhole, h₁, rfl, _⟩ := isDigits_of_digits? hw
  obtain ⟨fraction, hfraction, h₂, rfl⟩ := fraction?_spec hf
  obtain ⟨exponent, hexponent, h₃, rfl⟩ := exponent?_spec he
  refine ⟨_, t₃, ?_, ?_, .mk hs hwhole hfraction hexponent⟩
  · rw [ht, h₁, h₂, h₃]
    simp only [List.append_assoc]
  · rw [hsign]
    simp only [List.length_append]
    omega

end DotPath.Json
