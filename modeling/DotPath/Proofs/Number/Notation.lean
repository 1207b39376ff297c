import DotPath.Number.Notation
import DotPath.Proofs.Json.Composed

/-!
# Written numbers are numbers

Whatever digits a double gets and however they are laid out, the text is a number of the strict
grammar. The one danger is a zero that other digits follow. The digits come from a natural number,
so the first of them is no zero unless it is the only one, and zeros are appended to them only where
they are those of a positive number.

## Main results

* `Decimal.digits_shortest_pos`: the shortest decimal of a positive magnitude has a digit other
  than zero.
* `Layout.isNumber_write`: a double is written as a number, in any layout.
* `isScalar_computedText`: a computed number is written as a number, or as null.
-/

namespace DotPath.Number

open Json

/-! ## Numbers without a sign -/

/-- A number without a minus sign in front of it. -/
def IsUnsigned (t : Text) : Prop :=
  ∃ whole fraction exponent, IsWhole whole ∧ IsFraction fraction ∧ IsExponent exponent ∧
    t = whole ++ (fraction ++ exponent)

theorem IsUnsigned.isNumber {t : Text} (h : IsUnsigned t) : IsNumber t := by
  obtain ⟨whole, fraction, exponent, hw, hf, he, rfl⟩ := h
  exact .mk (.inl rfl) hw hf he

theorem IsUnsigned.isNumber_minus {t : Text} (h : IsUnsigned t) : IsNumber ('-' :: t) := by
  obtain ⟨whole, fraction, exponent, hw, hf, he, rfl⟩ := h
  exact .mk (.inr rfl) hw hf he

theorem isUnsigned_ofNat (n : Nat) : IsUnsigned (Text.ofNat n) :=
  ⟨_, [], [], isWhole_ofNat n, .absent, .absent, by simp⟩

theorem isNumber_ofInt (n : Int) : IsNumber (Text.ofInt n) := by
  cases n with
  | ofNat n => exact isNumber_ofNat n
  | negSucc n => exact (isUnsigned_ofNat (n + 1)).isNumber_minus

/-! ## Digits -/

theorem IsDigits.append {s t : Text} (hs : IsDigits s) (ht : ∀ c ∈ t, c.isDigit) :
    IsDigits (s ++ t) := by
  refine ⟨by simp [hs.1], fun c hc => ?_⟩
  rcases List.mem_append.1 hc with hc | hc
  · exact hs.2 c hc
  · exact ht c hc

theorem isDigit_of_mem_zeros {n : Nat} {c : Char} (h : c ∈ List.replicate n '0') : c.isDigit := by
  rw [List.eq_of_mem_replicate h]
  rfl

/-- The digits of a positive number begin with one that is no zero. -/
theorem head_ofNat {n : Nat} (hn : 0 < n) : ∃ c s, Text.ofNat n = c :: s ∧ c ≠ '0' :=
  head_toDigits hn

/-- Behind a first digit other than zero there may be any digits. -/
theorem isWhole_ofNat_append {n : Nat} (hn : 0 < n) {t : Text} (ht : ∀ c ∈ t, c.isDigit) :
    IsWhole (Text.ofNat n ++ t) := by
  have hdigits := IsDigits.append (isDigits_ofNat n) ht
  obtain ⟨c, s, hsource, hc⟩ := head_ofNat hn
  rw [hsource, List.cons_append] at hdigits ⊢
  exact .digits hc hdigits

/-- The first digits of a positive number are those of a whole part. -/
theorem isWhole_take_ofNat {n k : Nat} (hn : 0 < n) (hk : 0 < k) :
    IsWhole ((Text.ofNat n).take k) := by
  have hdigits := (isDigits_ofNat n).2
  obtain ⟨c, s, hsource, hc⟩ := head_ofNat hn
  obtain ⟨k, rfl⟩ := Nat.exists_eq_succ_of_ne_zero (Nat.ne_of_gt hk)
  rw [hsource] at hdigits ⊢
  refine .digits hc ⟨by simp, fun d hd => hdigits d ?_⟩
  exact List.mem_of_mem_take (i := k + 1) hd

theorem isWhole_singleton {c : Char} (hc : c.isDigit) : IsWhole [c] := by
  by_cases hzero : c = '0'
  · rw [hzero]
    exact .zero
  · exact .digits hzero ⟨by simp, by simpa using hc⟩

/-! ## Layouts of digits -/

section Padded

variable {n places : Nat} {padded : Text}
  (hpadded : List.replicate (places + 1 - (Text.ofNat n).length) '0' ++ Text.ofNat n = padded)

include hpadded

theorem length_padded :
    padded.length = places + 1 - (Text.ofNat n).length + (Text.ofNat n).length := by
  rw [← hpadded, List.length_append, List.length_replicate]

/-- Before the point there is a zero alone, or digits of a positive number. -/
theorem isWhole_padded (hplaces : 0 < places) :
    IsWhole (padded.take (padded.length - places)) := by
  have hlength := length_padded hpadded
  by_cases hshort : (Text.ofNat n).length ≤ places
  · obtain ⟨k, hk⟩ : ∃ k, places + 1 - (Text.ofNat n).length = k + 1 :=
      ⟨places - (Text.ofNat n).length, by omega⟩
    rw [show padded.length - places = 1 by omega, ← hpadded, hk]
    exact .zero
  · -- A run of more than one digit is not that of zero.
    have hn : 0 < n := by
      refine Nat.pos_of_ne_zero fun hzero => ?_
      rw [hzero, show (Text.ofNat 0).length = 1 from rfl] at hshort
      omega
    rw [show places + 1 - (Text.ofNat n).length = 0 by omega] at hpadded
    rw [← hpadded, List.replicate_zero, List.nil_append]
    exact isWhole_take_ofNat hn (by omega)

/-- Behind the point there is at least one digit. -/
theorem isFraction_padded (hplaces : 0 < places) :
    IsFraction ('.' :: padded.drop (padded.length - places)) := by
  have hrun := isDigits_ofNat n
  have hpos := List.length_pos_iff.2 hrun.1
  have hlength := length_padded hpadded
  refine .present ⟨?_, fun c hc => ?_⟩
  · rw [← List.length_pos_iff, List.length_drop]
    omega
  · have hmem := List.mem_of_mem_drop hc
    rw [← hpadded] at hmem
    rcases List.mem_append.1 hmem with hzero | hdigit
    · exact isDigit_of_mem_zeros hzero
    · exact hrun.2 c hdigit

end Padded

/--
Digits with a point, or with zeros up to the unit. A zero gets no zeros behind it where its power of
ten is not positive.
-/
theorem isUnsigned_positionalText (pointed : Bool) {d : Decimal}
    (hd : 0 < d.digits ∨ d.exponent ≤ 0) : IsUnsigned (positionalText pointed d) := by
  rw [positionalText]
  split
  · next hexp =>
      have hwhole : IsWhole (Text.ofNat d.digits ++ List.replicate d.exponent.toNat '0') := by
        rcases hd with hpos | hexp'
        · exact isWhole_ofNat_append hpos fun c hc => isDigit_of_mem_zeros hc
        · rw [show d.exponent.toNat = 0 by omega, List.replicate_zero, List.append_nil]
          exact isWhole_ofNat d.digits
      have hfraction : IsFraction (if pointed then ['.', '0'] else []) := by
        cases pointed with
        | true => exact .present ⟨by simp, by simp⟩
        | false => exact .absent
      exact ⟨_, _, [], hwhole, hfraction, .absent, by simp⟩
  · next hexp =>
      have hplaces : 0 < (-d.exponent).toNat := by omega
      have hwhole := isWhole_padded (n := d.digits) rfl hplaces
      have hfraction := isFraction_padded (n := d.digits) rfl hplaces
      exact ⟨_, _, [], hwhole, hfraction, .absent, by rw [List.append_nil]⟩

/-- An exponent is written with its sign. -/
theorem isExponent_ofInt (power : Int) :
    IsExponent ('e' :: ((if power < 0 then [] else ['+']) ++ Text.ofInt power)) := by
  cases power with
  | ofNat n =>
      have hpower : ¬Int.ofNat n < 0 := Int.not_lt.2 (Int.natCast_nonneg n)
      rw [if_neg hpower]
      exact .present (.inl rfl) (.inr (.inl rfl)) (isDigits_ofNat n)
  | negSucc n =>
      rw [if_pos (Int.negSucc_lt_zero n), List.nil_append]
      exact @IsExponent.present 'e' ['-'] _ (.inl rfl) (.inr (.inr rfl)) (isDigits_ofNat (n + 1))

/-- One digit, the others behind a point, and an exponent. -/
theorem isUnsigned_scientificText (power : Int) (d : Decimal) :
    IsUnsigned (scientificText power d) := by
  obtain ⟨hne, hdigits⟩ := isDigits_ofNat d.digits
  obtain ⟨c, s, hrun⟩ := List.exists_cons_of_ne_nil hne
  rw [hrun] at hdigits
  have hwhole : IsWhole [c] := isWhole_singleton (hdigits c List.mem_cons_self)
  have hfraction : IsFraction (if s.isEmpty then [] else '.' :: s) := by
    cases s with
    | nil => exact .absent
    | cons d s => exact .present ⟨by simp, fun e he => hdigits e (List.mem_cons_of_mem c he)⟩
  refine ⟨_, _, _, hwhole, hfraction, isExponent_ofInt power, ?_⟩
  simp [scientificText, hrun]

/-! ## The digits of a double -/

namespace Decimal

/-- Zero does not read back to a positive magnitude. -/
theorem digits_pos_of_readsBack {b : Nat} {d : Decimal} (hb : b ≠ 0)
    (h : readsBack b d = true) : 0 < d.digits := by
  refine Nat.pos_of_ne_zero fun hzero => hb ?_
  rw [readsBack, hzero, beq_iff_eq] at h
  exact h.symm

theorem nearer_eq (tie : Tie) (b : Nat) (lower upper : Decimal) :
    nearer tie b lower upper = lower ∨ nearer tie b lower upper = upper := by
  unfold nearer
  grind

/-- What is found on a grid reads back. -/
theorem readsBack_of_onGrid {tie : Tie} {b : Nat} {k : Int} {d : Decimal}
    (h : onGrid? tie b k = some d) : readsBack b d = true := by
  simp only [onGrid?] at h
  generalize hlower : Decimal.mk ((fractionAt b k).1 / (fractionAt b k).2) k = lower at h
  generalize hupper : Decimal.mk ((fractionAt b k).1 / (fractionAt b k).2 + 1) k = upper at h
  split at h
  · next hl hu =>
      cases h
      rcases nearer_eq tie b lower upper with heq | heq
      · rw [heq, hl]
      · rw [heq, hu]
  · next hl hu => cases h; exact hl
  · next hl hu => cases h; exact hu
  · cases h

theorem mantissa_pos {b : Nat} (hb : b ≠ 0) : 0 < Binary64.mantissa b := by
  rw [Binary64.mantissa]
  split
  · exact Nat.pos_of_ne_zero hb
  · exact Nat.add_pos_left (by decide) _

theorem digits_exact_pos {b : Nat} (hb : b ≠ 0) : 0 < (exact b).digits := by
  have hm := mantissa_pos hb
  simp only [exact]
  split
  · rw [Nat.shiftLeft_eq]
    exact Nat.mul_pos hm (Nat.two_pow_pos _)
  · exact Nat.mul_pos hm (Nat.pow_pos (by decide))

theorem digits_search_pos {b : Nat} (hb : b ≠ 0) (tie : Tie) (count : Nat) (k : Int) :
    0 < (search tie b k count).digits := by
  induction count generalizing k with
  | zero => exact digits_exact_pos hb
  | succ count ih =>
      rw [search]
      split
      · next d hd => exact digits_pos_of_readsBack hb (readsBack_of_onGrid hd)
      · exact ih (k - 1)

/-- A positive magnitude gets a digit other than zero. -/
theorem digits_shortest_pos {b : Nat} (hb : b ≠ 0) (tie : Tie) : 0 < (shortest tie b).digits :=
  digits_search_pos hb tie 18 _

end Decimal

/-! ## Doubles -/

/-- A double is written as a number of the strict grammar, in any layout. -/
theorem Layout.isNumber_write (layout : Layout) (x : Float) : IsNumber (layout.write x) := by
  simp only [Layout.write]
  generalize Binary64.magnitude x = b
  generalize hdecimal : (if (b == 0) = true then (⟨0, 0⟩ : Decimal)
    else Decimal.shortest layout.tie b) = d
  have hd : 0 < d.digits ∨ d.exponent ≤ 0 := by
    rw [← hdecimal]
    split
    · exact .inr (Int.le_refl 0)
    · next hb => exact .inl (Decimal.digits_shortest_pos (by simpa using hb) layout.tie)
  generalize ((Text.ofNat d.digits).length - 1 + d.exponent : Int) = power
  have hrun : IsUnsigned (if layout.positional power then positionalText layout.pointed d
      else scientificText power d) := by
    split
    · exact isUnsigned_positionalText layout.pointed hd
    · exact isUnsigned_scientificText power d
  split
  · exact hrun.isNumber_minus
  · exact hrun.isNumber

/-- A computed number is written as a number, or as null. -/
theorem isScalar_computedText (x : Float) : ∃ kind, IsScalar kind (computedText x) := by
  simp only [computedText]
  split
  · exact ⟨.null, .nullWord⟩
  · split
    · exact ⟨.number, .number (isNumber_ofInt _)⟩
    · exact ⟨.number, .number (computedLayout.isNumber_write x)⟩

end DotPath.Number
