import DotPath.Number.Reading
import Mathlib.Data.List.Induction

/-!
# Natural numbers are read as they are written

Writing a natural number in decimal and reading the digits gives the number again. The other way
round, digits are read and written again as they are if no zero stands in front of them that could
be left out.

## Main results

* `uint64?_ofNat`: a number that fits is read back.
* `ofNat_natOfDigits`: digits are written back.
* `wordBits?_cons_of_isDigit`: what begins with a digit is none of the words for doubles.
-/

namespace DotPath.Number

/-- Digits that begin with a zero which could be left out. -/
def IsPadded (t : Text) : Prop :=
  t.all Char.isDigit = true ∧ 1 < t.length ∧ t.head? = some '0'

instance (t : Text) : Decidable (IsPadded t) := by
  unfold IsPadded
  infer_instance

theorem natOfDigits_eq (t : Text) : natOfDigits t = Nat.ofDigitChars 10 t 0 := by
  rw [natOfDigits, Nat.ofDigitChars_eq_foldl]
  congr 1
  funext n c
  rw [Nat.mul_comm]
  rfl

theorem natOfDigits_concat (t : Text) (d : Char) :
    natOfDigits (t ++ [d]) = 10 * natOfDigits t + (d.toNat - 0x30) := by
  rw [natOfDigits, List.foldl_append, List.foldl_cons, List.foldl_nil, ← natOfDigits,
    Nat.mul_comm]

/-- The digit with the value of a digit is that digit. -/
theorem digitChar_of_isDigit {d : Char} (hd : d.isDigit = true) :
    d.toNat - 0x30 < 10 ∧ (d.toNat - 0x30).digitChar = d := by
  obtain ⟨hlow, hhigh⟩ := Char.isDigit_iff_toNat.1 hd
  have h0 : '0'.toNat = 0x30 := rfl
  have h9 : '9'.toNat = 0x39 := rfl
  have hlt : d.toNat - 0x30 < 10 := by omega
  refine ⟨hlt, Char.toNat_inj.1 ?_⟩
  rw [Nat.toNat_digitChar_of_lt_ten hlt]
  omega

/-- Digits of which the first is no zero write a positive number, and are what it is written as. -/
theorem ofNat_natOfDigits_cons {c : Char} {t : Text} (hd : ∀ d ∈ c :: t, d.isDigit = true)
    (hc : c ≠ '0') : 0 < natOfDigits (c :: t) ∧ Text.ofNat (natOfDigits (c :: t)) = c :: t := by
  induction t using List.reverseRecOn with
  | nil =>
      obtain ⟨hlt, hdigit⟩ := digitChar_of_isDigit (hd c List.mem_cons_self)
      have hvalue : natOfDigits [c] = c.toNat - 0x30 := by
        simp [natOfDigits]
      have hpos : c.toNat - 0x30 ≠ 0 := by
        intro hzero
        rw [hzero] at hdigit
        exact hc hdigit.symm
      rw [hvalue, Text.ofNat, Nat.toDigits_of_lt_base hlt, hdigit]
      exact ⟨Nat.pos_of_ne_zero hpos, rfl⟩
  | append_singleton t d ih =>
      have hfront : ∀ e ∈ c :: t, e.isDigit = true := by
        intro e he
        exact hd e (List.mem_append_left [d] he)
      obtain ⟨hpos, hdigits⟩ := ih hfront
      obtain ⟨hlt, hdigit⟩ := digitChar_of_isDigit (hd d (by simp))
      have hwritten := Nat.toDigits_append_toDigits (by decide) hpos hlt
      rw [← List.cons_append, natOfDigits_concat, Text.ofNat, ← hwritten,
        Nat.toDigits_of_lt_base hlt, hdigit]
      refine ⟨by omega, ?_⟩
      show Text.ofNat (natOfDigits (c :: t)) ++ [d] = c :: t ++ [d]
      rw [hdigits]

/-- Digits without a zero too many are what the number is written as that they write. -/
theorem ofNat_natOfDigits {t : Text} (hne : t ≠ []) (hd : t.all Char.isDigit = true)
    (hpad : ¬ IsPadded t) : Text.ofNat (natOfDigits t) = t := by
  obtain ⟨c, rest, rfl⟩ := List.exists_cons_of_ne_nil hne
  by_cases hc : c = '0'
  · subst hc
    have hlength : ¬ 1 < ('0' :: rest).length := fun hlong => hpad ⟨hd, hlong, rfl⟩
    obtain rfl : rest = [] := by
      cases rest with
      | nil => rfl
      | cons d rest =>
          rw [List.length_cons, List.length_cons] at hlength
          omega
    rfl
  · exact (ofNat_natOfDigits_cons (List.all_eq_true.1 hd) hc).2

/-- Digits are read as the number that they write, if it fits. -/
theorem uint64?_of_digits {t : Text} (hne : t ≠ []) (hd : t.all Char.isDigit = true) :
    uint64? t = if natOfDigits t ≤ maxUInt64 then some (natOfDigits t) else none := by
  obtain ⟨c, rest, rfl⟩ := List.exists_cons_of_ne_nil hne
  have hc : c.isDigit = true := List.all_eq_true.1 hd c List.mem_cons_self
  have hplus : ¬ ((c :: rest).head? == some '+') = true := by
    intro heq
    obtain rfl : c = '+' := by simpa using heq
    cases hc
  rw [uint64?, if_neg hplus]
  dsimp only
  rw [hd]
  rfl

theorem all_isDigit_ofNat (n : Nat) : (Text.ofNat n).all Char.isDigit = true :=
  List.all_eq_true.2 fun _ hc => Nat.isDigit_of_mem_toDigits (by decide) (by decide) hc

/-- A number that fits is read back from how it is written. -/
theorem uint64?_ofNat {n : Nat} (h : n ≤ maxUInt64) : uint64? (Text.ofNat n) = some n := by
  have hd := all_isDigit_ofNat n
  have hvalue : natOfDigits (Text.ofNat n) = n := by
    rw [natOfDigits_eq]
    exact Nat.ofDigitChars_ten_toDigits
  have hne : Text.ofNat n ≠ [] := Nat.toDigits_ne_nil
  rw [uint64?_of_digits hne hd, hvalue, if_pos h]

/-- What begins with a digit is no word. -/
theorem wordBits?_cons_of_isDigit {c : Char} (hc : c.isDigit = true) (t : Text) :
    wordBits? (c :: t) = none := by
  have hlower : c.toLower = c := by
    have hrange := Char.isDigit_iff_toNat.1 hc
    have hnine : '9'.toNat = 57 := rfl
    have hA : 'A'.val.toNat = 65 := rfl
    have hval : c.toNat = c.val.toNat := rfl
    refine dif_neg fun hupper => ?_
    have hle := UInt32.le_iff_toNat_le.1 hupper.1
    omega
  have hi : c ≠ 'i' := by
    rintro rfl
    cases hc
  have hn : c ≠ 'n' := by
    rintro rfl
    cases hc
  simp [wordBits?, hlower, hi, hn]

end DotPath.Number
