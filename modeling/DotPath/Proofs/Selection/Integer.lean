import DotPath.Proofs.Evaluator.Named
import DotPath.Proofs.Number.Binary64
import DotPath.Proofs.Number.Reading
import DotPath.Proofs.Transformer.WellFormed
import DotPath.Selection.Convert

/-!
# Integers as selections

An integer that does not fit is read as a double and cut to the range. Rounding moves it, but across
no power of two, so that it is cut to the same end of the range as the integer itself. This holds
for numbers, and for strings that spell one. The unsigned reading of a string goes by the signed
one, and so ends at the greatest signed integer: the upper half of the unsigned range is lost.

## Main definitions

* `IsInteger`: an integer as JSON writes it, with its value.

## Main results

* `integers_clamped`: the integer that a number or a string is read as.
-/

namespace DotPath

open Json

/-- An integer as JSON writes it, without a zero too many in front, and its value. -/
inductive Json.IsInteger : Text → Int → Prop where
  | nonneg {whole : Text} : IsWhole whole → IsInteger whole (Nat.ofDigitChars 10 whole 0)
  | neg {whole : Text} : IsWhole whole → IsInteger ('-' :: whole) (-Nat.ofDigitChars 10 whole 0)

namespace Number

section Digits

variable {run : Text} (h : IsDigits run)

include h

theorem all_isDigit_of_isDigits : run.all Char.isDigit = true :=
  List.all_eq_true.2 h.2

theorem splitSign_of_isDigits : splitSign run = (false, run) := by
  obtain ⟨c, rest, rfl⟩ := List.exists_cons_of_ne_nil h.1
  have hc := h.2 c List.mem_cons_self
  unfold splitSign
  split
  · next heq =>
      cases heq
      cases hc
  · next heq =>
      cases heq
      cases hc
  · rfl

/-- Digits are no word. -/
theorem wordBits?_of_isDigits : wordBits? run = none := by
  obtain ⟨c, rest, rfl⟩ := List.exists_cons_of_ne_nil h.1
  exact wordBits?_cons_of_isDigit (h.2 c List.mem_cons_self) rest

theorem decimalOf?_of_isDigits : decimalOf? run = some (natOfDigits run, 0) := by
  have hspan : run.span Char.isDigit = (run, []) := by
    rw [List.span_eq_takeWhile_dropWhile, List.takeWhile_eq_self_iff.2 h.2,
      List.dropWhile_eq_nil_iff.2 h.2]
  have hne : run.isEmpty = false := by simpa using h.1
  rw [decimalOf?, hspan]
  simp [splitFraction, exponentOf?, hne]

/-- Digits are read as the nearest double, also behind a minus sign. -/
theorem float?_of_isDigits :
    float? run = some (Binary64.ofDecimal false (natOfDigits run) 0) ∧
      float? ('-' :: run) = some (Binary64.ofDecimal true (natOfDigits run) 0) := by
  have hsplit : splitSign ('-' :: run) = (true, run) := rfl
  rw [float?, float?, splitSign_of_isDigits h, hsplit]
  dsimp only
  rw [wordBits?_of_isDigits h, decimalOf?_of_isDigits h]
  exact ⟨rfl, rfl⟩

/-- A signed integer is read as it is if it fits, and cut to the range if it does not. -/
theorem int64_of_isDigits :
    (int64? run).getD (Selection.clampInt64 (Binary64.ofDecimal false (natOfDigits run) 0)) =
        max minInt64 (min maxInt64 (natOfDigits run)) ∧
      (int64? ('-' :: run)).getD
          (Selection.clampInt64 (Binary64.ofDecimal true (natOfDigits run) 0)) =
        max minInt64 (min maxInt64 (-natOfDigits run)) := by
  have hsplit : splitSign ('-' :: run) = (true, run) := rfl
  have hne : run.isEmpty = false := by simpa using h.1
  have hall := all_isDigit_of_isDigits h
  rw [int64?, int64?, splitSign_of_isDigits h, hsplit]
  simp only [hne, hall, Bool.not_true, Bool.or_self, Bool.false_eq_true, if_false, if_true]
  rw [minInt64, maxInt64]
  constructor
  · split
    · rw [Option.getD_some]
      omega
    · next hlarge =>
        rw [Option.getD_none, Selection.clampInt64, minInt64, maxInt64,
          Binary64.truncateTo_of_large (k := 63) (by decide) (by omega) (by decide) (by decide)]
        omega
  · split
    · rw [Option.getD_some]
      omega
    · next hlarge =>
        rw [Option.getD_none, Selection.clampInt64, minInt64, maxInt64,
          Binary64.truncateTo_neg_of_large (k := 63) (by decide) (by omega) (by decide)]
        omega

/-- An unsigned integer is cut to its range likewise, and there is none with a minus sign. -/
theorem uint64_of_isDigits :
    ((uint64? run).getD (Binary64.truncateTo 0 maxUInt64
        (Binary64.ofDecimal false (natOfDigits run) 0)).toNat : Int) =
        min maxUInt64 (natOfDigits run) ∧
      (uint64? ('-' :: run)).getD (Binary64.truncateTo 0 maxUInt64
        (Binary64.ofDecimal true (natOfDigits run) 0)).toNat = 0 := by
  have hminus : uint64? ('-' :: run) = none := rfl
  rw [uint64?_of_digits h.1 (all_isDigit_of_isDigits h), hminus, Option.getD_none,
    Binary64.truncateTo_zero_neg, maxUInt64]
  refine ⟨?_, rfl⟩
  split
  · rw [Option.getD_some]
    omega
  · next hlarge =>
      rw [Option.getD_none,
        Binary64.truncateTo_of_large (k := 64) (by decide) (by omega) (by decide) (by decide)]
      omega

end Digits

/-- What an integer is read as: a double that is cut to the same ends as the integer. -/
theorem reads_isInteger {t : Text} {n : Int} (h : IsInteger t n) :
    ∃ x, float? t = some x ∧
      (int64? t).getD (Selection.clampInt64 x) = max minInt64 (min maxInt64 n) ∧
      ((uint64? t).getD (Binary64.truncateTo 0 maxUInt64 x).toNat : Int) =
        max 0 (min (maxUInt64 : Int) n) := by
  cases h with
  | @nonneg whole hwhole =>
      have hd := hwhole.isDigits
      rw [← natOfDigits_eq]
      refine ⟨_, (float?_of_isDigits hd).1, (int64_of_isDigits hd).1, ?_⟩
      rw [(uint64_of_isDigits hd).1]
      omega
  | @neg whole hwhole =>
      have hd := hwhole.isDigits
      rw [← natOfDigits_eq]
      refine ⟨_, (float?_of_isDigits hd).2, (int64_of_isDigits hd).2, ?_⟩
      rw [(uint64_of_isDigits hd).2]
      omega

end Number

namespace Json

variable {t : Text} {n : Int}

theorem IsInteger.isNumber (h : IsInteger t n) : IsNumber t := by
  cases h with
  | nonneg hwhole =>
      have hnumber := IsNumber.mk (.inl rfl) hwhole .absent .absent
      rwa [List.append_nil, List.append_nil] at hnumber
  | neg hwhole =>
      have hnumber := IsNumber.mk (.inr rfl) hwhole .absent .absent
      rwa [List.append_nil, List.append_nil] at hnumber

/-- An integer as a document of its own. -/
def IsInteger.document (h : IsInteger t n) : Document :=
  ⟨.none, .scalar .number t (.number h.isNumber), .none⟩

theorem IsInteger.source_document (h : IsInteger t n) : h.document.source = t :=
  List.append_nil t

theorem IsInteger.trimBlank_eq (h : IsInteger t n) : Text.trimBlank t = t := by
  have htrim := trimBlank_source h.document
  rwa [h.source_document] at htrim

/-- What an integer is written with may stand in a string as it is. -/
theorem IsInteger.isBody (h : IsInteger t n) : IsBody t ∧ '\\' ∉ t := by
  have hdigits : ∀ {whole : Text}, IsWhole whole → IsBody whole ∧ '\\' ∉ whole := by
    intro whole hwhole
    refine ⟨isBody_of_digits (Number.all_isDigit_of_isDigits hwhole.isDigits), fun hmem => ?_⟩
    cases hwhole.isDigits.2 _ hmem
  cases h with
  | nonneg hwhole => exact hdigits hwhole
  | neg hwhole =>
      obtain ⟨hbody, hslash⟩ := hdigits hwhole
      exact ⟨.plain (by decide) (by decide) (by decide) hbody, by simpa using hslash⟩

/-- The string that spells an integer, as a document of its own. -/
def IsInteger.quoted (h : IsInteger t n) : Document :=
  ⟨.none, .scalar .string _ (.string h.isBody.1), .none⟩

theorem IsInteger.source_quoted (h : IsInteger t n) : h.quoted.source = '"' :: (t ++ ['"']) :=
  List.append_nil _

end Json

namespace Selection

/--
A number or a string that spells an integer is read as that integer, cut to the range. This holds
for signed integers, and for unsigned ones as long as the value is a number. A string is read as an
unsigned integer by way of the signed one, and this is the integer cut to the unsigned range exactly
if the integer is no greater than the greatest signed one.
-/
theorem integers_clamped {t : Text} {n : Int} (h : IsInteger t n) :
    ((document t).kind = .number ∧ (document t).raw = t) ∧
      ((document ('"' :: (t ++ ['"']))).kind = .string ∧
        (document ('"' :: (t ++ ['"']))).text = t) ∧
      (∀ s : Selection, s.kind = .number → s.raw = t →
        s.int64 = max Number.minInt64 (min Number.maxInt64 n) ∧
          (s.uint64 : Int) = max 0 (min (Number.maxUInt64 : Int) n)) ∧
      ∀ s : Selection, s.kind = .string → s.text = t →
        s.int64 = max Number.minInt64 (min Number.maxInt64 n) ∧
          (s.uint64 : Int) = max 0 (min Number.maxInt64 n) ∧
          ((s.uint64 : Int) = max 0 (min (Number.maxUInt64 : Int) n) ↔ n ≤ Number.maxInt64) := by
  obtain ⟨x, hfloat, hint, huint⟩ := Number.reads_isInteger h
  refine ⟨?_, ?_, ?_, ?_⟩
  · have hdocument := Evaluator.document_source h.document
    rw [h.source_document] at hdocument
    rw [hdocument]
    exact ⟨rfl, rfl⟩
  · have hdocument := Evaluator.document_source h.quoted
    rw [h.source_quoted] at hdocument
    rw [hdocument]
    exact ⟨rfl, text_of_not_mem h.isBody.2⟩
  · intro s hkind hraw
    have hx : s.float = x := by
      rw [float, hkind]
      dsimp only
      rw [hraw, hfloat, Option.getD_some]
    rw [int64, uint64, hkind]
    dsimp only
    rw [hraw, hx]
    exact ⟨hint, huint⟩
  · intro s hkind htext
    have hsigned : s.int64 = max Number.minInt64 (min Number.maxInt64 n) := by
      rw [int64, hkind]
      dsimp only
      rw [htext, h.trimBlank_eq, hfloat, ← hint]
      cases Number.int64? t with
      | none => rfl
      | some m => rfl
    have hunsigned : (s.uint64 : Int) = max 0 (min Number.maxInt64 n) := by
      rw [uint64, hkind]
      dsimp only
      rw [hsigned, Number.minInt64, Number.maxInt64]
      omega
    refine ⟨hsigned, hunsigned, ?_⟩
    rw [hunsigned, Number.maxInt64, Number.maxUInt64]
    omega

/-- Cut at both ends of the signed range, as a number and as a string. -/
theorem integers_clamped_of_beyond :
    IsInteger "-9223372036854775809".toList (-9223372036854775809) ∧
      (document "-9223372036854775809".toList).int64 = -9223372036854775808 ∧
      (document "\"-9223372036854775809\"".toList).int64 = -9223372036854775808 := by
  have hinteger : IsInteger "-9223372036854775809".toList (-9223372036854775809) :=
    @IsInteger.neg "9223372036854775809".toList
      (.digits (by decide) ⟨by decide, List.all_eq_true.1 (by decide)⟩)
  obtain ⟨⟨hnumber, hraw⟩, ⟨hstring, htext⟩, hnumbers, hstrings⟩ := integers_clamped hinteger
  exact ⟨hinteger, (hnumbers _ hnumber hraw).1, (hstrings _ hstring htext).1⟩

/--
The least integer beyond the signed range fits the unsigned one, and as a number it is read as it
is. As a string it is not.
-/
theorem uint64_of_string_loses :
    IsInteger "9223372036854775808".toList 9223372036854775808 ∧
      (document "9223372036854775808".toList).uint64 = 9223372036854775808 ∧
      (document "\"9223372036854775808\"".toList).kind = .string ∧
      (document "\"9223372036854775808\"".toList).text = "9223372036854775808".toList ∧
      (document "\"9223372036854775808\"".toList).uint64 = 9223372036854775807 ∧
      ¬ ((document "\"9223372036854775808\"".toList).uint64 : Int) =
        max 0 (min (Number.maxUInt64 : Int) 9223372036854775808) := by
  have hstring : (document "\"9223372036854775808\"".toList).uint64 = 9223372036854775807 := by
    decide +kernel
  refine ⟨@IsInteger.nonneg "9223372036854775808".toList
    (.digits (by decide) ⟨by decide, List.all_eq_true.1 (by decide)⟩),
    by decide +kernel, rfl, rfl, hstring, ?_⟩
  rw [hstring]
  decide

end Selection

end DotPath
