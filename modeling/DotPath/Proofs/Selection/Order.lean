import Mathlib.Data.Prod.Lex
import DotPath.Proofs.Evaluator.Alike
import DotPath.Proofs.Number.Binary64
import DotPath.Proofs.Number.Reading
import DotPath.Proofs.Text.Order
import DotPath.Selection.Convert

/-!
# The order of selections

Which of two selections comes first is decided by their kinds, and among those of one kind by a rule
of that kind: numbers by size, strings by what they stand for, all others as they are written. Every
rule goes by something that can be told of one selection alone. So a selection has a key, in an
order that is linear, and comes before another one exactly if its key is less.

A double that is no number would have no place in this order. But what a document holds as a number
begins with a digit behind its sign, so that it is read as a decimal and not as a word. A selection
of nothing has the kind of null, and comes before null.

## Main definitions

* `Obtained`: the selections that documents, paths and arrays give.
* `orderKey`: what a selection is compared by.

## Main results

* `less_iff_orderKey_lt`: a selection comes before another one if its key is less.
* `less_strictWeakOrder`: the comparison is a strict weak order, and lists can be sorted by it.
-/

namespace DotPath

open Json

/-! ## Numbers are no words -/

namespace Number

/-- Behind its sign, a number begins with a digit. -/
theorem wordBits?_of_isNumeral {t : Text} (h : IsNumeral t) :
    wordBits? (splitSign t).2 = none := by
  obtain @⟨sign, whole, fraction, exponent, hsign, hwhole, -, -⟩ := h
  obtain ⟨c, rest, rfl⟩ := List.exists_cons_of_ne_nil hwhole.1
  have hc : c.isDigit = true := hwhole.2 c List.mem_cons_self
  rcases hsign with rfl | rfl
  · have hsplit : splitSign (c :: (rest ++ (fraction ++ exponent))) =
        (false, c :: (rest ++ (fraction ++ exponent))) := by
      unfold splitSign
      split
      · next heq =>
          cases heq
          cases hc
      · next heq =>
          cases heq
          cases hc
      · rfl
    rw [List.nil_append, List.cons_append, hsplit]
    exact wordBits?_cons_of_isDigit hc _
  · exact wordBits?_cons_of_isDigit hc _

/-- A number that is read as a double is read as a number. -/
theorem isNaN_of_isNumeral {t : Text} (h : IsNumeral t) {x : Float} (hx : float? t = some x) :
    Binary64.isNaN x = false := by
  rw [float?] at hx
  dsimp only at hx
  rw [wordBits?_of_isNumeral h] at hx
  obtain ⟨⟨digits, exponent⟩, -, rfl⟩ := Option.map_eq_some_iff.1 hx
  exact Binary64.isNaN_ofDecimal _ _ _

end Number

/-! ## Keys -/

namespace Selection

variable {s a b c : Selection} {caseSensitive : Bool}

/-- The selections that documents, paths and arrays give. -/
inductive Obtained : Selection → Prop where
  | document (json : Text) : Obtained (document json)
  | get (ev : Evaluator) (json path : Text) : Obtained (ev.get json path)
  | getFrom (ev : Evaluator) (path : Text) {s : Selection} :
      Obtained s → Obtained (ev.getFrom s path)
  | element {s e : Selection} : Obtained s → e ∈ s.array → Obtained e

theorem Obtained.located (h : Obtained s) : Located s := by
  induction h with
  | document json => exact located_document json
  | get ev json path => exact ev.get_located json path
  | getFrom ev path _ ih => exact ev.getFrom_located ih path
  | element _ he ih => exact .inr (ih.fills_of_mem_array _ he)

/-- What the kind of a number says about its double. -/
theorem Obtained.isNaN_float (h : Obtained s) (hkind : s.kind = .number) :
    Binary64.isNaN s.float = false := by
  have hnumeral : IsNumeral s.raw := by
    have hfills : Fills s.kind s.raw := by
      refine h.located.resolve_left fun hnothing => ?_
      rw [hkind] at hnothing
      cases hnothing.1
    rw [hkind] at hfills
    cases hfills with
    | number hnumeral => exact hnumeral
  rw [float, hkind]
  dsimp only
  cases hx : Number.float? s.raw with
  | none => decide
  | some x => exact Number.isNaN_of_isNumeral hnumeral hx

/-- The text that a selection is compared by, if its kind asks for one. -/
def orderText (caseSensitive : Bool) (s : Selection) : Text :=
  match s.kind with
  | .string => if caseSensitive then s.text else Text.toLower s.text
  | .number => []
  | _ => s.raw

/-- Where a number stands among the numbers. -/
def orderRank (s : Selection) : Int :=
  if s.kind = .number then Binary64.rank s.float else 0

/-- What a selection is compared by: its kind first, then its number, then its text. -/
def orderKey (caseSensitive : Bool) (s : Selection) : ℕ ×ₗ ℤ ×ₗ Text :=
  toLex (s.kind.rank, toLex (s.orderRank, s.orderText caseSensitive))

theorem rank_inj {k l : Kind} : k.rank = l.rank ↔ k = l := by
  cases k <;> cases l <;> decide

/-- Of selections of one kind, the one comes first that its kind says. -/
theorem orderKey_lt_iff_of_kind_eq (h : a.kind = b.kind) :
    orderKey caseSensitive a < orderKey caseSensitive b ↔
      a.orderRank < b.orderRank ∨
        a.orderRank = b.orderRank ∧ a.orderText caseSensitive < b.orderText caseSensitive := by
  rw [orderKey, orderKey, h, Prod.Lex.toLex_lt_toLex, Prod.Lex.toLex_lt_toLex]
  simp

theorem orderRank_eq_zero (h : s.kind ≠ .number) : s.orderRank = 0 :=
  if_neg h

/-- A selection comes before another one exactly if its key is less. -/
theorem less_iff_orderKey_lt (ha : Obtained a) (hb : Obtained b) :
    a.less b caseSensitive = true ↔ orderKey caseSensitive a < orderKey caseSensitive b := by
  by_cases hkind : a.kind = b.kind
  · rw [orderKey_lt_iff_of_kind_eq hkind, less, if_neg (not_not.2 hkind)]
    by_cases hnumber : a.kind = .number
    · have hcompare : Binary64.compare? a.float b.float =
          some (compare a.orderRank b.orderRank) := by
        have hnumber' : b.kind = .number := hkind ▸ hnumber
        rw [Binary64.compare?, ha.isNaN_float hnumber, hb.isNaN_float hnumber', orderRank,
          orderRank, if_pos hnumber, if_pos hnumber', Bool.or_self, if_neg Bool.false_ne_true]
      have htext : a.orderText caseSensitive = [] ∧ b.orderText caseSensitive = [] := by
        rw [orderText, orderText, ← hkind, hnumber]
        exact ⟨rfl, rfl⟩
      rw [hnumber, hcompare, htext.1, htext.2]
      simp [compare_lt_iff_lt]
    · rw [orderRank_eq_zero hnumber, orderRank_eq_zero (hkind ▸ hnumber), orderText, orderText,
        ← hkind]
      cases hk : a.kind with
      | number => exact absurd hk hnumber
      | string => cases caseSensitive <;> simp [Text.order_eq_lt_iff]
      | null | false | true | container => simp [Text.order_eq_lt_iff]
  · rw [less, if_pos hkind, orderKey, orderKey, Prod.Lex.toLex_lt_toLex]
    simp [rank_inj, hkind]

/-! ## The order -/

theorem less_eq_false_iff (ha : Obtained a) (hb : Obtained b) :
    a.less b caseSensitive = false ↔ orderKey caseSensitive b ≤ orderKey caseSensitive a := by
  rw [Bool.eq_false_iff, ne_eq, less_iff_orderKey_lt ha hb, not_lt]

/-- Of two selections neither comes before the other exactly if their keys are the same. -/
theorem less_incomparable_iff (ha : Obtained a) (hb : Obtained b) :
    a.less b caseSensitive = false ∧ b.less a caseSensitive = false ↔
      orderKey caseSensitive a = orderKey caseSensitive b := by
  rw [less_eq_false_iff ha hb, less_eq_false_iff hb ha, and_comm, le_antisymm_iff]

/-- Selections are sorted by their keys where they are sorted by the comparison. -/
theorem pairwise_mergeSort_less {l : List Selection} (hl : ∀ s ∈ l, Obtained s) :
    (l.mergeSort fun a b => !b.less a caseSensitive).Pairwise fun a b =>
      b.less a caseSensitive = false := by
  have hle : ∀ a ∈ l, ∀ b ∈ l, (!b.less a caseSensitive) =
      decide (orderKey caseSensitive a ≤ orderKey caseSensitive b) := by
    intro a ha b hb
    rw [Bool.eq_iff_iff, Bool.not_eq_true', less_eq_false_iff (hl b hb) (hl a ha),
      decide_eq_true_eq]
  have hsort : l.mergeSort (fun a b => !b.less a caseSensitive) = l.mergeSort fun a b =>
      decide (orderKey caseSensitive a ≤ orderKey caseSensitive b) := by
    simpa using List.map_mergeSort (f := id) hle
  rw [hsort]
  have hsorted : (l.mergeSort fun a b =>
      decide (orderKey caseSensitive a ≤ orderKey caseSensitive b)).Pairwise fun a b =>
        decide (orderKey caseSensitive a ≤ orderKey caseSensitive b) = true := by
    refine List.pairwise_mergeSort (fun a b c hab hbc => ?_) (fun a b => ?_) l
    · exact decide_eq_true ((of_decide_eq_true hab).trans (of_decide_eq_true hbc))
    · simpa using le_total _ _
  refine hsorted.imp_of_mem fun {a b} ha hb hab => ?_
  rw [List.mem_mergeSort] at ha hb
  exact (less_eq_false_iff (hl b hb) (hl a ha)).2 (of_decide_eq_true hab)

/--
Whether the case of strings counts or not, nothing comes before itself, what comes before something
comes before all that this comes before, and where neither of two selections comes before the other
and neither of the second and a third, then neither of the first and the third. So a list of such
selections, of whatever kinds, can be sorted: no element comes before one that stands earlier.
-/
theorem less_strictWeakOrder (ha : Obtained a) (hb : Obtained b) (hc : Obtained c)
    (caseSensitive : Bool) :
    a.less a caseSensitive = false ∧
      (a.less b caseSensitive = true → b.less c caseSensitive = true →
        a.less c caseSensitive = true) ∧
      (a.less b caseSensitive = false ∧ b.less a caseSensitive = false →
        b.less c caseSensitive = false ∧ c.less b caseSensitive = false →
          a.less c caseSensitive = false ∧ c.less a caseSensitive = false) ∧
      ∀ l : List Selection, (∀ s ∈ l, Obtained s) →
        (l.mergeSort fun a b => !b.less a caseSensitive).Pairwise fun a b =>
          b.less a caseSensitive = false := by
  refine ⟨(less_eq_false_iff ha ha).2 le_rfl, fun hab hbc => ?_, fun hab hbc => ?_,
    fun l hl => pairwise_mergeSort_less hl⟩
  · rw [less_iff_orderKey_lt ha hb] at hab
    rw [less_iff_orderKey_lt hb hc] at hbc
    exact (less_iff_orderKey_lt ha hc).2 (hab.trans hbc)
  · rw [less_incomparable_iff ha hb] at hab
    rw [less_incomparable_iff hb hc] at hbc
    exact (less_incomparable_iff ha hc).2 (hab.trans hbc)

/-- Zeros of three spellings: a document, a member and an element, none before another. -/
theorem less_strictWeakOrder_of_zeros :
    (⟨.number, "0e5".toList, true, some 1, []⟩ : Selection) ∈
        (document "[0e5]".toList).array ∧
      ((document "-0".toList).less ⟨.number, "0e5".toList, true, some 1, []⟩ true = false ∧
        Selection.less ⟨.number, "0e5".toList, true, some 1, []⟩ (document "-0".toList) true =
          false) := by
  have helement : (⟨.number, "0e5".toList, true, some 1, []⟩ : Selection) ∈
      (document "[0e5]".toList).array := by
    decide +kernel
  have h := less_strictWeakOrder (.document "-0".toList)
    (.get ⟨⟨true, 256⟩, fun _ => none⟩ "\x7b\"n\":0\x7d".toList "n".toList)
    (.element (.document "[0e5]".toList) helement) true
  exact ⟨helement, h.2.2.1 (by decide +kernel) (by decide +kernel)⟩

end Selection

end DotPath
