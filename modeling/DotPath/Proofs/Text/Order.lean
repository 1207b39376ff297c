import Mathlib.Data.Char
import Mathlib.Data.List.Lex
import DotPath.Text.Basic

/-!
# The order of texts

Texts are compared character by character, by code points, and the first difference decides. This is
the lexicographic order of lists of characters. It is linear, so what is sorted by it has one order,
and sorting it again changes nothing.

## Main results

* `order_eq_lt_iff`, `order_eq_eq_iff`, `order_eq_gt_iff`: the outcomes of a comparison.

The comparison is lawful in the sense of the library: oriented, transitive, and equal on equal texts
only.
-/

namespace DotPath.Text

/-- One character more in front of both texts makes no difference. -/
theorem order_cons_cons (c : Char) (s t : Text) : order (c :: s) (c :: t) = order s t := by
  have hval : compare c.val c.val = .eq := Std.ReflCmp.compare_self
  rw [order, hval, Ordering.eq_then]

theorem order_self (t : Text) : order t t = .eq := by
  induction t with
  | nil => rfl
  | cons c t ih => rw [order_cons_cons, ih]

theorem order_of_lt {s t : Text} (h : s < t) : order s t = .lt := by
  induction s generalizing t with
  | nil =>
      cases t with
      | nil => exact absurd h (lt_irrefl _)
      | cons d t => rfl
  | cons c s ih =>
      cases t with
      | nil => exact absurd h (List.not_lt_nil _)
      | cons d t =>
          rcases List.cons_lt_cons_iff.1 h with hc | ⟨rfl, hs⟩
          · have hval : compare c.val d.val = .lt := compareOfLessAndEq_eq_lt.2 hc
            rw [order, hval, Ordering.lt_then]
          · rw [order_cons_cons, ih hs]

theorem order_of_gt {s t : Text} (h : t < s) : order s t = .gt := by
  induction s generalizing t with
  | nil => exact absurd h (List.not_lt_nil _)
  | cons c s ih =>
      cases t with
      | nil => rfl
      | cons d t =>
          rcases List.cons_lt_cons_iff.1 h with hd | ⟨rfl, ht⟩
          · have hval : compare d.val c.val = .lt := compareOfLessAndEq_eq_lt.2 hd
            rw [order, Std.OrientedCmp.gt_of_lt hval, Ordering.gt_then]
          · rw [order_cons_cons, ih ht]

/-- The first difference decides as it does in the order of lists. -/
theorem order_eq_lt_iff {s t : Text} : order s t = .lt ↔ s < t := by
  refine ⟨fun h => ?_, order_of_lt⟩
  rcases lt_trichotomy s t with hlt | rfl | hgt
  · exact hlt
  · cases (order_self s).symm.trans h
  · cases (order_of_gt hgt).symm.trans h

theorem order_eq_eq_iff {s t : Text} : order s t = .eq ↔ s = t := by
  constructor
  · intro h
    rcases lt_trichotomy s t with hlt | rfl | hgt
    · cases (order_of_lt hlt).symm.trans h
    · rfl
    · cases (order_of_gt hgt).symm.trans h
  · rintro rfl
    exact order_self s

theorem order_eq_gt_iff {s t : Text} : order s t = .gt ↔ t < s := by
  refine ⟨fun h => ?_, order_of_gt⟩
  rcases lt_trichotomy s t with hlt | rfl | hgt
  · cases (order_of_lt hlt).symm.trans h
  · cases (order_self s).symm.trans h
  · exact hgt

instance : Std.TransCmp order where
  eq_swap {s t} := by
    rcases lt_trichotomy s t with hlt | rfl | hgt
    · rw [order_of_lt hlt, order_of_gt hlt, Ordering.swap_gt]
    · rw [order_self, Ordering.swap_eq]
    · rw [order_of_lt hgt, order_of_gt hgt, Ordering.swap_lt]
  isLE_trans {s t u} hst htu := by
    rw [Ordering.isLE_iff_ne_gt, order_eq_gt_iff, not_lt] at hst htu ⊢
    exact hst.trans htu

instance : Std.LawfulEqCmp order where
  compare_self := order_self _
  eq_of_compare := order_eq_eq_iff.1

end DotPath.Text
