import DotPath.Selection.Compare

/-!
# How the operators of comparisons divide values

What is compared with an operand that asks for no property has to be there. If it is, an operator
and its negation divide all values; that an operand compares with values of its own kind only makes
no difference, since "not equal" is the negation of "equal" and of nothing else. The operators that
order ask how the value compares, and values of other kinds than the operand do not compare at all.

An operand that asks for a property is met by what is not there too, if that counts as having the
property. "Equal" and "not equal" divide all values then, those that are missing included.
-/

namespace DotPath

open Json

/-- Whether an operand is a value of a kind. True and false are both of the kind of truth values. -/
def Operand.isOfKind : Operand → Kind → Bool
  | .text _, .string | .number _, .number | .bool _, .true | .bool _, .false | .null, .null => true
  | _, _ => false

/-- Whether an operand asks for a property. -/
def Operand.isTilde : Operand → Bool
  | .tilde _ => true
  | _ => false

/-- The operators that ask which of two values comes first. -/
def Operator.orders : Operator → Bool
  | .less | .lessEqual | .greater | .greaterEqual => true
  | _ => false

namespace Selection

variable {s : Selection} {operand : Operand}

/-- Values of other kinds than the operand do not compare with it. -/
theorem order?_eq_none (h : operand.isOfKind s.kind = false) : s.order? operand = none := by
  unfold order?
  split
  all_goals simp_all [Operand.isOfKind]

/-- A comparison with an operand that is a value asks whether there is something to compare. -/
theorem meets_eq (hoperand : operand.isTilde = false) (operator : Operator) :
    s.meets operator operand = (s.isPresent &&
      match operator with
      | .like => s.like operand
      | .unlike => !s.like operand
      | _ => operator.accepts (s.order? operand)) := by
  unfold meets
  split
  · cases hoperand
  · rfl

theorem isPresent_of_meets (hoperand : operand.isTilde = false) {operator : Operator}
    (h : s.meets operator operand = true) : s.isPresent = true := by
  rw [meets_eq hoperand, Bool.and_eq_true] at h
  exact h.1

/-! ## Operators and their negations -/

theorem meets_notEqual (hoperand : operand.isTilde = false) :
    s.meets .notEqual operand = (s.isPresent && !s.meets .equal operand) := by
  rw [meets_eq hoperand, meets_eq hoperand]
  cases s.isPresent <;> rfl

theorem meets_unlike (hoperand : operand.isTilde = false) :
    s.meets .unlike operand = (s.isPresent && !s.meets .like operand) := by
  rw [meets_eq hoperand, meets_eq hoperand]
  cases s.isPresent <;> rfl

/-- A value has a property or lacks it, and so does a missing one. -/
theorem meets_notEqual_tilde (t : Tilde) :
    s.meets .notEqual (.tilde t) = !s.meets .equal (.tilde t) :=
  rfl

/-- What counts as true and what does not are the two properties of all values. -/
theorem meets_tilde_false :
    s.meets .equal (.tilde .false) = !s.meets .equal (.tilde .true) := by
  show (!s.isPresent || !s.truthy) = !(s.isPresent && s.truthy)
  rw [Bool.not_and]

/-! ## Operators that order -/

theorem meets_lessEqual (hoperand : operand.isTilde = false) :
    s.meets .lessEqual operand = (s.meets .less operand || s.meets .equal operand) := by
  rw [meets_eq hoperand, meets_eq hoperand, meets_eq hoperand, ← Bool.and_or_distrib_left]
  rfl

theorem meets_greaterEqual (hoperand : operand.isTilde = false) :
    s.meets .greaterEqual operand = (s.meets .greater operand || s.meets .equal operand) := by
  rw [meets_eq hoperand, meets_eq hoperand, meets_eq hoperand, ← Bool.and_or_distrib_left]
  rfl

/-- A value compares in one way, if it does. -/
theorem meets_exclusive (hoperand : operand.isTilde = false) :
    (s.meets .less operand = true → s.meets .equal operand = false) ∧
      (s.meets .greater operand = true → s.meets .equal operand = false) ∧
        (s.meets .less operand = true → s.meets .greater operand = false) := by
  rw [meets_eq hoperand, meets_eq hoperand, meets_eq hoperand]
  simp only [Operator.accepts, Bool.and_eq_true, beq_iff_eq]
  refine ⟨?_, ?_, ?_⟩
  all_goals
    rintro ⟨-, horder⟩
    rw [horder]
    exact Bool.and_false _

/-- Nothing that is missing or of another kind than the operand is put in order with it. -/
theorem meets_orders {operator : Operator} (horders : operator.orders = true)
    (h : s.isPresent = false ∨ operand.isOfKind s.kind = false) :
    s.meets operator operand = false := by
  cases htilde : operand.isTilde with
  | true =>
      cases operand with
      | tilde t =>
          cases operator with
          | less | lessEqual | greater | greaterEqual => rfl
          | _ => cases horders
      | _ => cases htilde
  | false =>
      rw [meets_eq htilde]
      rcases h with habsent | hkind
      · rw [habsent, Bool.false_and]
      · rw [order?_eq_none hkind]
        cases operator with
        | less | lessEqual | greater | greaterEqual => exact Bool.and_false _
        | _ => cases horders

end Selection

end DotPath
