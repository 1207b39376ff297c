import DotPath.Text.Basic

/-!
# Character classes as ranges

A class of characters is stored as the ascending list of its ranges of code points. Looking a code
point up stops at the first range that ends at or after it. All classes are those of version 17 of
the Unicode standard.
-/

namespace DotPath.Text

/--
A class of characters: disjoint ranges of code points, both ends included, in ascending order.
-/
abbrev Ranges := List (Nat × Nat)

/-- Whether a code point lies in one of the ranges. -/
def Ranges.contains : Ranges → Nat → Bool
  | [], _ => false
  | (first, last) :: rest, n =>
    if n ≤ last then decide (first ≤ n) else Ranges.contains rest n

end DotPath.Text
