import DotPath.Number.Binary64

/-!
# The fewest digits that read back

A double is written with as few decimal digits as identify it: the decimal has to be rounded back to
the same double. Of the decimals with that many digits the nearest to the double is taken.

On the grid of multiples of a power of ten only the two neighbours of a value can be the answer, so
the search tries these two on ever finer grids, in exact arithmetic.
-/

namespace DotPath.Number

/-- Which of two equally near decimals is taken. -/
inductive Tie where
  /-- The greater one. -/
  | up
  /-- The one whose last digit is even. -/
  | even
  deriving DecidableEq, Repr

/-- The number `digits * 10 ^ exponent`. -/
structure Decimal where
  digits : Nat
  exponent : Int
  deriving DecidableEq, Repr

namespace Decimal

/-- Whether a decimal is rounded to the double with magnitude bits `b`. -/
def readsBack (b : Nat) (d : Decimal) : Bool :=
  Binary64.bitsOfDecimal d.digits d.exponent == b

/-- A finite magnitude as a fraction, after division by `10 ^ k`. -/
def fractionAt (b : Nat) (k : Int) : Nat × Nat :=
  let m := Binary64.mantissa b
  let e := Binary64.exponent b
  ((m <<< e.toNat) * Nat.pow 10 (-k).toNat, (1 <<< (-e).toNat) * Nat.pow 10 k.toNat)

/-- Whether a finite magnitude is less than `10 ^ k`. -/
def isBelow (b : Nat) (k : Int) : Bool :=
  let (n, d) := fractionAt b k
  n < d

/-- A power of ten just above a positive finite magnitude, from its binary logarithm. -/
def scale (b : Nat) : Int :=
  let estimate := ((Nat.log2 (Binary64.mantissa b) : Int) + Binary64.exponent b) * 1233 / 4096
  if isBelow b estimate then estimate
  else if isBelow b (estimate + 1) then estimate + 1
  else estimate + 2

/-- Of two neighbouring decimals around a magnitude the nearer one. -/
def nearer (tie : Tie) (b : Nat) (lower upper : Decimal) : Decimal :=
  let (n, d) := fractionAt b lower.exponent
  match compare (2 * n) ((lower.digits + upper.digits) * d) with
  | .lt => lower
  | .gt => upper
  | .eq => match tie with
    | .up => upper
    | .even => if lower.digits % 2 == 0 then lower else upper

/-- The decimal on the grid of multiples of `10 ^ k` that reads back, if there is one. -/
def onGrid? (tie : Tie) (b : Nat) (k : Int) : Option Decimal :=
  let (n, d) := fractionAt b k
  let lower : Decimal := ⟨n / d, k⟩
  let upper : Decimal := ⟨n / d + 1, k⟩
  match readsBack b lower, readsBack b upper with
  | true, true => some (nearer tie b lower upper)
  | true, false => some lower
  | false, true => some upper
  | false, false => none

/-- All digits of a finite magnitude. -/
def exact (b : Nat) : Decimal :=
  let m := Binary64.mantissa b
  let e := Binary64.exponent b
  if 0 ≤ e then ⟨m <<< e.toNat, 0⟩ else ⟨m * Nat.pow 5 (-e).toNat, e⟩

/-- Searches the grids below `10 ^ k`, the coarsest first, `count` of them. -/
def search (tie : Tie) (b : Nat) (k : Int) : Nat → Decimal
  | 0 => exact b
  | count + 1 =>
    match onGrid? tie b (k - 1) with
    | some d => d
    | none => search tie b (k - 1) count

/--
The decimal with the fewest digits that reads back to a positive finite magnitude. The first grid is
that of the power of ten above the magnitude, which may itself be the answer; the last one has
seventeen digits.
-/
def shortest (tie : Tie) (b : Nat) : Decimal :=
  search tie b (scale b + 1) 18

end Decimal

end DotPath.Number
