/-!
# Double precision numbers as integers

A finite double of magnitude bits `b` stands for `mantissa b * 2 ^ exponent b`, and magnitude bits
grow with the magnitude. So a double is compared, truncated and rounded to by exact arithmetic on
integers, and only sums and quotients of doubles use the arithmetic of `Float`.

`bitsOfRatio n d` rounds the quotient `n / d` to the nearest double, a tie to the one with an even
mantissa.
-/

namespace DotPath.Binary64

/-- Magnitude bits of infinity. Those of a finite double are less, those of a NaN more. -/
def infinityBits : Nat := 0x7FF0000000000000

/-- The bit of the sign, and the number of magnitudes. -/
def signBit : Nat := 0x8000000000000000

/-- The leading bit of a normal mantissa, which is not stored. -/
def leadingBit : Nat := 0x10000000000000

/-- The least exponent, which subnormal numbers share with the smallest normal ones. -/
def leastExponent : Int := -1074

/-! ## From bits to values -/

/-- The bits of a double without its sign. -/
def magnitude (x : Float) : Nat :=
  x.toBits.toNat % signBit

/-- Whether the sign bit of a double is set. -/
def isNegative (x : Float) : Bool :=
  signBit ≤ x.toBits.toNat

/-- The double with the given sign and magnitude bits. -/
def ofMagnitude (negative : Bool) (b : Nat) : Float :=
  Float.ofBits (UInt64.ofNat (if negative then signBit + b else b))

/-- The integer mantissa of a finite magnitude. -/
def mantissa (b : Nat) : Nat :=
  if b < leadingBit then b else leadingBit + b % leadingBit

/-- The power of two that goes with the mantissa. -/
def exponent (b : Nat) : Int :=
  if b < leadingBit then leastExponent else (b / leadingBit : Nat) - 1 + leastExponent

/-- Whether a double is no number. -/
def isNaN (x : Float) : Bool :=
  infinityBits < magnitude x

/-- Whether a double is a number and not infinite. -/
def isFinite (x : Float) : Bool :=
  magnitude x < infinityBits

/-- Whether a double is one of the two zeros. -/
def isZero (x : Float) : Bool :=
  magnitude x == 0

/-- The integral part of a finite magnitude. -/
def wholePart (b : Nat) : Nat :=
  mantissa b <<< (exponent b).toNat >>> (-exponent b).toNat

/-- Whether a finite magnitude is a whole number. -/
def isWhole (b : Nat) : Bool :=
  wholePart b <<< (-exponent b).toNat == mantissa b <<< (exponent b).toNat

/--
A double cut to a whole number toward zero, and then to the range from `lo` to `hi`. A NaN gives
zero.
-/
def truncateTo (lo hi : Int) (x : Float) : Int :=
  let b := magnitude x
  if infinityBits < b then 0
  else if b == infinityBits then (if isNegative x then lo else hi)
  else
    let whole : Int := wholePart b
    max lo (min hi (if isNegative x then -whole else whole))

/-! ## Order -/

/-- Place of a number in the order of all numbers. The two zeros share their place. -/
def rank (x : Float) : Int :=
  if isNegative x then -(magnitude x) else magnitude x

/-- How two doubles compare; not at all if one of them is a NaN. -/
def compare? (x y : Float) : Option Ordering :=
  if isNaN x || isNaN y then none else some (compare (rank x) (rank y))

/-! ## From values to bits -/

/-- The quotient rounded to the nearest whole number, a tie to the even one. -/
def roundDiv (n d : Nat) : Nat :=
  let q := n / d
  let r := n % d
  if 2 * r < d then q
  else if d < 2 * r then q + 1
  else q + q % 2

/-- Numerator and denominator of `n / d` after division by `2 ^ e`. -/
def scaled (n d : Nat) (e : Int) : Nat × Nat :=
  (n <<< (-e).toNat, d <<< e.toNat)

/--
The power of two by which `n / d` has to be divided so that its whole part has 53 bits, or the least
exponent if that is greater.
-/
def exponentOfRatio (n d : Nat) : Int :=
  let estimate : Int := (Nat.log2 n : Int) - Nat.log2 d - 52
  let (a, b) := scaled n d estimate
  max leastExponent (if a < b * leadingBit then estimate - 1 else estimate)

/-- Magnitude bits of the double nearest to `n / d`, for a positive `n`. -/
def bitsOfRatio (n d : Nat) : Nat :=
  let e := exponentOfRatio n d
  let (a, b) := scaled n d e
  min infinityBits ((e - leastExponent).toNat * leadingBit + roundDiv a b)

/--
Magnitude bits of the double nearest to `digits * 10 ^ exponent`. Beyond the range of doubles the
answer does not depend on the digits and is given without computing the power.
-/
def bitsOfDecimal (digits : Nat) (exponent : Int) : Nat :=
  if digits == 0 then 0
  else if 400 < exponent then infinityBits
  else if exponent + (Nat.log2 digits / 3 : Nat) + 1 < -400 then 0
  else bitsOfRatio (digits * Nat.pow 10 exponent.toNat) (Nat.pow 10 (-exponent).toNat)

/-- The double nearest to `± digits * 10 ^ exponent`. -/
def ofDecimal (negative : Bool) (digits : Nat) (exponent : Int) : Float :=
  ofMagnitude negative (bitsOfDecimal digits exponent)

end DotPath.Binary64
