import DotPath.Text.Basic
import DotPath.Number.Shortest

/-!
# Writing doubles

The digits of a double come from `Decimal.shortest`. How they are laid out is a matter of the
format, and each format is one `Layout`.
-/

namespace DotPath.Number

/-- How the digits of a double are laid out. -/
structure Layout where
  /-- Which of two equally near decimals is written. -/
  tie : Tie
  /-- Whether a number whose first digit stands for this power of ten is written positionally. -/
  positional : Int → Bool
  /-- Whether a whole number in positional notation gets a fraction of one zero. -/
  pointed : Bool

/-- Digits with a point, or with zeros up to the unit. -/
def positionalText (pointed : Bool) (d : Decimal) : Text :=
  let run := Text.ofNat d.digits
  if 0 ≤ d.exponent then
    run ++ List.replicate d.exponent.toNat '0' ++ (if pointed then ['.', '0'] else [])
  else
    let places := (-d.exponent).toNat
    let padded := List.replicate (places + 1 - run.length) '0' ++ run
    let whole := padded.length - places
    padded.take whole ++ '.' :: padded.drop whole

/-- One digit, a point before the others if there are any, and a signed exponent. -/
def scientificText (power : Int) (d : Decimal) : Text :=
  let run := Text.ofNat d.digits
  let fraction := run.drop 1
  run.take 1 ++ (if fraction.isEmpty then [] else '.' :: fraction) ++
    'e' :: (if power < 0 then [] else ['+']) ++ Text.ofInt power

/-- A finite double in the given layout. -/
def Layout.write (layout : Layout) (x : Float) : Text :=
  let b := Binary64.magnitude x
  let d := if b == 0 then ⟨0, 0⟩ else Decimal.shortest layout.tie b
  let power := (Text.ofNat d.digits).length - 1 + d.exponent
  let run :=
    if layout.positional power then positionalText layout.pointed d else scientificText power d
  if Binary64.isNegative x then '-' :: run else run

/-- Numbers computed by transformers: always positional, and without a point when whole. -/
def computedLayout : Layout :=
  ⟨.up, fun _ => true, false⟩

/-- Numbers of decoded values: positional from five places after the point to sixteen before it. -/
def valueLayout : Layout :=
  ⟨.even, fun power => -5 ≤ power && power ≤ 15, true⟩

/--
JSON text for a computed number. A whole number below `10 ^ 15` is written as an integer, which
gives negative zero no sign; what is not finite becomes `null`.
-/
def computedText (x : Float) : Text :=
  let b := Binary64.magnitude x
  if !Binary64.isFinite x then ['n', 'u', 'l', 'l']
  else if Binary64.isWhole b && Binary64.wholePart b < 1000000000000000 then
    let whole : Int := Binary64.wholePart b
    Text.ofInt (if Binary64.isNegative x then -whole else whole)
  else computedLayout.write x

end DotPath.Number
