import DotPath.Text.Basic
import DotPath.Number.Binary64

/-!
# Reading numbers

Three grammars: doubles, signed 64-bit integers and unsigned 64-bit integers. A sign may stand in
front of each (the unsigned one takes only a plus). A double is a decimal with an optional point and
exponent, or the word for infinity or for no number in any case; it is rounded to the nearest. An
integer that does not fit is refused.
-/

namespace DotPath.Number

/-- The number that a list of digits writes. -/
def natOfDigits (t : Text) : Nat :=
  t.foldl (fun n c => n * 10 + (c.toNat - 0x30)) 0

/-- The sign in front of a number, and what follows it. -/
def splitSign : Text → Bool × Text
  | '-' :: rest => (true, rest)
  | '+' :: rest => (false, rest)
  | t => (false, t)

/-- The whole text as an exponent with its letter, or no exponent if the text is empty. -/
def exponentOf? (t : Text) : Option Int :=
  match t with
  | [] => some 0
  | c :: rest =>
    if c == 'e' || c == 'E' then
      let (negative, run) := splitSign rest
      if run.isEmpty || !run.all Char.isDigit then none
      else some (if negative then -(natOfDigits run) else natOfDigits run)
    else none

/-- The digits after a point, if there is one, and what follows. -/
def splitFraction (t : Text) : Text × Text :=
  match t with
  | '.' :: rest => rest.span Char.isDigit
  | _ => ([], t)

/-- The whole text as an unsigned decimal: its digits as one number, and the power of ten. -/
def decimalOf? (t : Text) : Option (Nat × Int) := do
  let (whole, t) := t.span Char.isDigit
  let (fraction, t) := splitFraction t
  let exponent ← exponentOf? t
  if whole.isEmpty && fraction.isEmpty then none
  else some (natOfDigits (whole ++ fraction), exponent - fraction.length)

/-- The magnitude bits that a word stands for, in any case of its letters. -/
def wordBits? (t : Text) : Option Nat :=
  let t := t.map Char.toLower
  if t == ['i', 'n', 'f'] || t == ['i', 'n', 'f', 'i', 'n', 'i', 't', 'y'] then
    some Binary64.infinityBits
  else if t == ['n', 'a', 'n'] then some (Binary64.infinityBits + Binary64.leadingBit / 2)
  else none

/-- The whole text as a double. -/
def float? (t : Text) : Option Float :=
  let (negative, t) := splitSign t
  match wordBits? t with
  | some bits => some (Binary64.ofMagnitude negative bits)
  | none => (decimalOf? t).map fun (digits, exponent) => Binary64.ofDecimal negative digits exponent

/-- The least signed 64-bit integer. -/
def minInt64 : Int := -0x8000000000000000

/-- The greatest signed 64-bit integer. -/
def maxInt64 : Int := 0x7FFFFFFFFFFFFFFF

/-- The greatest unsigned 64-bit integer. -/
def maxUInt64 : Nat := 0xFFFFFFFFFFFFFFFF

/-- The whole text as a signed 64-bit integer. -/
def int64? (t : Text) : Option Int :=
  let (negative, run) := splitSign t
  if run.isEmpty || !run.all Char.isDigit then none
  else
    let n : Int := if negative then -(natOfDigits run) else natOfDigits run
    if minInt64 ≤ n ∧ n ≤ maxInt64 then some n else none

/-- The whole text as an unsigned 64-bit integer. -/
def uint64? (t : Text) : Option Nat :=
  let run := if t.head? == some '+' then t.tail else t
  if run.isEmpty || !run.all Char.isDigit then none
  else
    let n := natOfDigits run
    if n ≤ maxUInt64 then some n else none

end DotPath.Number
