import DotPath.Text.Basic

/-!
# Blank characters

The characters with the Unicode property White_Space, and the operations on texts that go by them:
trimming, and counting the words that blanks separate.
-/

namespace DotPath.Text

/-- The twenty-five characters with the property White_Space. -/
def isBlank (c : Char) : Bool :=
  let n := c.toNat
  (0x09 ≤ n && n ≤ 0x0D) || n == 0x20 || n == 0x85 || n == 0xA0 || n == 0x1680 ||
    (0x2000 ≤ n && n ≤ 0x200A) || n == 0x2028 || n == 0x2029 || n == 0x202F || n == 0x205F ||
    n == 0x3000

/-- The text without leading and trailing blanks. -/
def trimBlank (t : Text) : Text :=
  trim isBlank t

/--
Number of maximal runs of characters that are not blank; `inside` tells whether one is already open.
-/
def countWordsFrom (inside : Bool) : Text → Nat
  | [] => 0
  | c :: rest =>
    if isBlank c then countWordsFrom false rest
    else (if inside then 0 else 1) + countWordsFrom true rest

/-- Number of words, a word being a maximal run of characters that are not blank. -/
def countWords (t : Text) : Nat :=
  countWordsFrom false t

end DotPath.Text
