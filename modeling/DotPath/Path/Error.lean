import DotPath.Text.Shown

/-!
# Why a text is no path

Positions are octet offsets into the text of the path.
-/

namespace DotPath

/-- The reasons for which a text is refused as a path. -/
inductive PathError where
  /-- The text is empty. -/
  | empty
  /-- A segment has no characters. -/
  | emptySegment (position : Nat)
  /-- A string literal has no closing quote. -/
  | unclosedString (position : Nat)
  /-- The group opened at `opening` has no closing bracket, or the wrong one at `position`. -/
  | unbalanced (opening position : Nat)
  /-- A selector has no entries. -/
  | emptySelector (position : Nat)
  /-- What follows an exclamation mark is no value. -/
  | invalidLiteral (position : Nat)
  /-- A query lacks a comparison, or an operand. -/
  | invalidQuery (position : Nat)
  /-- A character stands where a separator has to. -/
  | unexpectedChar (c : Char) (position : Nat)
  /-- Paths nest in one another deeper than allowed. -/
  | tooDeep (limit : Nat)
  deriving DecidableEq, Repr

/-- What is told to the user. -/
def PathError.message : PathError → Text
  | .empty => "Empty path".toList
  | .emptySegment position => "Empty path segment at ".toList ++ Text.ofNat position
  | .unclosedString position => "Unclosed string starting at ".toList ++ Text.ofNat position
  | .unbalanced opening position =>
    "Unbalanced group opened at ".toList ++ Text.ofNat opening ++
      ", mismatch at ".toList ++ Text.ofNat position
  | .emptySelector position => "Empty selector at ".toList ++ Text.ofNat position
  | .invalidLiteral position => "Invalid literal at ".toList ++ Text.ofNat position
  | .invalidQuery position => "Invalid query expression at ".toList ++ Text.ofNat position
  | .unexpectedChar c position =>
    "Unexpected character ".toList ++ Text.quotedChar c ++ " at ".toList ++ Text.ofNat position
  | .tooDeep limit => "Path nesting exceeds ".toList ++ Text.ofNat limit ++ " levels".toList

end DotPath
