import DotPath.Text.Basic

/-!
# Glob patterns

In a glob pattern a star stands for any run of characters, a question mark for exactly one
character, and a backslash makes the character after it stand for itself. A backslash at the end
stands for itself.

A pattern is read into tokens. Matching fills one row of a table per character of the subject, from
its end to its start: the entry of a row at a pattern suffix tells whether that suffix matches what
follows in the subject. So a match costs at most the product of the two lengths, whatever the
pattern.

Main definitions: `Glob.tokens`, `Glob.isMatch`, and `Glob.Matches`, the meaning of a token list.
-/

namespace DotPath.Glob

/-- What one unit of a pattern stands for. -/
inductive Token where
  /-- This very character. -/
  | literal (c : Char)
  /-- Exactly one character. -/
  | one
  /-- Any run of characters. -/
  | run
  deriving DecidableEq, Repr

/-- The tokens of a pattern, in order. -/
def tokens : Text → List Token
  | [] => []
  | '*' :: rest => .run :: tokens rest
  | '?' :: rest => .one :: tokens rest
  | '\\' :: c :: rest => .literal c :: tokens rest
  | c :: rest => .literal c :: tokens rest

/-- Whether a text holds an unescaped star or question mark. -/
def isPattern (t : Text) : Bool :=
  (tokens t).any fun token => token == .run || token == .one

/-- The meaning of tokens: each stands for its part of the subject, in order. -/
inductive Matches : List Token → Text → Prop where
  | nil : Matches [] []
  | literal (c : Char) {pattern : List Token} {subject : Text} :
      Matches pattern subject → Matches (.literal c :: pattern) (c :: subject)
  | one (c : Char) {pattern : List Token} {subject : Text} :
      Matches pattern subject → Matches (.one :: pattern) (c :: subject)
  | run (taken : Text) {pattern : List Token} {subject : Text} :
      Matches pattern subject → Matches (.run :: pattern) (taken ++ subject)

/-- The row for the empty subject: one entry per suffix of the pattern, the whole pattern first. -/
def lastRow : List Token → List Bool
  | [] => [true]
  | token :: pattern =>
    let row := lastRow pattern
    (token == .run && row.headD false) :: row

/--
The row for the subject `c :: subject`, given the row for `subject`. A star takes `c` and stays, or
stands for nothing more; any other token has to accept `c`.
-/
def rowBefore (c : Char) : List Token → List Bool → List Bool
  | [], _ => [false]
  | token :: pattern, below =>
    let row := rowBefore c pattern below.tail
    let here := match token with
      | .literal d => c == d && below.tail.headD false
      | .one => below.tail.headD false
      | .run => below.headD false || row.headD false
    here :: row

/-- Whether the whole subject is matched by the tokens. -/
def accepts (pattern : List Token) (subject : Text) : Bool :=
  (subject.foldr (rowBefore · pattern) (lastRow pattern)).headD false

/-- Whether the whole subject is matched by the pattern. -/
def isMatch (pattern subject : Text) : Bool :=
  accepts (tokens pattern) subject

end DotPath.Glob
