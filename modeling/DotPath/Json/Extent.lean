import DotPath.Text.Basic
import DotPath.Json.Kind

/-!
# How far a value extends

The kind of a value follows from its first character, and where it ends can be found without
decoding it: a string ends at its first unescaped quote, a container where its brackets balance, a
number after the longest run of characters that has the form of a number. Brackets inside strings do
not count, and brackets are not told apart, so a malformed container still has an extent.

Extents are counted in characters. `extent` gives the extent of the value that a text begins with.
-/

namespace DotPath.Json

/-- The characters that JSON allows between tokens. -/
def isSpace (c : Char) : Bool :=
  c == ' ' || c == '\t' || c == '\n' || c == '\r'

/-- Whether a character opens a container. -/
def isOpening (c : Char) : Bool :=
  c == '\x7b' || c == '['

/-- Whether a character closes a container. -/
def isClosing (c : Char) : Bool :=
  c == '\x7d' || c == ']'

/-! ## Strings and containers -/

/--
Where a string ends, given the text after its opening quote and the number `n` of characters before
that text. A backslash protects the character after it.
-/
def stringEnd (n : Nat) : Text → Option Nat
  | [] => none
  | ['\\'] => none
  | '\\' :: _ :: rest => stringEnd (n + 2) rest
  | c :: rest => if c == '"' then some (n + 1) else stringEnd (n + 1) rest

/-- Where the scan of a container stands with respect to strings. -/
inductive Mode where
  /-- Outside strings. -/
  | plain
  /-- Inside a string. -/
  | quoted
  /-- Inside a string, after a backslash. -/
  | escaped
  deriving DecidableEq, Repr

/--
Where a container ends, given the text after `n` of its characters, `depth` brackets being open at
that point.
-/
def containerEnd (depth : Nat) (mode : Mode) (n : Nat) : Text → Option Nat
  | [] => none
  | c :: rest =>
    match mode with
    | .escaped => containerEnd depth .quoted (n + 1) rest
    | .quoted =>
      if c == '"' then containerEnd depth .plain (n + 1) rest
      else if c == '\\' then containerEnd depth .escaped (n + 1) rest
      else containerEnd depth .quoted (n + 1) rest
    | .plain =>
      if c == '"' then containerEnd depth .quoted (n + 1) rest
      else if isOpening c then containerEnd (depth + 1) .plain (n + 1) rest
      else if isClosing c then
        if depth ≤ 1 then some (n + 1) else containerEnd (depth - 1) .plain (n + 1) rest
      else containerEnd depth .plain (n + 1) rest

/-! ## Numbers -/

/-- The characters of a run of at least one digit, and what follows. -/
def digits? (t : Text) : Option (Nat × Text) :=
  let run := t.takeWhile Char.isDigit
  if run.isEmpty then none else some (run.length, t.dropWhile Char.isDigit)

/-- The minus sign that a number may begin with. -/
def minus (t : Text) : Nat × Text :=
  match t with
  | '-' :: rest => (1, rest)
  | _ => (0, t)

/-- A fraction, if a point follows: the point and at least one digit. -/
def fraction? (t : Text) : Option (Nat × Text) :=
  match t with
  | '.' :: rest => (digits? rest).map fun (n, rest) => (n + 1, rest)
  | _ => some (0, t)

/-- The sign that an exponent may begin with. -/
def exponentSign (t : Text) : Nat × Text :=
  match t with
  | c :: rest => if c == '+' || c == '-' then (1, rest) else (0, t)
  | [] => (0, t)

/-- An exponent, if its letter follows: the letter, perhaps a sign, and at least one digit. -/
def exponent? (t : Text) : Option (Nat × Text) :=
  match t with
  | c :: rest =>
    if c == 'e' || c == 'E' then
      let (sign, rest) := exponentSign rest
      (digits? rest).map fun (n, rest) => (n + sign + 1, rest)
    else some (0, t)
  | [] => some (0, t)

/--
Extent of the longest number token: an optional minus, digits, then a fraction and an exponent where
their marks occur. A mark without digits after it leaves no number at all.
-/
def numberEnd? (t : Text) : Option Nat := do
  let (sign, t) := minus t
  let (whole, t) ← digits? t
  let (fraction, t) ← fraction? t
  let (exponent, _) ← exponent? t
  return sign + whole + fraction + exponent

/-! ## Values -/

/-- Extent of a fixed word. -/
def wordEnd? (word : Text) (t : Text) : Option Nat :=
  if word.isPrefixOf t then some word.length else none

/-- Kind and extent of the value that a text begins with. -/
def extent (t : Text) : Option (Kind × Nat) :=
  match t with
  | [] => none
  | c :: rest =>
    if isOpening c then (containerEnd 1 .plain 1 rest).map (.container, ·)
    else if c == '"' then (stringEnd 1 rest).map (.string, ·)
    else if c == 't' then (wordEnd? ['t', 'r', 'u', 'e'] t).map (.true, ·)
    else if c == 'f' then (wordEnd? ['f', 'a', 'l', 's', 'e'] t).map (.false, ·)
    else if c == 'n' then (wordEnd? ['n', 'u', 'l', 'l'] t).map (.null, ·)
    else if c == '-' || c.isDigit then (numberEnd? t).map (.number, ·)
    else none

/-! ## Extents are positive -/

theorem lt_of_stringEnd {n k : Nat} {t : Text} (h : stringEnd n t = some k) : n < k := by
  fun_induction stringEnd n t with
  | case1 => simp at h
  | case2 => simp at h
  | case3 n _ rest ih => have := ih h; omega
  | case4 n c rest _ _ hc => simp at h; omega
  | case5 n c rest _ _ hc ih => have := ih h; omega

theorem lt_of_containerEnd {depth n k : Nat} {mode : Mode} {t : Text}
    (h : containerEnd depth mode n t = some k) : n < k := by
  induction t generalizing depth n mode with
  | nil => simp [containerEnd] at h
  | cons c rest ih =>
    unfold containerEnd at h
    repeat' split at h
    all_goals first
      | have := ih h; omega
      | simp at h; omega

theorem pos_of_digits? {t rest : Text} {n : Nat} (h : digits? t = some (n, rest)) : 0 < n := by
  simp only [digits?, List.isEmpty_iff] at h
  split at h
  · simp at h
  · next hne =>
    simp only [Option.some.injEq, Prod.mk.injEq] at h
    have := List.length_pos_iff.2 hne
    omega

theorem pos_of_numberEnd? {t : Text} {n : Nat} (h : numberEnd? t = some n) : 0 < n := by
  simp only [numberEnd?, Option.bind_eq_bind, Option.pure_def, Option.bind_eq_some_iff,
    Option.some.injEq, Prod.exists] at h
  obtain ⟨whole, _, hw, _, _, _, _, _, _, rfl⟩ := h
  have := pos_of_digits? hw
  omega

theorem pos_of_extent {t : Text} {kind : Kind} {n : Nat} (h : extent t = some (kind, n)) :
    0 < n := by
  unfold extent at h
  split at h
  · simp at h
  · repeat' split at h
    all_goals simp only [Option.map_eq_some_iff, Prod.mk.injEq, reduceCtorEq] at h
    all_goals obtain ⟨k, hk, _, rfl⟩ := h
    · have := lt_of_containerEnd hk; omega
    · have := lt_of_stringEnd hk; omega
    · simp [wordEnd?] at hk; omega
    · simp [wordEnd?] at hk; omega
    · simp [wordEnd?] at hk; omega
    · exact pos_of_numberEnd? hk

end DotPath.Json
