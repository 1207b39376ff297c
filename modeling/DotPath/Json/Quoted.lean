import DotPath.Text.Basic

/-!
# String literals

`Quoted.encode` writes a text as a JSON string literal: the quote, the backslash and the control
characters are escaped, everything else stands for itself. `Quoted.decode?` reads the body of a
literal strictly: unknown escapes, raw control characters, bare quotes and surrogates that are not
paired are refused.

A key or string value of a document is read leniently by `Quoted.text`: a body that the strict
reader refuses stands for itself.
-/

namespace DotPath.Json.Quoted

/-! ## Writing -/

/-- A hexadecimal digit in lowercase. -/
def hexDigit (n : Nat) : Char :=
  Nat.digitChar (n % 16)

/-- How one character is written inside a literal. -/
def escape (c : Char) : Text :=
  if c == '"' then ['\\', '"']
  else if c == '\\' then ['\\', '\\']
  else if c == '\x08' then ['\\', 'b']
  else if c == '\t' then ['\\', 't']
  else if c == '\n' then ['\\', 'n']
  else if c == '\x0c' then ['\\', 'f']
  else if c == '\r' then ['\\', 'r']
  else if c.toNat < 0x20 then
    ['\\', 'u', '0', '0', hexDigit (c.toNat / 16), hexDigit c.toNat]
  else [c]

/-- A text as a string literal, quotes included. -/
def encode (t : Text) : Text :=
  '"' :: t.flatMap escape ++ ['"']

/-! ## Reading -/

/-- The value of a hexadecimal digit. -/
def hexValue? (c : Char) : Option Nat :=
  let n := c.toNat
  if 0x30 ≤ n ∧ n ≤ 0x39 then some (n - 0x30)
  else if 0x41 ≤ n ∧ n ≤ 0x46 then some (n - 0x37)
  else if 0x61 ≤ n ∧ n ≤ 0x66 then some (n - 0x57)
  else none

/-- The number written by four hexadecimal digits. -/
def hex4? (a b c d : Char) : Option Nat := do
  let a ← hexValue? a
  let b ← hexValue? b
  let c ← hexValue? c
  let d ← hexValue? d
  return ((a * 16 + b) * 16 + c) * 16 + d

/-- The character that an escape of one letter stands for. -/
def unescaped? (c : Char) : Option Char :=
  if c == '"' || c == '\\' || c == '/' then some c
  else if c == 'b' then some '\x08'
  else if c == 'f' then some '\x0c'
  else if c == 'n' then some '\n'
  else if c == 'r' then some '\r'
  else if c == 't' then some '\t'
  else none

/-- Whether a 16-bit unit opens a surrogate pair. -/
def isHighSurrogate (n : Nat) : Bool :=
  0xD800 ≤ n && n < 0xDC00

/-- Whether a 16-bit unit closes a surrogate pair. -/
def isLowSurrogate (n : Nat) : Bool :=
  0xDC00 ≤ n && n < 0xE000

/-- The character that a surrogate pair stands for. -/
def paired (high low : Nat) : Char :=
  Char.ofNat (0x10000 + (high - 0xD800) * 0x400 + (low - 0xDC00))

/--
The 16-bit unit that an escape with four hexadecimal digits stands for, and the rest of the body.
-/
def codeUnit? : Text → Option (Nat × Text)
  | '\\' :: 'u' :: a :: b :: c :: d :: rest => (hex4? a b c d).map (·, rest)
  | _ => none

/--
The first character that a body stands for, and the rest of the body. `none` at the end of the body
and at anything that the strict grammar does not allow.
-/
def unit? (t : Text) : Option (Char × Text) :=
  match codeUnit? t with
  | some (n, rest) =>
    if isHighSurrogate n then
      match codeUnit? rest with
      | some (low, rest) => if isLowSurrogate low then some (paired n low, rest) else none
      | none => none
    else if isLowSurrogate n then none
    else some (Char.ofNat n, rest)
  | none =>
    match t with
    | [] => none
    | '\\' :: c :: rest => (unescaped? c).map (·, rest)
    | c :: rest => if c == '"' || c == '\\' || c.toNat < 0x20 then none else some (c, rest)

theorem length_of_codeUnit? {t rest : Text} {n : Nat} (h : codeUnit? t = some (n, rest)) :
    rest.length < t.length := by
  unfold codeUnit? at h
  split at h
  · simp only [Option.map_eq_some_iff, Prod.mk.injEq] at h
    obtain ⟨_, _, _, rfl⟩ := h
    simp only [List.length_cons]
    omega
  · simp at h

theorem length_of_unit? {t rest : Text} {c : Char} (h : unit? t = some (c, rest)) :
    rest.length < t.length := by
  unfold unit? at h
  split at h
  · next n after hn =>
    have hlt := length_of_codeUnit? hn
    split at h
    · split at h
      · next low last hl =>
        have := length_of_codeUnit? hl
        grind
      · simp at h
    · grind
  · split at h
    · simp at h
    · simp only [Option.map_eq_some_iff, Prod.mk.injEq] at h
      obtain ⟨_, _, _, rfl⟩ := h
      simp only [List.length_cons]
      omega
    · grind

/-- The text that a body stands for, read strictly. -/
def decode? (body : Text) : Option Text :=
  if body.isEmpty then some []
  else match _h : unit? body with
    | none => none
    | some (c, rest) => (decode? rest).map (c :: ·)
termination_by body.length
decreasing_by exact length_of_unit? ‹_›

/-- The text between the quotes of a literal. -/
def body (literal : Text) : Text :=
  (literal.drop 1).dropLast

/--
What a body stands for: a body without escapes, and one that the strict reader refuses, stand for
themselves.
-/
def unescape (body : Text) : Text :=
  if body.contains '\\' then (decode? body).getD body else body

/-- The text that a literal stands for, read leniently. -/
def text (literal : Text) : Text :=
  unescape (body literal)

end DotPath.Json.Quoted
