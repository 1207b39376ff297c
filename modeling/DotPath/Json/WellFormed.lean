import DotPath.Json.Quoted
import DotPath.Json.Place
import DotPath.Text.Utf8

/-!
# Well-formed texts

Octets are well formed when they are exactly one JSON value with space around it, written by the
strict grammar: no raw control characters in strings, no unknown escapes, no leading zeros, no
trailing commas. Unlike the scan for extents the check looks at every token, and it does not take
for granted that the octets are UTF-8. It reads them as a text with a character for each octet, and
tests the strings.

The check keeps the brackets that are open on an explicit stack, whose height may be limited. An
empty container is passed over as a whole, so it never counts towards the limit.
-/

namespace DotPath.Json

/-! ## Tokens -/

/--
Where the inside of a strictly written string ends, given the text after its opening quote: the
closing quote comes after that many characters, the `n` in front of the text included.
-/
def bodyEnd? (n : Nat) : Text → Option Nat
  | [] => none
  | '\\' :: 'u' :: a :: b :: c :: d :: rest =>
    if (Quoted.hex4? a b c d).isSome then bodyEnd? (n + 6) rest else none
  | '\\' :: c :: rest => if (Quoted.unescaped? c).isSome then bodyEnd? (n + 2) rest else none
  | c :: rest =>
    if c == '"' then some n
    else if c == '\\' || c.toNat < 0x20 then none
    else bodyEnd? (n + 1) rest

/-- What follows a strictly written string of UTF-8, given the text after its opening quote. -/
def afterString? (t : Text) : Option Text := do
  let n ← bodyEnd? 0 t
  if Text.isUtf8 (t.take n) then some (t.drop (n + 1)) else none

/-- Whether a number begins with a zero that another digit follows. -/
def hasLeadingZero (t : Text) : Bool :=
  match (minus t).2 with
  | '0' :: c :: _ => c.isDigit
  | _ => false

/-- What follows a strictly written number. -/
def afterNumber? (t : Text) : Option Text :=
  if hasLeadingZero t then none else (numberEnd? t).map (t.drop ·)

/-- What follows a fixed word. -/
def afterWord? (word : Text) (t : Text) : Option Text :=
  (wordEnd? word t).map (t.drop ·)

/-- What follows a value that is no container. -/
def afterScalar? (t : Text) : Option Text :=
  match t with
  | [] => none
  | c :: rest =>
    if c == '"' then afterString? rest
    else if c == 't' then afterWord? ['t', 'r', 'u', 'e'] t
    else if c == 'f' then afterWord? ['f', 'a', 'l', 's', 'e'] t
    else if c == 'n' then afterWord? ['n', 'u', 'l', 'l'] t
    else if c == '-' || c.isDigit then afterNumber? t
    else none

/-- What follows a key and its colon. -/
def afterKey? (t : Text) : Option Text :=
  match t with
  | '"' :: rest => do
    let rest ← afterString? rest
    match rest.dropWhile isSpace with
    | ':' :: rest => some rest
    | _ => none
  | _ => none

/-! ## Every token takes at least one character -/

theorem length_drop_of_pos {t : Text} {n : Nat} (hn : 0 < n) (ht : t ≠ []) :
    (t.drop n).length < t.length := by
  have := List.length_pos_iff.2 ht
  simp only [List.length_drop]
  omega

theorem length_of_afterString? {t rest : Text} (h : afterString? t = some rest) :
    rest.length < t.length := by
  simp only [afterString?, Option.bind_eq_bind, Option.bind_eq_some_iff] at h
  obtain ⟨n, hn, h⟩ := h
  have ht : t ≠ [] := by
    rintro rfl
    cases hn
  split at h
  · cases h
    exact length_drop_of_pos (Nat.succ_pos n) ht
  · cases h

theorem length_of_afterWord? {word t rest : Text} (hw : word ≠ [])
    (h : afterWord? word t = some rest) : rest.length < t.length := by
  simp only [afterWord?, wordEnd?, Option.map_eq_some_iff] at h
  obtain ⟨n, hn, rfl⟩ := h
  split at hn
  · next hp =>
    have hlen := List.length_pos_iff.2 hw
    have hle := (List.isPrefixOf_iff_prefix.1 hp).length_le
    simp only [Option.some.injEq] at hn
    simp only [List.length_drop]
    omega
  · simp at hn

theorem length_of_afterScalar? {t rest : Text} (h : afterScalar? t = some rest) :
    rest.length < t.length := by
  unfold afterScalar? at h
  split at h
  · simp at h
  · next c after =>
    repeat' split at h
    · have := length_of_afterString? h
      simp only [List.length_cons]
      omega
    · exact length_of_afterWord? (by simp) h
    · exact length_of_afterWord? (by simp) h
    · exact length_of_afterWord? (by simp) h
    · unfold afterNumber? at h
      split at h
      · simp at h
      · simp only [Option.map_eq_some_iff] at h
        obtain ⟨n, hn, rfl⟩ := h
        exact length_drop_of_pos (pos_of_numberEnd? hn) (by simp)
    · simp at h

theorem length_dropWhile_le (p : Char → Bool) (t : Text) : (t.dropWhile p).length ≤ t.length :=
  (List.dropWhile_sublist p).length_le

theorem length_of_afterKey? {t rest : Text} (h : afterKey? t = some rest) :
    rest.length < t.length := by
  unfold afterKey? at h
  split at h
  · next after =>
    simp only [Option.bind_eq_bind, Option.bind_eq_some_iff] at h
    obtain ⟨a, ha, h⟩ := h
    have := length_of_afterString? ha
    have := length_dropWhile_le isSpace a
    split at h
    · next b hb =>
      simp only [Option.some.injEq] at h
      subst h
      simp only [hb, List.length_cons] at *
      omega
    · simp at h
  · simp at h

/-! ## Documents -/

/-- A bracket that is open. -/
inductive Bracket where
  | array
  | object
  deriving DecidableEq, Repr

/-- The character that closes a bracket. -/
def Bracket.closing : Bracket → Char
  | .array => ']'
  | .object => '\x7d'

/-- The bracket that a character opens. -/
def Bracket.ofOpening? (c : Char) : Option Bracket :=
  if c == '[' then some .array else if c == '\x7b' then some .object else none

/-- Whether a stack of this height leaves room for one more bracket. -/
def hasRoom (limit : Option Nat) (height : Nat) : Bool :=
  limit.all (height < ·)

/--
What follows the beginning of the next item in a container: nothing for an array, its key for a
member.
-/
def itemStart? (bracket : Bracket) (t : Text) : Option Text :=
  match bracket with
  | .array => some t
  | .object => afterKey? t

theorem length_of_itemStart? {bracket : Bracket} {t rest : Text}
    (h : itemStart? bracket t = some rest) : rest.length ≤ t.length := by
  unfold itemStart? at h
  split at h
  · simp only [Option.some.injEq] at h
    exact h ▸ Nat.le_refl _
  · exact Nat.le_of_lt (length_of_afterKey? h)

mutual
/-- Reads on where a value has to come next. -/
def expectValue (limit : Option Nat) (stack : List Bracket) (t : Text) : Bool :=
  match _ht : t.dropWhile isSpace with
  | [] => false
  | c :: rest =>
    match Bracket.ofOpening? c with
    | some bracket =>
      match _hr : rest.dropWhile isSpace with
      | [] => false
      | d :: inner =>
        if d == bracket.closing then expectNext limit stack inner
        else if hasRoom limit stack.length then
          match _hi : itemStart? bracket (d :: inner) with
          | none => false
          | some item => expectValue limit (bracket :: stack) item
        else false
    | none =>
      match _hc : afterScalar? (c :: rest) with
      | none => false
      | some after => expectNext limit stack after
termination_by t.length
decreasing_by
  · have h1 := length_dropWhile_le isSpace t
    have h2 := length_dropWhile_le isSpace rest
    simp only [_ht, _hr, List.length_cons] at h1 h2
    omega
  · have h1 := length_dropWhile_le isSpace t
    have h2 := length_dropWhile_le isSpace rest
    have h3 := length_of_itemStart? _hi
    simp only [_ht, _hr, List.length_cons] at h1 h2 h3
    omega
  · have h1 := length_dropWhile_le isSpace t
    have h2 := length_of_afterScalar? _hc
    simp only [_ht, List.length_cons] at h1 h2
    omega

/-- Reads on where a value has just ended. -/
def expectNext (limit : Option Nat) (stack : List Bracket) (t : Text) : Bool :=
  match stack with
  | [] => t.all isSpace
  | bracket :: outer =>
    match _ht : t.dropWhile isSpace with
    | [] => false
    | c :: rest =>
      if c == ',' then
        match _hi : itemStart? bracket (rest.dropWhile isSpace) with
        | none => false
        | some item => expectValue limit (bracket :: outer) item
      else if c == bracket.closing then expectNext limit outer rest
      else false
termination_by t.length
decreasing_by
  · have h1 := length_dropWhile_le isSpace t
    have h2 := length_of_itemStart? _hi
    have h3 := length_dropWhile_le isSpace rest
    simp only [_ht, List.length_cons] at h1
    omega
  · have h1 := length_dropWhile_le isSpace t
    simp only [_ht, List.length_cons] at h1
    omega
end

end DotPath.Json

namespace DotPath.Octets

/--
Whether octets are exactly one value with space around it, in which at most `limit` non-empty
containers are open at once. `none` sets no limit.
-/
def wellFormed (limit : Option Nat) (octets : ByteArray) : Bool :=
  Json.expectValue limit [] (Text.ofOctets octets)

end DotPath.Octets

namespace DotPath.Json

/-- Whether the octets of a text are well formed. -/
def wellFormed (limit : Option Nat) (t : Text) : Bool :=
  Octets.wellFormed limit t.toUtf8

/-- The value that makes up a well-formed document. -/
def document? (t : Text) : Option Occurrence :=
  if wellFormed none t then firstValue? t else none

/-- The depth that documents may have where nothing else is said. -/
def defaultDepth : Nat := 256

/-- Whether a text is a well-formed document of at most the default depth. -/
def valid (t : Text) : Bool :=
  wellFormed (some defaultDepth) t

end DotPath.Json
