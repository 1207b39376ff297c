import DotPath.Text.Basic

/-!
# Places in a text

A place is an octet offset together with the text that follows it. Reading moves a place forward and
keeps the offset in step with what was read. A part of a text is a place too: its offset is where
the part starts, and what follows is the part itself.
-/

namespace DotPath

/-- A place in a text: the octets before it and the characters after it. -/
structure Place where
  offset : Nat
  rest : Text
  deriving DecidableEq, Repr

namespace Place

/-- The place where a text begins. -/
def start (t : Text) : Place :=
  ⟨0, t⟩

/-- The place after the next `n` characters. -/
def skip (p : Place) (n : Nat) : Place :=
  ⟨p.offset + Text.byteLength (p.rest.take n), p.rest.drop n⟩

/-- The place after the characters of class `c` that come next. -/
def skipWhile (p : Place) (c : Char → Bool) : Place :=
  p.skip (p.rest.takeWhile c).length

/-- The place after character `c`, if `c` comes next. -/
def expect? (c : Char) (p : Place) : Option Place :=
  if p.rest.head? = some c then some (p.skip 1) else none

/-- The part of the text from one place to a later one. -/
def upTo (p q : Place) : Place :=
  ⟨p.offset, p.rest.take (p.rest.length - q.rest.length)⟩

/-- The offset where the part of the text ends. -/
def finish (p : Place) : Nat :=
  p.offset + Text.byteLength p.rest

/-- The part of the text without characters of class `c` at its start and end. -/
def trim (p : Place) (c : Char → Bool) : Place :=
  let q := p.skipWhile c
  ⟨q.offset, (q.rest.reverse.dropWhile c).reverse⟩

theorem length_skip_le (p : Place) (n : Nat) : (p.skip n).rest.length ≤ p.rest.length := by
  simp [skip]

theorem length_skip_lt {p : Place} {n : Nat} (hn : 0 < n) (hp : p.rest ≠ []) :
    (p.skip n).rest.length < p.rest.length := by
  have := List.length_pos_iff.2 hp
  simp [skip]
  omega

theorem length_skipWhile_le (p : Place) (c : Char → Bool) :
    (p.skipWhile c).rest.length ≤ p.rest.length :=
  p.length_skip_le _

theorem length_of_expect? {c : Char} {p q : Place} (h : p.expect? c = some q) :
    q.rest.length < p.rest.length := by
  unfold expect? at h
  split at h
  · next hc =>
    have hp : p.rest ≠ [] := by intro h0; simp [h0] at hc
    simp only [Option.some.injEq] at h
    subst h
    exact length_skip_lt Nat.one_pos hp
  · simp at h

end Place

end DotPath
