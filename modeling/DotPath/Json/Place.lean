import DotPath.Text.Place
import DotPath.Json.Extent

/-!
# Values at a place

Reading a value, or a string literal, at a place of a text. `Occurrence` is a value found in a text:
its kind, where it starts, and how it is written.
-/

namespace DotPath

namespace Json

/-- A value found in a text. -/
structure Occurrence where
  kind : Kind
  /-- Octets of the text before the value. -/
  offset : Nat
  /-- The value as it is written. -/
  raw : Text
  deriving DecidableEq, Repr

end Json

open Json

namespace Place

/-- The first place from here that has no space after it. -/
def skipSpace (p : Place) : Place :=
  p.skipWhile isSpace

/-- The value that starts here, and the place after it. -/
def value? (p : Place) : Option (Occurrence × Place) :=
  (extent p.rest).map fun (kind, n) => (⟨kind, p.offset, p.rest.take n⟩, p.skip n)

/-- The string literal that starts here, and the place after it. -/
def literal? (p : Place) : Option (Occurrence × Place) :=
  match p.rest with
  | '"' :: rest =>
    (stringEnd 1 rest).map fun n => (⟨.string, p.offset, p.rest.take n⟩, p.skip n)
  | _ => none

theorem length_skipSpace_le (p : Place) : p.skipSpace.rest.length ≤ p.rest.length :=
  p.length_skip_le _

theorem length_of_value? {p q : Place} {v : Occurrence} (h : p.value? = some (v, q)) :
    q.rest.length < p.rest.length := by
  simp only [value?, Option.map_eq_some_iff, Prod.mk.injEq, Prod.exists] at h
  obtain ⟨kind, n, he, _, rfl⟩ := h
  refine length_skip_lt (pos_of_extent he) ?_
  intro h0
  simp [h0, extent] at he

theorem length_of_literal? {p q : Place} {v : Occurrence} (h : p.literal? = some (v, q)) :
    q.rest.length < p.rest.length := by
  unfold literal? at h
  split at h
  · next rest hr =>
    simp only [Option.map_eq_some_iff, Prod.mk.injEq] at h
    obtain ⟨n, he, _, rfl⟩ := h
    have := lt_of_stringEnd he
    exact length_skip_lt (by omega) (by simp [hr])
  · simp at h

end Place

namespace Json

/-- The first value of a text, after space. What follows it is not looked at. -/
def firstValue? (t : Text) : Option Occurrence :=
  (Place.start t).skipSpace.value?.map (·.1)

end Json

end DotPath
