import DotPath.Json.Place

/-!
# Elements and members

The elements of an array and the members of an object, found by scanning the text of the container.
Each item is reported with its offset in that text. The scan ends at the closing bracket, and just
as quietly at the first place where the text is malformed; the items found before it stand.
-/

namespace DotPath.Json

/-- A member of an object: the literal of its key, and its value. -/
structure Member where
  key : Occurrence
  value : Occurrence
  deriving DecidableEq, Repr

/--
Where the next item of a container may begin: after space, and after a comma unless it is the first
item. None at the end of the text, at the closing bracket, and where the comma is missing.
-/
def slot? (closing : Char) (first : Bool) (p : Place) : Option Place :=
  let p := p.skipSpace
  match p.rest with
  | [] => none
  | c :: _ =>
    if c == closing then none
    else if first then some p
    else (p.expect? ',').map Place.skipSpace

/-- The member that starts here: a key, a colon and a value, with space between them. -/
def member? (p : Place) : Option (Member × Place) := do
  let (key, p) ← p.literal?
  let p ← p.skipSpace.expect? ':'
  let (value, p) ← p.skipSpace.value?
  return (⟨key, value⟩, p)

theorem length_of_slot? {closing : Char} {first : Bool} {p q : Place}
    (h : slot? closing first p = some q) : q.rest.length ≤ p.rest.length := by
  have hs := p.length_skipSpace_le
  simp only [slot?] at h
  repeat' split at h
  · simp at h
  · simp at h
  · simp only [Option.some.injEq] at h
    exact h ▸ hs
  · simp only [Option.map_eq_some_iff] at h
    obtain ⟨r, hr, rfl⟩ := h
    have := Place.length_of_expect? hr
    have := r.length_skipSpace_le
    omega

theorem length_of_member? {p q : Place} {m : Member} (h : member? p = some (m, q)) :
    q.rest.length < p.rest.length := by
  simp only [member?, Option.bind_eq_bind, Option.pure_def, Option.bind_eq_some_iff,
    Option.some.injEq, Prod.mk.injEq, Prod.exists] at h
  obtain ⟨key, a, ha, b, hb, value, c, hc, _, rfl⟩ := h
  have := Place.length_of_literal? ha
  have := a.length_skipSpace_le
  have := Place.length_of_expect? hb
  have := b.length_skipSpace_le
  have := Place.length_of_value? hc
  omega

/-- The elements found from a place on; `first` tells that none has been found yet. -/
def elementsFrom (first : Bool) (p : Place) : List Occurrence :=
  match _hs : slot? ']' first p with
  | none => []
  | some q =>
    match _hv : q.value? with
    | none => []
    | some (value, next) => value :: elementsFrom false next
termination_by p.rest.length
decreasing_by
  have := length_of_slot? ‹_›
  have := Place.length_of_value? ‹_›
  omega

/-- The members found from a place on; `first` tells that none has been found yet. -/
def membersFrom (first : Bool) (p : Place) : List Member :=
  match _hs : slot? '\x7d' first p with
  | none => []
  | some q =>
    match _hm : member? q with
    | none => []
    | some (m, next) => m :: membersFrom false next
termination_by p.rest.length
decreasing_by
  have := length_of_slot? ‹_›
  have := length_of_member? ‹_›
  omega

/-- Whether the text begins as an array. -/
def opensArray (t : Text) : Bool :=
  t.head? == some '['

/-- Whether the text begins as an object. -/
def opensObject (t : Text) : Bool :=
  t.head? == some '\x7b'

/-- The elements of the array that a text begins with; none for any other text. -/
def elements (t : Text) : List Occurrence :=
  if opensArray t then elementsFrom true ((Place.start t).skip 1) else []

/--
The members of the object that starts at a place; none for any other value. The object is not cut
out first: the scan has the whole text behind the place before it.
-/
def membersAt (p : Place) : List Member :=
  if opensObject p.rest then membersFrom true (p.skip 1) else []

/-- The members of the object that a text begins with; none for any other text. -/
def members (t : Text) : List Member :=
  membersAt (Place.start t)

end DotPath.Json
