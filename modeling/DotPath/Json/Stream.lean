import DotPath.Json.Place

/-!
# Streams of values

A stream holds several values one after another, usually one per line. Where no value starts, the
rest of the line is passed over.
-/

namespace DotPath.Json

/-- The place after the next newline, if there is one. -/
def nextLine? (p : Place) : Option Place :=
  (p.skipWhile (· != '\n')).expect? '\n'

theorem length_of_nextLine? {p q : Place} (h : nextLine? p = some q) :
    q.rest.length < p.rest.length := by
  have := p.length_skipWhile_le (· != '\n')
  have := Place.length_of_expect? h
  omega

/-- The values of a stream from a place on. -/
def streamFrom (p : Place) : List Occurrence :=
  match _hv : p.skipSpace.value? with
  | some (v, q) => v :: streamFrom q
  | none =>
    match _hn : nextLine? p.skipSpace with
    | some q => streamFrom q
    | none => []
termination_by p.rest.length
decreasing_by
  · have := p.length_skipSpace_le
    have := Place.length_of_value? ‹_›
    omega
  · have := p.length_skipSpace_le
    have := length_of_nextLine? ‹_›
    omega

/-- The values of a stream. -/
def stream (t : Text) : List Occurrence :=
  streamFrom (Place.start t)

end DotPath.Json
