import DotPath.Json.Items
import DotPath.Json.Quoted

/-!
# Walks through a document

A walk lists every value of a document, the root first and each value before those inside it, in the
order of the text. With each value it gives the trail of steps that lead to it from the root. A walk
has a depth: values in containers that nest deeper are not listed.
-/

namespace DotPath.Json

/-- One step into a container. -/
inductive Step where
  /-- To the member with this decoded key. -/
  | key (name : Text)
  /-- To the element at this position. -/
  | index (n : Nat)
  deriving DecidableEq, Repr

/-- The steps that lead from the root to a value. -/
abbrev Trail := List Step

/-- A value that a walk lists. -/
structure Visit where
  trail : Trail
  value : Occurrence
  deriving DecidableEq, Repr

/-- An occurrence in a part of a text, as an occurrence in the whole text. -/
def Occurrence.shift (v : Occurrence) (octets : Nat) : Occurrence :=
  { v with offset := octets + v.offset }

/-- The values directly inside a value, each with the step that leads to it. -/
def Occurrence.children (v : Occurrence) : List (Step × Occurrence) :=
  if opensObject v.raw then
    (members v.raw).map fun m => (.key (Quoted.text m.key.raw), m.value.shift v.offset)
  else
    (elements v.raw).mapIdx fun i e => (.index i, e.shift v.offset)

/--
The values of a walk from `v` on, which enters at most `depth` containers, one inside the other.
-/
def walkFrom (depth : Nat) (trail : Trail) (v : Occurrence) : List Visit :=
  match depth with
  | 0 => [⟨trail, v⟩]
  | depth + 1 =>
    ⟨trail, v⟩ :: v.children.flatMap fun (step, child) => walkFrom depth (trail ++ [step]) child

/-- The values of a document, the root being entered whatever the depth. -/
def walk (depth : Nat) (t : Text) : List Visit :=
  match firstValue? t with
  | some root => walkFrom (max depth 1) [] root
  | none => []

end DotPath.Json
