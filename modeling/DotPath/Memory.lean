/-!
# Room for texts

Nearly every text that the program makes is about as long as the texts that it has. Only the filling
that brings a string up to a length is as long as a number says that somebody wrote down. The room
for it is reserved before it is written, and if there is no such room the program aborts.

How much room there is depends on the machine, so it is a parameter. What is known of any machine is
that it has no buffer of more than `Memory.limit` octets.
-/

namespace DotPath

/-- The most octets that a buffer can have. -/
def Memory.limit : Nat :=
  0x7FFFFFFFFFFFFFFF

/-- The room that the program has. -/
structure Memory where
  /-- Whether there is room to write so many octets of a filling. -/
  grants : Nat → Bool
  grants_zero : grants 0 = true
  le_limit : ∀ n, grants n = true → n ≤ Memory.limit

/-- As much room as there can be. -/
def Memory.full : Memory :=
  ⟨fun n => n ≤ limit, by decide, fun _ => of_decide_eq_true⟩

end DotPath
