import DotPath.Proofs.Json.Tree
import DotPath.Proofs.Json.Walk

/-!
# Streams round by round

The scan of a stream goes on in rounds. A round passes over space and then takes a value, or, where
no value starts, the rest of the line. Either way it gets further, so that the scan comes to its end
on every text.

In a stream of well-formed values with space between them each round takes the next value whole. The
space is what makes the difference: it ends a number. So the scan finds all values, each where it
begins, and nothing else.

## Main results

* `streamRounds_eq`: after as many rounds as the text has characters the scan is at its end.
* `streamFrom_document`: a round takes a well-formed value.
-/

namespace DotPath.Json

/-! ## Rounds -/

/--
One round of the scan: the value that it takes, if it takes one, and the place where it goes on. At
the end of the stream there is none.
-/
def streamRound (p : Place) : Option (Option Occurrence × Place) :=
  match p.skipSpace.value? with
  | some (v, q) => some (some v, q)
  | none => (nextLine? p.skipSpace).map (none, ·)

/-- The values that are found in at most `n` rounds, if the scan is at its end then. -/
def streamRounds : Nat → Place → Option (List Occurrence)
  | 0, _ => none
  | n + 1, p =>
    match streamRound p with
    | none => some []
    | some (found, q) => (streamRounds n q).map (found.toList ++ ·)

variable {p q : Place}

/-- The scan goes on after a round with what the round leaves. -/
theorem streamFrom_eq_round (p : Place) :
    streamFrom p = (streamRound p).elim [] fun r => r.1.toList ++ streamFrom r.2 := by
  rw [streamFrom]
  unfold streamRound
  split
  · next hv =>
      rw [hv]
      rfl
  · next hv =>
      rw [hv]
      split
      · next hn =>
          rw [hn]
          rfl
      · next hn =>
          rw [hn]
          rfl

theorem streamFrom_of_round {found : Option Occurrence} (h : streamRound p = some (found, q)) :
    streamFrom p = found.toList ++ streamFrom q := by
  rw [streamFrom_eq_round, h]
  rfl

theorem streamFrom_of_no_round (h : streamRound p = none) : streamFrom p = [] := by
  rw [streamFrom_eq_round, h]
  rfl

/-- A round that takes no value gets further as well. -/
theorem length_of_streamRound {found : Option Occurrence} (h : streamRound p = some (found, q)) :
    q.rest.length < p.rest.length := by
  have hspace := p.length_skipSpace_le
  unfold streamRound at h
  split at h
  · next v r hv =>
      cases h
      have hvalue := Place.length_of_value? hv
      omega
  · obtain ⟨r, hn, heq⟩ := Option.map_eq_some_iff.1 h
    cases heq
    have hline := length_of_nextLine? hn
    omega

/-- The scan comes to its end, whatever the text is, and finds what the stream holds. -/
theorem streamRounds_eq {n : Nat} (h : p.rest.length < n) :
    streamRounds n p = some (streamFrom p) := by
  induction n generalizing p with
  | zero => omega
  | succ n ih =>
      rw [streamRounds]
      cases hround : streamRound p with
      | none => rw [streamFrom_of_no_round hround]
      | some next =>
          obtain ⟨found, q⟩ := next
          have hlength := length_of_streamRound hround
          have hrest : q.rest.length < n := by omega
          rw [streamFrom_of_round hround]
          dsimp only
          rw [ih hrest, Option.map_some]

/-- A round does not depend on how much space is in front. -/
theorem streamFrom_congr (h : p.skipSpace = q.skipSpace) : streamFrom p = streamFrom q := by
  have hround : streamRound p = streamRound q := by
    rw [streamRound, h]
    rfl
  cases hq : streamRound q with
  | none => rw [streamFrom_of_no_round (hround.trans hq), streamFrom_of_no_round hq]
  | some next => rw [streamFrom_of_round (hround.trans hq), streamFrom_of_round hq]

/-- Space in front of a stream makes no difference. -/
theorem streamFrom_append_spaces (k : Nat) (s : Spaces) (t : Text) :
    streamFrom ⟨k, s.1 ++ t⟩ = streamFrom ⟨k + Text.byteLength s.1, t⟩ := by
  obtain ⟨s', ht, hlacks⟩ := exists_spaces t
  refine streamFrom_congr ?_
  have hboth : ∀ c ∈ s.1 ++ s'.1, isSpace c := by
    intro c hc
    rcases List.mem_append.1 hc with hc | hc
    · exact s.2 c hc
    · exact s'.2 c hc
  have hleft := Place.skipSpace_append k ⟨s.1 ++ s'.1, hboth⟩ hlacks
  have hright := Place.skipSpace_append (k + Text.byteLength s.1) s' hlacks
  rw [ht, ← List.append_assoc, hleft, hright, Text.byteLength_append, Nat.add_assoc]

/-! ## Values that follow one another -/

/-- Space that is there ends a number, whatever follows. -/
theorem Spaces.delimited_of_ne_nil (s : Spaces) (hs : s.1 ≠ []) (t : Text) :
    Delimited (s.1 ++ t) := by
  obtain ⟨c, u, hc⟩ := List.exists_cons_of_ne_nil hs
  have hspace : isSpace c := s.2 c (by rw [hc]; exact List.mem_cons_self)
  rw [hc]
  rcases eq_of_isSpace hspace with rfl | rfl | rfl | rfl
  · exact lacks_cons rfl
  · exact lacks_cons rfl
  · exact lacks_cons rfl
  · exact lacks_cons rfl

/-- A round takes the value of a document whole, if what follows does not run on. -/
theorem streamFrom_document (k : Nat) (d : Document) {rest : Text}
    (hrest : Delimited (d.after.1 ++ rest)) :
    streamFrom ⟨k, d.source ++ rest⟩ =
      ⟨d.root.kind, k + Text.byteLength d.before.1, d.root.source⟩ ::
        streamFrom ⟨k + Text.byteLength d.source, rest⟩ := by
  have hsource : d.source ++ rest = d.before.1 ++ (d.root.source ++ (d.after.1 ++ rest)) := by
    rw [Document.source, List.append_assoc, List.append_assoc]
  have hskip := Place.skipSpace_append k d.before (d.root.fills.lacks_space (d.after.1 ++ rest))
  have hvalue := Place.value?_append (k + Text.byteLength d.before.1) d.root.fills hrest
  have hlength : Text.byteLength d.before.1 + Text.byteLength d.root.source +
      Text.byteLength d.after.1 = Text.byteLength d.source := by
    rw [Document.source, Text.byteLength_append, Text.byteLength_append, Nat.add_assoc]
  rw [← hskip] at hvalue
  rw [hsource, streamFrom_of_value hvalue, streamFrom_append_spaces, ← hlength]
  simp only [Nat.add_assoc]

theorem streamFrom_nil (k : Nat) : streamFrom ⟨k, []⟩ = [] :=
  streamFrom_of_no_round rfl

/-- A document is a stream of one value, its root. -/
theorem Document.stream_source (d : Document) :
    stream d.source = [⟨d.root.kind, Text.byteLength d.before.1, d.root.source⟩] := by
  have hround := streamFrom_document 0 d (d.after.delimited (lacks_nil extendsNumber))
  rw [List.append_nil, streamFrom_nil, Nat.zero_add] at hround
  exact hround

/-- Values as they follow one another, each with the space behind it. -/
def valuesSource : List (Text × Spaces) → Text
  | [] => []
  | (value, gap) :: rest => value ++ (gap.1 ++ valuesSource rest)

/-- A stream: values as they follow one another, with space in front. -/
def streamSource (before : Spaces) (values : List (Text × Spaces)) : Text :=
  before.1 ++ valuesSource values

/-- The values again, each with the octets that stand before it; `k` octets stand before all. -/
def starts (k : Nat) : List (Text × Spaces) → List (Nat × Text)
  | [] => []
  | (value, gap) :: rest =>
    (k, value) :: starts (k + Text.byteLength value + Text.byteLength gap.1) rest

/-- Where values stand has no part in what is made of the values themselves. -/
theorem map_starts {β : Type} (f : Text → β) (k : Nat) (values : List (Text × Spaces)) :
    (starts k values).map (fun e => f e.2) = values.map fun e => f e.1 := by
  induction values generalizing k with
  | nil => rfl
  | cons e rest ih =>
      obtain ⟨value, gap⟩ := e
      rw [starts, List.map_cons, ih, List.map_cons]

/-- Every value stands where it is said to start. -/
theorem standsAt_of_mem_starts {before : Text} {values : List (Text × Spaces)} {k : Nat}
    {value : Text} (h : (k, value) ∈ starts (Text.byteLength before) values) :
    StandsAt (before ++ valuesSource values) value k := by
  induction values generalizing before with
  | nil => cases h
  | cons e rest ih =>
      obtain ⟨v, gap⟩ := e
      rcases List.mem_cons.1 h with heq | h
      · cases heq
        exact ⟨before, gap.1 ++ valuesSource rest, rfl, rfl⟩
      · have hbefore : Text.byteLength before + Text.byteLength v + Text.byteLength gap.1 =
            Text.byteLength (before ++ (v ++ gap.1)) := by
          rw [Text.byteLength_append, Text.byteLength_append, Nat.add_assoc]
        rw [hbefore] at h
        have hstands := ih h
        rw [List.append_assoc, List.append_assoc] at hstands
        exact hstands

end DotPath.Json
