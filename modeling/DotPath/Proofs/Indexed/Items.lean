import DotPath.Proofs.Indexed.Scan
import DotPath.Proofs.Json.Slice
import DotPath.Proofs.Json.Walk

/-!
# Items, streams and walks by index

The scans for the elements of an array, the members of an object and the values of a stream, and the
walk through a document, on the octets of a text. Items are reported by their indices, also those
inside other items: the octets are always those of the whole text. The walk keeps the items that are
still to be visited in a stack of frames, one for each container that it is in.

The items of a container are listed at once here, while a reader may stop at one of them. So what is
read here includes all that such a reader reads.

## Main results

* `nextElement`, `nextMember`: one step through a container, for lists of items and for frames.
* `elements_eq`, `members_eq`, `stream_eq`: the items of a text, and the values of a stream.
* `slice_of`: the indices of what has been found in a text give its part of the text.
* `walk_eq`: the walk with frames visits what the walk by recursion visits.
-/

namespace DotPath.Indexed

open Json

/-! ## The scans -/

/-- The index where the next item of a container may begin. -/
def slot (data : Text) (closing : Char) (first : Bool) (pos : Nat) : Part (Option Nat) := do
  let x ← skipSpace data pos
  match data[x]? with
  | none => return none
  | some c =>
    if c == closing then return none
    else if first then return some x
    else if c == ',' then return some (← skipSpace data (x + 1))
    else return none

/-- One step through an array, with the elements that have been found. -/
def elementRound (data : Text) :
    Bool × Nat × List Span → Part (List Span ⊕ Bool × Nat × List Span)
  | (first, pos, found) => do
    match ← slot data ']' first pos with
    | none => return .inl found
    | some x =>
      match ← locate data x with
      | none => return .inl found
      | some value => return .inr (false, value.stop, found ++ [value])

/-- The elements of the array that starts at an index. -/
def elements (data : Text) (start : Nat) : Part (List Span) :=
  if data[start]? == some '[' then loop (elementRound data) (true, start + 1, []) else pure []

/-- The key and the value of the member that starts at an index. -/
def member (data : Text) (x : Nat) : Part (Option (Span × Span)) := do
  if data[x]? == some '"' then
    match ← scanString data x with
    | none => return none
    | some stop =>
      let colon ← skipSpace data stop
      if data[colon]? == some ':' then
        let start ← skipSpace data (colon + 1)
        return (← locate data start).map (⟨.string, x, stop⟩, ·)
      else return none
  else return none

/-- One step through an object, with the members that have been found. -/
def memberRound (data : Text) : Bool × Nat × List (Span × Span) →
    Part (List (Span × Span) ⊕ Bool × Nat × List (Span × Span))
  | (first, pos, found) => do
    match ← slot data '\x7d' first pos with
    | none => return .inl found
    | some x =>
      match ← member data x with
      | none => return .inl found
      | some m => return .inr (false, m.2.stop, found ++ [m])

/-- The members of the object that starts at an index. -/
def members (data : Text) (start : Nat) : Part (List (Span × Span)) :=
  if data[start]? == some '\x7b' then loop (memberRound data) (true, start + 1, []) else pure []

/-- One step through a stream: a value, or the rest of a line that holds none. -/
def streamRound (data : Text) : Nat × List Span → Part (List Span ⊕ Nat × List Span)
  | (x, found) => do
    if x < data.length then
      match ← locate data x with
      | some value => return .inr (← skipSpace data value.stop, found ++ [value])
      | none =>
        let ahead ← octetsFrom data x
        match ahead.findIdx? (· == '\n') with
        | some n => return .inr (← skipSpace data (x + n + 1), found)
        | none => return .inl found
    else return .inl found

/-- The values of a stream. -/
def stream (data : Text) : Part (List Span) := do
  loop (streamRound data) (← skipSpace data 0, [])

/-- The text between the quotes of a literal. -/
def stringBody (literal : Text) : Part Text :=
  if Text.byteLength literal ≥ 2 then slice literal 1 (Text.byteLength literal - 1) else pure []

/-- The text that a literal stands for. -/
def stringText (literal : Text) : Part Text := do
  return Quoted.unescape (← stringBody literal)

/-- The items of the container at a span, each with the step that leads to it. -/
def openFrame (src : Text) (span : Span) : Part (Option (List (Step × Span))) :=
  match src.asOctets[span.start]? with
  | none => pure none
  | some c =>
    if c == '\x7b' then do
      let found ← members src.asOctets span.start
      return some (← found.mapM fun (key, value) => do
        return (.key (← stringText (← slice src key.start key.stop)), value))
    else if c == '[' then do
      let found ← elements src.asOctets span.start
      return some (found.mapIdx fun i value => (.index i, value))
    else pure none

/-- One step of a walk: its frames, the trail to the innermost one, and what has been visited. -/
def walkRound (src : Text) (depth : Nat) :
    List (List (Step × Span)) × Trail × List (Trail × Span) →
      Part (List (Trail × Span) ⊕ List (List (Step × Span)) × Trail × List (Trail × Span))
  | ([], _, visited) => pure (.inl visited)
  | ([] :: frames, trail, visited) => pure (.inr (frames, trail.dropLast, visited))
  | (((step, value) :: items) :: frames, trail, visited) => do
    let inside := trail ++ [step]
    let visited := visited ++ [(inside, value)]
    match ← openFrame src value with
    | none => return .inr (items :: frames, inside.dropLast, visited)
    | some frame =>
      if (items :: frames).length ≥ depth then
        return .inr (items :: frames, inside.dropLast, visited)
      else return .inr (frame :: items :: frames, inside, visited)

/-- The values of a document with the trails that lead to them. -/
def walk (src : Text) (depth : Nat) : Part (List (Trail × Span)) := do
  match ← locate src.asOctets (← skipSpace src.asOctets 0) with
  | none => return []
  | some root =>
    let frame ← openFrame src root
    loop (walkRound src depth) (frame.toList, [], [([], root)])

/-! ## What the scans find -/

section Found

variable {data : Text} {p : Place}

theorem ends_skipSpace (h : Ends data p.offset p.rest) :
    Ends data p.skipSpace.offset p.skipSpace.rest :=
  ends_skip h rfl

/-- A mark that is expected at a place. -/
theorem expect_ends (h : Ends data p.offset p.rest) {c : Char} (hc : c.toNat < 0x80) :
    (data[p.offset]? == some c) = (p.expect? c).isSome ∧
      ∀ q, p.expect? c = some q → q.offset = p.offset + 1 ∧ Ends data q.offset q.rest := by
  rw [h.beq_getElem? hc, Place.expect?]
  by_cases hhead : p.rest.head? = some c
  · rw [if_pos hhead, hhead]
    refine ⟨beq_self_eq_true _, ?_⟩
    rintro q ⟨⟩
    obtain ⟨t, hp⟩ := List.head?_eq_some_iff.1 hhead
    obtain ⟨hnext, hrest⟩ := offset_skip_succ (n := 0) hp
    refine ⟨?_, ends_skip h rfl⟩
    rw [utf8Size_of_lt hc] at hnext
    exact hnext
  · rw [if_neg hhead, beq_false_of_ne hhead]
    exact ⟨rfl, by rintro _ ⟨⟩⟩

/-- The place where the next item may begin. -/
theorem slot_eq (h : Ends data p.offset p.rest) (closing : Char) (hclosing : closing.toNat < 0x80)
    (first : Bool) :
    slot data closing first p.offset = .some ((slot? closing first p).map (·.offset)) ∧
      ∀ q, slot? closing first p = some q → Ends data q.offset q.rest := by
  have hspace := ends_skipSpace h
  rw [slot, slot?, skipSpace_place h, some_bind]
  generalize p.skipSpace = r at hspace
  have hcomma := expect_ends hspace (c := ',') (by decide)
  obtain ⟨i, t⟩ := r
  cases t with
  | nil =>
      rw [hspace.getElem?_nil]
      exact ⟨rfl, by rintro _ ⟨⟩⟩
  | cons c t =>
      obtain ⟨o, ho, hclass⟩ := hspace.holds.exists_octet
      have hbeq : (o == closing) = (c == closing) := hclass (isLow_beq hclosing)
      rw [ho] at hcomma
      obtain ⟨hexpect, hafter⟩ := hcomma
      rw [ho]
      dsimp only
      rw [hbeq]
      split
      · exact ⟨rfl, by rintro _ ⟨⟩⟩
      · split
        · refine ⟨rfl, ?_⟩
          rintro q ⟨⟩
          exact hspace
        · cases hq : Place.expect? ',' ⟨i, c :: t⟩ with
          | none =>
              rw [hq] at hexpect
              have hother : (o == ',') = false := hexpect
              rw [hother]
              exact ⟨rfl, by rintro _ ⟨⟩⟩
          | some q =>
              rw [hq] at hexpect
              have hmark : (o == ',') = true := hexpect
              obtain ⟨hindex, hends⟩ := hafter q hq
              rw [if_pos hmark, ← hindex, skipSpace_place hends, some_bind]
              refine ⟨rfl, ?_⟩
              rintro r ⟨⟩
              exact ends_skipSpace hends

/-- What is read where the next item of a container may begin. -/
def nextItem {α : Type} (data : Text) (closing : Char) (read : Nat → Part (Option α)) (first : Bool)
    (pos : Nat) : Part (Option α) := do
  match ← slot data closing first pos with
  | none => return none
  | some x => read x

/-- A step that looks for a slot, and that goes on in the same way if nothing is read there. -/
theorem slot_bind {α β : Type} {closing : Char} {read : Nat → Part (Option α)} {first : Bool}
    {pos : Nat} {step : Option Nat → Part β} {next : Option α → Part β}
    (hnone : step none = next none) (hsome : ∀ x, step (some x) = read x >>= next) :
    slot data closing first pos >>= step = nextItem data closing read first pos >>= next := by
  rw [nextItem, bind_assoc]
  refine congrArg _ (funext fun x => ?_)
  cases x with
  | none => exact hnone.trans (some_bind _ _).symm
  | some x => exact hsome x

theorem nextItem_of_no_slot {α : Type} (read : Nat → Part (Option α)) {closing : Char}
    (hclosing : closing.toNat < 0x80) {first : Bool} (h : Ends data p.offset p.rest)
    (hs : slot? closing first p = none) :
    nextItem data closing read first p.offset = .some none := by
  have hslot := (slot_eq h closing hclosing first).1
  rw [hs] at hslot
  rw [nextItem, hslot]
  exact some_bind _ _

theorem nextItem_of_slot {α : Type} (read : Nat → Part (Option α)) {closing : Char}
    (hclosing : closing.toNat < 0x80) {first : Bool} (h : Ends data p.offset p.rest) {q : Place}
    (hs : slot? closing first p = some q) :
    nextItem data closing read first p.offset = read q.offset ∧ Ends data q.offset q.rest := by
  obtain ⟨hslot, hends⟩ := slot_eq h closing hclosing first
  rw [hs] at hslot
  refine ⟨?_, hends q hs⟩
  rw [nextItem, hslot]
  exact some_bind _ _

/-- The next element of an array and the place behind it, if there is one. -/
theorem nextElement (h : Ends data p.offset p.rest) (first : Bool) :
    (elementsFrom first p = [] ∧ nextItem data ']' (locate data) first p.offset = .some none) ∨
      ∃ v next, elementsFrom first p = v :: elementsFrom false next ∧
        nextItem data ']' (locate data) first p.offset = .some (some (.of v)) ∧
        (Span.of v).stop = next.offset ∧ Ends data next.offset next.rest := by
  cases hs : slot? ']' first p with
  | none => exact .inl ⟨elementsFrom_of_no_slot hs, nextItem_of_no_slot _ (by decide) h hs⟩
  | some q =>
      obtain ⟨hitem, hends⟩ := nextItem_of_slot (locate data) (by decide) h hs
      have hlocate := locate_eq hends
      cases hv : q.value? with
      | none =>
          rw [hv] at hlocate
          exact .inl ⟨elementsFrom_of_no_value hs hv, hitem.trans hlocate⟩
      | some r =>
          obtain ⟨v, next⟩ := r
          rw [hv] at hlocate
          exact .inr ⟨v, next, elementsFrom_of_slot hs hv, hitem.trans hlocate,
            stop_of_value? hv, ends_of_value? hends hv⟩

theorem elementRound_of_nextItem {first : Bool} {pos : Nat} {r : Option Span}
    (h : nextItem data ']' (locate data) first pos = .some r) (found : List Span) :
    elementRound data (first, pos, found) =
      .some (r.elim (.inl found) fun v => .inr (false, v.stop, found ++ [v])) := by
  have hround : elementRound data (first, pos, found) =
      nextItem data ']' (locate data) first pos >>= fun r =>
        .some (r.elim (.inl found) fun v => .inr (false, v.stop, found ++ [v])) :=
    slot_bind rfl fun x => congrArg (locate data x >>= ·) (funext fun r => by cases r <;> rfl)
  rw [hround, h]
  exact some_bind _ _

/-- The elements from a place on. -/
theorem elementsFrom_eq {p : Place} (h : Ends data p.offset p.rest) (first : Bool)
    (found : List Span) :
    loop (elementRound data) (first, p.offset, found) =
      .some (found ++ (elementsFrom first p).map .of) := by
  rcases nextElement h first with ⟨hnil, hitem⟩ | ⟨v, next, hcons, hitem, hstop, hends⟩
  · rw [hnil, List.map_nil, List.append_nil]
    exact loop_break (elementRound_of_nextItem hitem found)
  · have hround := elementRound_of_nextItem hitem found
    rw [Option.elim_some, hstop] at hround
    rw [loop_next hround, elementsFrom_eq hends, hcons, List.append_assoc]
    rfl
termination_by (elementsFrom first p).length
decreasing_by
  rw [hcons]
  exact Nat.lt_succ_self _

/-- The elements of the array that starts at a place; none for any other value. -/
theorem elements_place (h : Ends data p.offset p.rest) :
    elements data p.offset = .some
      ((if opensArray p.rest then elementsFrom true (p.skip 1) else []).map .of) := by
  rw [elements, h.beq_getElem? (by decide)]
  by_cases hhead : (p.rest.head? == some '[') = true
  · obtain ⟨t, hp⟩ := List.head?_eq_some_iff.1 (beq_iff_eq.1 hhead)
    obtain ⟨hnext, hrest⟩ := offset_skip_succ (n := 0) hp
    have hindex : (p.skip 1).offset = p.offset + 1 := hnext
    rw [if_pos hhead, opensArray, if_pos hhead, ← hindex, elementsFrom_eq (ends_skip h rfl)]
    rfl
  · rw [if_neg hhead, opensArray, if_neg hhead]
    rfl

/-- The member that starts at a place. -/
theorem member_eq (h : Ends data p.offset p.rest) :
    member data p.offset =
      .some ((member? p).map fun r => (.of r.1.key, .of r.1.value)) ∧
        ∀ m q, member? p = some (m, q) →
          (Span.of m.value).stop = q.offset ∧ Ends data q.offset q.rest := by
  rw [member, h.beq_getElem? (by decide), member?]
  by_cases hhead : (p.rest.head? == some '"') = true
  · obtain ⟨t, hp⟩ := List.head?_eq_some_iff.1 (beq_iff_eq.1 hhead)
    rw [if_pos hhead, scanString_literal h hp, some_bind]
    cases hkey : p.literal? with
    | none => exact ⟨rfl, by rintro _ _ ⟨⟩⟩
    | some r =>
        obtain ⟨key, q⟩ := r
        have hq := ends_of_literal? h hkey
        obtain ⟨hcolon, hafter⟩ := expect_ends (ends_skipSpace hq) (c := ':') (by decide)
        dsimp only [Option.map_some, Option.bind_eq_bind, Option.bind_some]
        rw [skipSpace_place hq, some_bind, hcolon]
        cases hexpect : q.skipSpace.expect? ':' with
        | none => exact ⟨rfl, by rintro _ _ ⟨⟩⟩
        | some r =>
            obtain ⟨hindex, hr⟩ := hafter r hexpect
            rw [Option.isSome_some, if_pos rfl, ← hindex, skipSpace_place hr, some_bind,
              locate_eq (ends_skipSpace hr), some_bind, Option.bind_some, ← of_literal? hkey]
            cases hvalue : r.skipSpace.value? with
            | none => exact ⟨rfl, by rintro _ _ ⟨⟩⟩
            | some w =>
                obtain ⟨value, next⟩ := w
                refine ⟨rfl, ?_⟩
                rintro m n ⟨⟩
                exact ⟨stop_of_value? hvalue, ends_of_value? (ends_skipSpace hr) hvalue⟩
  · have hliteral : p.literal? = none := by
      rw [Place.literal?_eq, if_neg fun h => hhead (beq_iff_eq.2 h)]
    rw [if_neg hhead, hliteral]
    exact ⟨rfl, by rintro _ _ ⟨⟩⟩

/-- The indices of a member's key and value. -/
def spans (m : Member) : Span × Span :=
  (.of m.key, .of m.value)

/-- The next member of an object and the place behind it, if there is one. -/
theorem nextMember (h : Ends data p.offset p.rest) (first : Bool) :
    (membersFrom first p = [] ∧ nextItem data '\x7d' (member data) first p.offset = .some none) ∨
      ∃ q m next, slot? '\x7d' first p = some q ∧ member? q = some (m, next) ∧
        membersFrom first p = m :: membersFrom false next ∧
        nextItem data '\x7d' (member data) first p.offset = .some (some (spans m)) ∧
        (Span.of m.value).stop = next.offset ∧ Ends data next.offset next.rest := by
  cases hs : slot? '\x7d' first p with
  | none => exact .inl ⟨membersFrom_of_no_slot hs, nextItem_of_no_slot _ (by decide) h hs⟩
  | some q =>
      obtain ⟨hitem, hends⟩ := nextItem_of_slot (member data) (by decide) h hs
      obtain ⟨hmember, hafter⟩ := member_eq hends
      cases hm : member? q with
      | none =>
          rw [hm] at hmember
          exact .inl ⟨membersFrom_of_no_member hs hm, hitem.trans hmember⟩
      | some r =>
          obtain ⟨m, next⟩ := r
          rw [hm] at hmember
          exact .inr ⟨q, m, next, rfl, hm, membersFrom_of_slot hs hm, hitem.trans hmember,
            hafter m next hm⟩

theorem memberRound_of_nextItem {first : Bool} {pos : Nat} {r : Option (Span × Span)}
    (h : nextItem data '\x7d' (member data) first pos = .some r) (found : List (Span × Span)) :
    memberRound data (first, pos, found) =
      .some (r.elim (.inl found) fun m => .inr (false, m.2.stop, found ++ [m])) := by
  have hround : memberRound data (first, pos, found) =
      nextItem data '\x7d' (member data) first pos >>= fun r =>
        .some (r.elim (.inl found) fun m => .inr (false, m.2.stop, found ++ [m])) :=
    slot_bind rfl fun x => congrArg (member data x >>= ·) (funext fun r => by cases r <;> rfl)
  rw [hround, h]
  exact some_bind _ _

/-- The members from a place on. -/
theorem membersFrom_eq {p : Place} (h : Ends data p.offset p.rest) (first : Bool)
    (found : List (Span × Span)) :
    loop (memberRound data) (first, p.offset, found) =
      .some (found ++ (membersFrom first p).map spans) := by
  rcases nextMember h first with ⟨hnil, hitem⟩ | ⟨q, m, next, -, -, hcons, hitem, hstop, hends⟩
  · rw [hnil, List.map_nil, List.append_nil]
    exact loop_break (memberRound_of_nextItem hitem found)
  · have hround := memberRound_of_nextItem hitem found
    rw [Option.elim_some, spans, hstop] at hround
    rw [loop_next hround, membersFrom_eq hends, hcons, List.append_assoc]
    rfl
termination_by (membersFrom first p).length
decreasing_by
  rw [hcons]
  exact Nat.lt_succ_self _

/-- The members of the object that starts at a place; none for any other value. -/
theorem members_place (h : Ends data p.offset p.rest) :
    members data p.offset = .some ((membersAt p).map spans) := by
  rw [members, h.beq_getElem? (by decide), membersAt, opensObject]
  by_cases hhead : (p.rest.head? == some '\x7b') = true
  · obtain ⟨t, hp⟩ := List.head?_eq_some_iff.1 (beq_iff_eq.1 hhead)
    obtain ⟨hnext, hrest⟩ := offset_skip_succ (n := 0) hp
    have hindex : (p.skip 1).offset = p.offset + 1 := hnext
    rw [if_pos hhead, if_pos hhead, ← hindex, membersFrom_eq (ends_skip h rfl)]
    rfl
  · rw [if_neg hhead, if_neg hhead]
    rfl

/-- The next newline is searched for among the octets. -/
theorem findIdx?_newline (i : Nat) (t : Text) :
    (t.asOctets.findIdx? (· == '\n')).map (i + · + 1) = (nextLine? ⟨i, t⟩).map (·.offset) := by
  induction t generalizing i with
  | nil => rfl
  | cons d t ih =>
      by_cases hd : d = '\n'
      · subst hd
        rw [Text.asOctets_cons_ascii (by decide), List.findIdx?_cons]
        rfl
      · have hline : nextLine? ⟨i, d :: t⟩ = nextLine? ⟨i + d.utf8Size, t⟩ := by
          have hne : (d != '\n') = true := bne_iff_ne.2 hd
          simp only [nextLine?, Place.skipWhile, Place.skip, List.takeWhile_cons, hne, if_true,
            List.length_cons, List.take_succ_cons, List.drop_succ_cons, Text.byteLength_cons,
            Nat.add_assoc]
        have hnone : (Text.asOctets [d]).findIdx? (· == '\n') = none := by
          rw [List.findIdx?_eq_none_iff]
          intro o ho
          refine beq_false_of_ne ?_
          by_cases hlow : d.toNat < 0x80
          · rw [Text.asOctets_cons_ascii hlow, Text.asOctets_nil, List.mem_singleton] at ho
            rwa [ho]
          · exact ne_of_high
              (Text.le_of_mem_asOctets_singleton (Nat.le_of_not_lt hlow) ho) (by decide)
        rw [hline, ← ih, ← List.singleton_append, Text.asOctets_append, List.findIdx?_append,
          hnone, Text.length_asOctets, Option.none_or, Option.map_map]
        congr 1
        funext k
        show i + (k + (d.utf8Size + 0)) + 1 = i + d.utf8Size + k + 1
        omega

theorem ends_of_nextLine? (h : Ends data p.offset p.rest) {q : Place} (hq : nextLine? p = some q) :
    Ends data q.offset q.rest :=
  have hline : Ends data (p.skipWhile (· != '\n')).offset (p.skipWhile (· != '\n')).rest :=
    ends_skip h rfl
  ((expect_ends hline (by decide)).2 q hq).2

/-- A step from a place that holds no value: to the line after the next newline. -/
theorem streamRound_newline (h : Ends data p.offset p.rest) (hp : p.rest ≠ [])
    (hvalue : p.value? = none) (found : List Span) :
    streamRound data (p.offset, found) =
      .some ((nextLine? p).elim (.inl found) fun q => .inr (q.skipSpace.offset, found)) := by
  have hahead : octetsFrom data p.offset = .some p.rest.asOctets := by
    obtain ⟨before, rfl, hbefore⟩ := h
    rw [octetsFrom, ← hbefore, Part.assert_pos (by simp), List.drop_left]
  have hfind := findIdx?_newline p.offset p.rest
  rw [streamRound, if_pos (h.lt hp), locate_eq h, hvalue, some_bind]
  dsimp only [Option.map_none]
  rw [hahead, some_bind]
  cases hline : nextLine? p with
  | none =>
      have hnone : p.rest.asOctets.findIdx? (· == '\n') = none := by
        have hline : nextLine? ⟨p.offset, p.rest⟩ = none := hline
        rwa [hline, Option.map_none, Option.map_eq_none_iff] at hfind
      rw [hnone]
      rfl
  | some q =>
      have hline' : nextLine? ⟨p.offset, p.rest⟩ = some q := hline
      rw [hline', Option.map_some] at hfind
      obtain ⟨n, hn, hindex⟩ := Option.map_eq_some_iff.1 hfind
      rw [hn]
      dsimp only
      rw [hindex, skipSpace_place (ends_of_nextLine? h hline)]
      exact some_bind _ _

/-- The values of a stream from a place on, the space in front being passed over. -/
theorem streamFrom_eq (h : Ends data p.offset p.rest) (found : List Span) :
    loop (streamRound data) (p.skipSpace.offset, found) =
      .some (found ++ (streamFrom p).map .of) := by
  fun_induction streamFrom p generalizing found with
  | case1 p v q hv ih =>
      have hspace := ends_skipSpace h
      have hq := ends_of_value? hspace hv
      have hne := List.ne_nil_of_length_pos (Nat.zero_lt_of_lt (Place.length_of_value? hv))
      have hround : streamRound data (p.skipSpace.offset, found) =
          .some (.inr (q.skipSpace.offset, found ++ [.of v])) := by
        rw [streamRound, if_pos (hspace.lt hne), locate_eq hspace, hv, some_bind]
        dsimp only [Option.map_some]
        rw [stop_of_value? hv, skipSpace_place hq]
        exact some_bind _ _
      rw [loop_next hround, ih hq, List.append_assoc]
      rfl
  | case2 p hv q hn ih =>
      have hspace := ends_skipSpace h
      have hne := List.ne_nil_of_length_pos (Nat.zero_lt_of_lt (length_of_nextLine? hn))
      have hround := streamRound_newline hspace hne hv found
      rw [hn] at hround
      rw [loop_next hround, ih (ends_of_nextLine? hspace hn)]
  | case3 p hv hn =>
      have hspace := ends_skipSpace h
      rw [List.map_nil, List.append_nil]
      by_cases hnil : p.skipSpace.rest = []
      · rw [hnil] at hspace
        exact loop_break (if_neg (Nat.not_lt.2 (Nat.le_of_eq hspace.length_eq)))
      · have hround := streamRound_newline hspace hnil hv found
        rw [hn] at hround
        exact loop_break hround

end Found

/-- The elements of a text. -/
theorem elements_eq (t : Text) : elements t.asOctets 0 = .some ((Json.elements t).map .of) :=
  elements_place (p := Place.start t) (ends_start t)

/-- The members of a text. -/
theorem members_eq (t : Text) : members t.asOctets 0 = .some ((Json.members t).map spans) :=
  members_place (p := Place.start t) (ends_start t)

/-- The values of a stream. -/
theorem stream_eq (t : Text) : stream t.asOctets = .some ((Json.stream t).map .of) := by
  have hends := ends_start t
  have hspace : skipSpace t.asOctets 0 = .some (Place.start t).skipSpace.offset :=
    skipSpace_place hends
  rw [stream, hspace, some_bind, streamFrom_eq hends]
  rfl

/-! ## What stands between the indices -/

theorem slice_of {t : Text} {v : Occurrence} (h : StandsAt t v.raw v.offset) :
    slice t (Span.of v).start (Span.of v).stop = .some v.raw :=
  slice_eq_some_iff.2 ⟨h, rfl⟩

/-- The key of a member that is found is a string that stands in the text at its offset. -/
theorem key_of_mem_membersFrom {t : Text} {first : Bool} {p : Place} {m : Member}
    (hp : p.LiesIn t) (hm : m ∈ membersFrom first p) : m.key.IsIn t ∧ m.key.kind = .string := by
  fun_induction membersFrom first p with
  | case1 => cases hm
  | case2 => cases hm
  | case3 first p q hs n next hn ih =>
      have hq := liesIn_of_slot? hp hs
      rcases List.mem_cons.1 hm with rfl | hm
      · simp only [member?, Option.bind_eq_bind, Option.bind_eq_some_iff, Prod.exists] at hn
        obtain ⟨key, r, hkey, hn⟩ := hn
        obtain ⟨s, -, value, r', -, heq⟩ := hn
        cases heq
        have hkind := kind_of_literal? hkey
        exact ⟨⟨(hq.literal? hkey).1, hkind ▸ (Place.eq_of_literal? hkey).1⟩, hkind⟩
      · exact ih (isIn_of_member? hq hn).2 hm

theorem key_of_mem_membersAt {t : Text} {p : Place} {m : Member} (hp : p.LiesIn t)
    (hm : m ∈ membersAt p) : m.key.IsIn t ∧ m.key.kind = .string := by
  unfold membersAt at hm
  split at hm
  · exact key_of_mem_membersFrom (hp.skip 1) hm
  · cases hm

theorem key_of_mem_members {t : Text} {m : Member} (hm : m ∈ Json.members t) :
    m.key.IsIn t ∧ m.key.kind = .string :=
  key_of_mem_membersAt (Place.start_liesIn t) hm

/-- The text between the quotes, both of which are single octets. -/
theorem stringBody_eq {literal : Text} (h : Fills .string literal) :
    stringBody literal = .some (Quoted.body literal) := by
  generalize hk : Kind.string = kind at h
  cases h with
  | @string body hb =>
      have hbody : Quoted.body ('"' :: (body ++ ['"'])) = body := by
        simp [Quoted.body]
      have hlength : Text.byteLength ('"' :: (body ++ ['"'])) = 1 + (Text.byteLength body + 1) := by
        rw [Text.byteLength_cons, Text.byteLength_append]
        rfl
      rw [stringBody, if_pos (by omega), hbody, slice_eq_some_iff]
      exact ⟨⟨['"'], ['"'], rfl, rfl⟩, by omega⟩
  | number hn => cases hk
  | container => cases hk
  | trueWord => cases hk
  | falseWord => cases hk
  | nullWord => cases hk

theorem stringText_eq {literal : Text} (h : Fills .string literal) :
    stringText literal = .some (Quoted.text literal) := by
  rw [stringText, stringBody_eq h]
  exact some_bind _ _

/-! ## Walks -/

theorem ends_of_standsAt {t raw : Text} {i : Nat} (h : StandsAt t raw i) :
    ∃ after, Ends t.asOctets i (raw ++ after) ∧ Place.LiesIn t ⟨i, raw ++ after⟩ := by
  obtain ⟨before, after, rfl, rfl⟩ := h
  exact ⟨after, ⟨before.asOctets, by rw [Text.asOctets_append], Text.length_asOctets before⟩,
    before, rfl, rfl⟩

/-- A value that opens a container is one. -/
theorem kind_of_isOpening {kind : Kind} {c : Char} {run : Text} (h : Fills kind (c :: run))
    (hc : isOpening c = true) : kind = .container := by
  generalize hraw : c :: run = raw at h
  cases h with
  | container _ _ => rfl
  | string _ =>
      cases hraw
      cases hc
  | trueWord =>
      cases hraw
      cases hc
  | falseWord =>
      cases hraw
      cases hc
  | nullWord =>
      cases hraw
      cases hc
  | number hn =>
      obtain ⟨d, s, rfl, hd⟩ := hn.head
      cases hraw
      rcases hd with rfl | hd
      · cases hc
      · simp [isOpening, ne_of_isDigit hd] at hc

/-- Its bracket is closed. -/
theorem closes_of_isOpening {kind : Kind} {c : Char} {run : Text} (h : Fills kind (c :: run))
    (hc : isOpening c = true) : Closes 1 .plain run := by
  obtain rfl := kind_of_isOpening h hc
  cases h with
  | container _ hrun => exact hrun

/-- The elements of an array are the same in the whole text and in its own part of it. -/
theorem elementsFrom_part {run : Text} (h : Closes 1 .plain run) (i : Nat) (after : Text) :
    elementsFrom true (Place.skip ⟨i, '[' :: run ++ after⟩ 1) =
      (Json.elements ('[' :: run)).map (·.shift i) :=
  elementsFrom_embed (p := ⟨1, run⟩) h i after

theorem membersFrom_part {run : Text} (h : Closes 1 .plain run) (i : Nat) (after : Text) :
    membersFrom true (Place.skip ⟨i, '\x7b' :: run ++ after⟩ 1) =
      (Json.members ('\x7b' :: run)).map (·.shift i) :=
  membersFrom_embed (p := ⟨1, run⟩) h i after

section Containers

variable {src : Text} {v : Occurrence}

/-- A value begins with a bracket as an octet if it does as a character. -/
theorem exists_octet_of_isIn (h : v.IsIn src) :
    ∃ o, src.asOctets[v.offset]? = some o ∧ (o == '\x7b') = opensObject v.raw ∧
      (o == '[') = opensArray v.raw := by
  obtain ⟨kind, i, raw⟩ := v
  obtain ⟨hstands, hfills⟩ := h
  obtain ⟨after, hends, -⟩ := ends_of_standsAt hstands
  obtain ⟨c, run, hraw, -⟩ := hfills.head
  dsimp only at hraw hends
  subst hraw
  obtain ⟨o, ho, hclass⟩ := hends.holds.exists_octet
  exact ⟨o, ho, (hclass (isLow_beq (by decide))).trans (by simp [opensObject]),
    (hclass (isLow_beq (by decide))).trans (by simp [opensArray])⟩

/-- Behind the bracket of an array in a text, its elements are those of its own part of the text. -/
theorem exists_place_elements (h : v.IsIn src) (harray : opensArray v.raw = true) :
    ∃ p : Place, p.offset = v.offset + 1 ∧ Ends src.asOctets p.offset p.rest ∧
      elementsFrom true p = (Json.elements v.raw).map (·.shift v.offset) := by
  obtain ⟨kind, i, raw⟩ := v
  obtain ⟨hstands, hfills⟩ := h
  obtain ⟨after, hends, -⟩ := ends_of_standsAt hstands
  obtain ⟨run, hraw⟩ := List.head?_eq_some_iff.1 (beq_iff_eq.1 harray)
  dsimp only at hraw hfills hends
  subst hraw
  exact ⟨_, rfl, ends_skip (p := ⟨i, '[' :: run ++ after⟩) (n := 1) hends rfl,
    elementsFrom_part (closes_of_isOpening hfills rfl) i after⟩

/-- So it is with the members of an object. -/
theorem exists_place_members (h : v.IsIn src) (hobject : opensObject v.raw = true) :
    ∃ p : Place, p.offset = v.offset + 1 ∧ Ends src.asOctets p.offset p.rest ∧ p.LiesIn src ∧
      membersFrom true p = (Json.members v.raw).map (·.shift v.offset) := by
  obtain ⟨kind, i, raw⟩ := v
  obtain ⟨hstands, hfills⟩ := h
  obtain ⟨after, hends, hin⟩ := ends_of_standsAt hstands
  obtain ⟨run, hraw⟩ := List.head?_eq_some_iff.1 (beq_iff_eq.1 hobject)
  dsimp only at hraw hfills hends hin
  subst hraw
  exact ⟨_, rfl, ends_skip (p := ⟨i, '\x7b' :: run ++ after⟩) (n := 1) hends rfl, hin.skip 1,
    membersFrom_part (closes_of_isOpening hfills rfl) i after⟩

theorem elements_of_isIn (h : v.IsIn src) (harray : opensArray v.raw = true) :
    elements src.asOctets v.offset =
      .some ((Json.elements v.raw).map fun e => .of (e.shift v.offset)) := by
  obtain ⟨o, ho, -, hopens⟩ := exists_octet_of_isIn h
  obtain ⟨p, hp, hends, helements⟩ := exists_place_elements h harray
  have hmark : (some o == some '[') = true := hopens.trans harray
  rw [elements, ho, if_pos hmark, ← hp, elementsFrom_eq hends, helements, List.map_map]
  rfl

theorem members_of_isIn (h : v.IsIn src) (hobject : opensObject v.raw = true) :
    members src.asOctets v.offset =
      .some ((Json.members v.raw).map fun m => spans (m.shift v.offset)) := by
  obtain ⟨o, ho, hopens, -⟩ := exists_octet_of_isIn h
  obtain ⟨p, hp, hends, -, hmembers⟩ := exists_place_members h hobject
  have hmark : (some o == some '\x7b') = true := hopens.trans hobject
  rw [members, ho, if_pos hmark, ← hp, membersFrom_eq hends, hmembers, List.map_map]
  rfl

theorem children_of_opensObject (hobject : opensObject v.raw = true) :
    v.children = (Json.members v.raw).map fun m =>
      (.key (Quoted.text m.key.raw), m.value.shift v.offset) :=
  if_pos hobject

theorem children_of_not_opensObject (hobject : opensObject v.raw = false) :
    v.children = (Json.elements v.raw).mapIdx fun i e => (.index i, e.shift v.offset) :=
  if_neg (Bool.eq_false_iff.1 hobject)

/-- The key of a member of an object that stands in the text is read from the text. -/
theorem memberStep_eq (h : v.IsIn src) {m : Member} (hm : m ∈ Json.members v.raw) :
    (do
      let name ← stringText (← slice src (spans (m.shift v.offset)).1.start
        (spans (m.shift v.offset)).1.stop)
      return (Step.key name, (spans (m.shift v.offset)).2) : Part (Step × Span)) =
        .some (.key (Quoted.text m.key.raw), .of (m.value.shift v.offset)) := by
  obtain ⟨⟨hkey, hliteral⟩, hkind⟩ := key_of_mem_members hm
  rw [hkind] at hliteral
  have hslice : slice src (spans (m.shift v.offset)).1.start (spans (m.shift v.offset)).1.stop =
      .some m.key.raw := slice_of (v := m.key.shift v.offset) (h.1.trans hkey)
  rw [hslice, some_bind, stringText_eq hliteral]
  exact some_bind _ _

/-- The items of a container, found in the whole text or in its own part of it. -/
theorem openFrame_eq (h : v.IsIn src) :
    openFrame src (.of v) = .some
      (if opensObject v.raw || opensArray v.raw then
        some (v.children.map fun child => (child.1, .of child.2)) else none) := by
  obtain ⟨o, ho, hobject, harray⟩ := exists_octet_of_isIn h
  have hoctet : src.asOctets[(Span.of v).start]? = some o := ho
  have hstart : (Span.of v).start = v.offset := rfl
  rw [openFrame, hoctet, hstart]
  dsimp only
  rw [hobject, harray]
  cases hopens : opensObject v.raw with
  | true =>
      have hkeys := fun m (hm : m ∈ Json.members v.raw) => memberStep_eq h hm
      rw [if_pos rfl, members_of_isIn h hopens, some_bind,
        mapM_map (h := fun m : Member => spans (m.shift v.offset)) hkeys, some_bind,
        children_of_opensObject hopens, List.map_map]
      rfl
  | false =>
      rw [if_neg Bool.false_ne_true, Bool.false_or]
      cases hopens' : opensArray v.raw with
      | false => rfl
      | true =>
          rw [if_pos rfl, if_pos rfl, elements_of_isIn h hopens', some_bind,
            children_of_not_opensObject hopens]
          refine congrArg (fun items => Part.some (some items)) (List.ext_getElem? fun n => ?_)
          simp only [List.getElem?_mapIdx, List.getElem?_map, Option.map_map]
          rfl

end Containers

/-- What is visited, by the indices of the value. -/
def visitSpan (visit : Visit) : Trail × Span :=
  (visit.trail, .of visit.value)

theorem children_of_opens_nothing {v : Occurrence}
    (h : (opensObject v.raw || opensArray v.raw) = false) : v.children = [] := by
  rw [Bool.or_eq_false_iff] at h
  rw [Occurrence.children, h.1, Json.elements, h.2]
  rfl

theorem walkFrom_of_no_children {v : Occurrence} (h : v.children = []) (k : Nat) (trail : Trail) :
    walkFrom k trail v = [⟨trail, v⟩] := by
  cases k with
  | zero => rfl
  | succ k =>
      rw [walkFrom, h]
      rfl

/-- One item of a frame: it is visited, and what is inside it as far as the depth allows. -/
theorem walkRound_item {src : Text} {depth k : Nat} {frames : List (List (Step × Span))}
    (hk : max depth 1 = frames.length + 1 + k) {step : Step} {v : Occurrence} (hv : v.IsIn src)
    (items : List (Step × Span)) (trail : Trail) (visited : List (Trail × Span))
    (hinside : ∀ j, k = j + 1 → ∀ visited,
      loop (walkRound src depth) ((v.children.map fun child => (child.1, .of child.2)) ::
          items :: frames, trail ++ [step], visited) =
        loop (walkRound src depth) (items :: frames, trail,
          visited ++ (v.children.flatMap fun child =>
            walkFrom j (trail ++ [step] ++ [child.1]) child.2).map visitSpan)) :
    loop (walkRound src depth) (((step, .of v) :: items) :: frames, trail, visited) =
      loop (walkRound src depth) (items :: frames, trail,
        visited ++ (walkFrom k (trail ++ [step]) v).map visitSpan) := by
  have hopen := openFrame_eq hv
  cases hopens : opensObject v.raw || opensArray v.raw with
  | false =>
      rw [hopens] at hopen
      rw [walkFrom_of_no_children (children_of_opens_nothing hopens)]
      refine loop_next ?_
      rw [walkRound, hopen]
      refine (some_bind _ _).trans ?_
      rw [List.dropLast_concat]
      rfl
  | true =>
      rw [hopens, if_pos rfl] at hopen
      cases k with
      | zero =>
          refine loop_next ?_
          rw [walkRound, hopen]
          refine (some_bind _ _).trans ?_
          dsimp only
          rw [if_pos (by rw [List.length_cons]; omega), List.dropLast_concat]
          rfl
      | succ k =>
          have hround : walkRound src depth (((step, .of v) :: items) :: frames, trail, visited) =
              .some (.inr ((v.children.map fun child => (child.1, .of child.2)) ::
                items :: frames, trail ++ [step], visited ++ [(trail ++ [step], .of v)])) := by
            rw [walkRound, hopen]
            refine (some_bind _ _).trans ?_
            dsimp only
            rw [if_neg (by rw [List.length_cons]; omega)]
            rfl
          rw [loop_next hround, hinside k rfl, walkFrom, List.map_cons, List.append_assoc]
          rfl

/-- The frame of a container is worked off before the frames around it, its items in order. -/
theorem walkRound_frame {src : Text} {depth k : Nat} {frames : List (List (Step × Span))}
    (hk : max depth 1 = frames.length + 1 + k) {items : List (Step × Occurrence)}
    (hitems : ∀ item ∈ items, item.2.IsIn src) (trail : Trail) (visited : List (Trail × Span)) :
    loop (walkRound src depth)
        ((items.map fun item => (item.1, .of item.2)) :: frames, trail, visited) =
      loop (walkRound src depth) (frames, trail.dropLast,
        visited ++ (items.flatMap fun item =>
          walkFrom k (trail ++ [item.1]) item.2).map visitSpan) := by
  induction k using Nat.strong_induction_on generalizing frames items trail visited with
  | _ k ih =>
    induction items generalizing visited with
    | nil =>
        rw [List.flatMap_nil, List.map_nil, List.map_nil, List.append_nil]
        exact loop_next rfl
    | cons item items ihitems =>
        obtain ⟨step, v⟩ := item
        have hv := hitems (step, v) List.mem_cons_self
        have hrest := fun i hi => hitems i (List.mem_cons_of_mem (step, v) hi)
        rw [List.map_cons, walkRound_item hk hv _ trail visited, ihitems hrest,
          List.flatMap_cons, List.map_append, List.append_assoc]
        rintro j rfl visited
        have hchildren : ∀ child ∈ v.children, child.2.IsIn src :=
          fun child hchild => hv.of_mem_children hchild
        have hdepth : max depth 1 =
            ((items.map fun item => (item.1, Span.of item.2)) :: frames).length + 1 + j := by
          rw [List.length_cons]
          omega
        have hinside := ih j (Nat.lt_succ_self j) hdepth hchildren (trail ++ [step]) visited
        rwa [List.dropLast_concat] at hinside

/-- The walk with frames visits what the walk by recursion visits. -/
theorem walk_eq (src : Text) (depth : Nat) :
    walk src depth = .some ((Json.walk depth src).map visitSpan) := by
  have hends := ends_start src
  have hspace : skipSpace src.asOctets 0 = .some (Place.start src).skipSpace.offset :=
    skipSpace_place hends
  rw [walk, hspace, some_bind, locate_eq (ends_skipSpace hends), some_bind, Json.walk, firstValue?]
  cases hroot : (Place.start src).skipSpace.value? with
  | none => rfl
  | some r =>
      obtain ⟨root, next⟩ := r
      have hv : root.IsIn src := isIn_of_value? (Place.start_liesIn src).skipSpace hroot
      obtain ⟨k, hk⟩ : ∃ k, max depth 1 = k + 1 := ⟨max depth 1 - 1, by omega⟩
      dsimp only [Option.map_some]
      rw [openFrame_eq hv, some_bind, hk, walkFrom, List.map_cons]
      cases hopens : opensObject root.raw || opensArray root.raw with
      | false =>
          rw [children_of_opens_nothing hopens]
          exact loop_break rfl
      | true =>
          have hchildren : ∀ child ∈ root.children, child.2.IsIn src :=
            fun child hchild => hv.of_mem_children hchild
          have hdepth : max depth 1 = ([] : List (List (Step × Span))).length + 1 + k := by
            rw [hk, List.length_nil]
            omega
          have hframe := walkRound_frame hdepth hchildren [] [([], .of root)]
          rw [if_pos rfl]
          exact hframe.trans (loop_break rfl)

end DotPath.Indexed
