import DotPath.Proofs.Indexed.Items
import DotPath.Proofs.Json.Closure
import DotPath.Proofs.Json.Reached

/-!
# Visiting the values of a document

A visitor is called with one value after another, and each time it says whether it wants to be
called again. The walk that calls it keeps a stack of frames, one for each container that it is in,
and beside it the trail to the innermost one. A frame holds no more than the index where its next
item may begin: items are looked for one by one, and none is looked for once the visitor has said
no.

The stack and the trail grow and shrink at different points: a value that is not entered leaves the
stack as it is, and the frame of the root leaves no step behind. What keeps them together is that
working off the frame on top leads back to the frames below with the trail that they began with.

## Main definitions

* `traverse`: the walk with frames that calls a visitor.
* `feed`: a visitor that is called with the values of a list.

## Main results

* `traverse_eq`: the visitor is called with the values that the walk lists, until it says no.
* `traverse_visits`: in a document, these are the values down to the depth, in order.
-/

namespace DotPath.Indexed

open Json

/-! ## Visitors -/

section Feed

variable {σ α : Type}

/-- Calls a visitor with the values of a list, until it says no. It has a state of its own. -/
def feed (visit : σ → α → Bool × σ) (s : σ) : List α → Bool × σ
  | [] => (true, s)
  | a :: rest => if (visit s a).1 then feed visit (visit s a).2 rest else (false, (visit s a).2)

/-- What comes after a visitor has been called, unless it has said no. -/
def andThen (r : Bool × σ) (next : σ → Part σ) : Part σ :=
  if r.1 then next r.2 else .some r.2

variable (visit : σ → α → Bool × σ)

theorem feed_append (s : σ) (as bs : List α) (next : σ → Part σ) :
    andThen (feed visit s (as ++ bs)) next =
      andThen (feed visit s as) fun s => andThen (feed visit s bs) next := by
  induction as generalizing s with
  | nil => rfl
  | cons a as ih =>
      rw [List.cons_append, feed, feed]
      split
      · exact ih _
      · rfl

/-- The values of a list that a visitor is called with. -/
def called (s : σ) : List α → List α
  | [] => []
  | a :: rest => a :: if (visit s a).1 then called (visit s a).2 rest else []

/-- The state of a visitor after calls, whatever it has said. -/
def stateAfter (s : σ) (calls : List α) : σ :=
  calls.foldl (fun s a => (visit s a).2) s

/-- A visitor that keeps a list of its calls. -/
def logged (s : σ × List α) (a : α) : Bool × (σ × List α) :=
  ((visit s.1 a).1, ((visit s.1 a).2, s.2 ++ [a]))

/--
The calls of a visitor that is offered values one by one: they are made in order, none is made once
it has said no, and all are made unless it does.
-/
structure AreCalls (s : σ) (values calls : List α) : Prop where
  inOrder : calls <+: values
  stops : ∀ before a after, calls = before ++ a :: after →
    (visit (stateAfter visit s before) a).1 = false → after = []
  complete : calls = values ∨ ∃ before a, calls = before ++ [a] ∧
    (visit (stateAfter visit s before) a).1 = false

theorem areCalls_called (s : σ) (as : List α) : AreCalls visit s as (called visit s as) := by
  induction as generalizing s with
  | nil =>
      refine ⟨List.nil_prefix, fun before a after h => ?_, .inl rfl⟩
      cases before <;> cases h
  | cons a as ih =>
      rw [called]
      cases hgo : (visit s a).1 with
      | false =>
          rw [if_neg Bool.false_ne_true]
          refine ⟨⟨as, rfl⟩, fun before b after h _ => ?_, .inr ⟨[], a, rfl, hgo⟩⟩
          cases before with
          | nil => exact (List.cons.inj h).2.symm
          | cons c before => cases before <;> cases (List.cons.inj h).2
      | true =>
          obtain ⟨horder, hstop, hall⟩ := ih (visit s a).2
          rw [if_pos rfl]
          refine ⟨(List.prefix_cons_inj a).2 horder, fun before b after h hno => ?_, ?_⟩
          · cases before with
            | nil =>
                obtain ⟨rfl, -⟩ := List.cons.inj h
                rw [stateAfter, List.foldl_nil, hgo] at hno
                cases hno
            | cons c before =>
                obtain ⟨rfl, hrest⟩ := List.cons.inj h
                exact hstop before b after hrest hno
          · rcases hall with hall | ⟨before, b, hcalls, hno⟩
            · exact .inl (by rw [hall])
            · exact .inr ⟨a :: before, b, by rw [hcalls]; rfl, hno⟩

/-- A visitor is left in the state after its calls. -/
theorem feed_snd (s : σ) (as : List α) :
    (feed visit s as).2 = stateAfter visit s (called visit s as) := by
  induction as generalizing s with
  | nil => rfl
  | cons a as ih =>
      rw [feed, called, stateAfter, List.foldl_cons]
      split
      · exact ih _
      · rfl

/-- A visitor that keeps a list of its calls goes through the same states. -/
theorem feed_logged (s : σ) (log as : List α) :
    (feed (logged visit) (s, log) as).2 =
      (stateAfter visit s (called visit s as), log ++ called visit s as) := by
  induction as generalizing s log with
  | nil => rw [called, List.append_nil]; rfl
  | cons a as ih =>
      rw [feed, called, stateAfter, List.foldl_cons]
      cases hgo : (visit s a).1 with
      | true =>
          rw [if_pos (show (logged visit (s, log) a).1 = true from hgo), if_pos rfl]
          exact (ih _ _).trans (by rw [List.append_assoc]; rfl)
      | false =>
          rw [if_neg (by rw [show (logged visit (s, log) a).1 = false from hgo]; nofun),
            if_neg Bool.false_ne_true]
          rfl

end Feed

/-! ## The walk -/

/-- A container that a walk is in: where its next item may begin, and which element comes next. -/
inductive Frame where
  | object (first : Bool) (pos : Nat)
  | array (first : Bool) (pos : Nat) (count : Nat)

/-- The frame of the container at a span; none for a value that is no container. -/
def Frame.open? (data : Text) (span : Span) : Option Frame :=
  match data[span.start]? with
  | none => none
  | some c =>
    if c == '\x7b' then some (.object true (span.start + 1))
    else if c == '[' then some (.array true (span.start + 1) 0)
    else none

/-- The next item of a frame with the step that leads to it, and the frame behind it. -/
def Frame.next? (src : Text) : Frame → Part (Option (Step × Span × Frame))
  | .object first pos => do
    match ← slot src.asOctets '\x7d' first pos with
    | none => return none
    | some x =>
      match ← member src.asOctets x with
      | none => return none
      | some (key, value) =>
        let name ← stringText (← slice src key.start key.stop)
        return some (.key name, value, .object false value.stop)
  | .array first pos count => do
    match ← slot src.asOctets ']' first pos with
    | none => return none
    | some x =>
      match ← locate src.asOctets x with
      | none => return none
      | some value => return some (.index count, value, .array false value.stop (count + 1))

section Traverse

variable {σ : Type}

/-- One step of the walk: its frames, the trail to the innermost one, and the visitor's state. -/
def traverseRound (src : Text) (depth : Nat) (visit : σ → Trail × Span → Bool × σ) :
    List Frame × Trail × σ → Part (σ ⊕ List Frame × Trail × σ)
  | ([], _, s) => pure (.inl s)
  | (frame :: stack, trail, s) => do
    match ← frame.next? src with
    | none => return .inr (stack, trail.dropLast, s)
    | some (step, value, frame) =>
      let inside := trail ++ [step]
      let (go, s) := visit s (inside, value)
      if go then
        match Frame.open? src.asOctets value with
        | none => return .inr (frame :: stack, inside.dropLast, s)
        | some child =>
          if (frame :: stack).length ≥ depth then
            return .inr (frame :: stack, inside.dropLast, s)
          else return .inr (child :: frame :: stack, inside, s)
      else return .inl s

/--
Calls a visitor with the values of a document and the trails that lead to them. The root is entered
whatever the depth.
-/
def traverse (src : Text) (depth : Nat) (visit : σ → Trail × Span → Bool × σ) (s : σ) :
    Part σ := do
  match ← locate src.asOctets (← skipSpace src.asOctets 0) with
  | none => return s
  | some root =>
    let (go, s) := visit s ([], root)
    if go then
      loop (traverseRound src depth visit) ((Frame.open? src.asOctets root).toList, [], s)
    else return s

end Traverse

/-! ## Frames -/

/-- A frame gives the items of a list, one by one, and then no more. -/
inductive Frame.Yields (src : Text) : Frame → List (Step × Occurrence) → Prop where
  | done {frame : Frame} : frame.next? src = .some none → Yields src frame []
  | item {frame next : Frame} {step : Step} {v : Occurrence} {items : List (Step × Occurrence)} :
      frame.next? src = .some (some (step, .of v, next)) → Yields src next items →
        Yields src frame ((step, v) :: items)

section Frames

variable {src : Text}

theorem next?_object {first : Bool} {pos : Nat} {r : Option (Span × Span)}
    (h : nextItem src.asOctets '\x7d' (member src.asOctets) first pos = .some r) :
    (Frame.object first pos).next? src = r.elim (.some none) fun m => do
      let name ← stringText (← slice src m.1.start m.1.stop)
      return some (.key name, m.2, .object false m.2.stop) := by
  have hnext : (Frame.object first pos).next? src =
      nextItem src.asOctets '\x7d' (member src.asOctets) first pos >>= fun r =>
        r.elim (.some none) fun m => do
          let name ← stringText (← slice src m.1.start m.1.stop)
          return some (.key name, m.2, .object false m.2.stop) :=
    slot_bind rfl fun x =>
      congrArg (member src.asOctets x >>= ·) (funext fun r => by cases r <;> rfl)
  rw [hnext, h]
  exact some_bind _ _

theorem next?_array {first : Bool} {pos : Nat} {r : Option Span}
    (h : nextItem src.asOctets ']' (locate src.asOctets) first pos = .some r) (count : Nat) :
    (Frame.array first pos count).next? src =
      .some (r.map fun v => (.index count, v, .array false v.stop (count + 1))) := by
  have hnext : (Frame.array first pos count).next? src =
      nextItem src.asOctets ']' (locate src.asOctets) first pos >>= fun r =>
        .some (r.map fun v => (.index count, v, .array false v.stop (count + 1))) :=
    slot_bind rfl fun x =>
      congrArg (locate src.asOctets x >>= ·) (funext fun r => by cases r <;> rfl)
  rw [hnext, h]
  exact some_bind _ _

/-- The frame of an object gives its members, the keys decoded. -/
theorem yields_membersFrom {p : Place} (h : Ends src.asOctets p.offset p.rest) (hp : p.LiesIn src)
    (first : Bool) :
    (Frame.object first p.offset).Yields src
      ((membersFrom first p).map fun m => (.key (Quoted.text m.key.raw), m.value)) := by
  rcases nextMember h first with ⟨hnil, hitem⟩ | ⟨q, m, next, hs, hm, hcons, hitem, hstop, hends⟩
  · rw [hnil]
    exact .done (next?_object hitem)
  · have hnext := (isIn_of_member? (liesIn_of_slot? hp hs) hm).2
    have hrest := yields_membersFrom hends hnext false
    obtain ⟨⟨hkey, hliteral⟩, hkind⟩ :=
      key_of_mem_membersFrom hp (m := m) (hcons ▸ List.mem_cons_self)
    rw [hkind] at hliteral
    rw [hcons]
    refine .item ((next?_object hitem).trans ?_) hrest
    rw [Option.elim_some, spans, hstop, slice_of hkey, some_bind, stringText_eq hliteral]
    exact some_bind _ _
termination_by (membersFrom first p).length
decreasing_by
  rw [hcons]
  exact Nat.lt_succ_self _

/-- The frame of an array gives its elements under their positions. -/
theorem yields_elementsFrom {p : Place} (h : Ends src.asOctets p.offset p.rest) (first : Bool)
    (count : Nat) :
    (Frame.array first p.offset count).Yields src
      ((elementsFrom first p).mapIdx fun i e => (.index (i + count), e)) := by
  rcases nextElement h first with ⟨hnil, hitem⟩ | ⟨v, next, hcons, hitem, hstop, hends⟩
  · rw [hnil]
    exact .done (next?_array hitem count)
  · have hrest := yields_elementsFrom hends false (count + 1)
    rw [hcons, List.mapIdx_cons, Nat.zero_add]
    simp only [Nat.add_assoc, Nat.add_comm 1] at hrest ⊢
    refine .item ((next?_array hitem count).trans ?_) hrest
    rw [Option.map_some, hstop]
termination_by (elementsFrom first p).length
decreasing_by
  rw [hcons]
  exact Nat.lt_succ_self _

/-- The frame of a value that stands in the text gives what is directly inside the value. -/
theorem open?_spec {v : Occurrence} (h : v.IsIn src) :
    (Frame.open? src.asOctets (.of v) = none ∧ v.children = []) ∨
      ∃ frame, Frame.open? src.asOctets (.of v) = some frame ∧ frame.Yields src v.children := by
  obtain ⟨o, ho, hobject, harray⟩ := exists_octet_of_isIn h
  have hoctet : src.asOctets[(Span.of v).start]? = some o := ho
  have hstart : (Span.of v).start = v.offset := rfl
  rw [Frame.open?, hoctet, hstart]
  dsimp only
  rw [hobject, harray]
  cases hopens : opensObject v.raw with
  | true =>
      obtain ⟨p, hp, hends, hin, hmembers⟩ := exists_place_members h hopens
      have hyields := yields_membersFrom hends hin true
      rw [hp, hmembers, List.map_map] at hyields
      rw [children_of_opensObject hopens]
      exact .inr ⟨_, rfl, hyields⟩
  | false =>
      cases hopens' : opensArray v.raw with
      | false =>
          refine .inl ⟨rfl, children_of_opens_nothing ?_⟩
          rw [hopens, hopens']
          rfl
      | true =>
          obtain ⟨p, hp, hends, helements⟩ := exists_place_elements h hopens'
          have hyields := yields_elementsFrom hends true 0
          rw [hp, helements] at hyields
          have hitems : ((Json.elements v.raw).map (·.shift v.offset)).mapIdx
              (fun n e => (Step.index (n + 0), e)) = v.children := by
            rw [children_of_not_opensObject hopens]
            refine List.ext_getElem? fun n => ?_
            rw [List.getElem?_mapIdx, List.getElem?_mapIdx, List.getElem?_map, Option.map_map]
            rfl
          exact .inr ⟨_, rfl, hitems ▸ hyields⟩

end Frames

/-! ## What the walk visits -/

section Walk

variable {σ : Type} {src : Text} {depth : Nat} {visit : σ → Trail × Span → Bool × σ}

/-- What is visited inside a value comes after the value. -/
theorem walkFrom_eq_cons (k : Nat) (trail : Trail) (v : Occurrence) :
    ∃ inner, walkFrom k trail v = ⟨trail, v⟩ :: inner := by
  cases k with
  | zero => exact ⟨[], rfl⟩
  | succ k => exact ⟨_, rfl⟩

/-- One item of a frame: the visitor is called with it, and with what is inside it. -/
theorem traverse_item {k : Nat} {stack : List Frame} (hk : max depth 1 = stack.length + 1 + k)
    {frame next : Frame} {step : Step} {v : Occurrence} (hv : v.IsIn src)
    (hnext : frame.next? src = .some (some (step, .of v, next))) (trail : Trail) (s : σ)
    (hinside : ∀ j child, k = j + 1 → child.Yields src v.children → ∀ s,
      loop (traverseRound src depth visit) (child :: next :: stack, trail ++ [step], s) =
        andThen (feed visit s ((v.children.flatMap fun child =>
            walkFrom j (trail ++ [step] ++ [child.1]) child.2).map visitSpan))
          fun s => loop (traverseRound src depth visit) (next :: stack, trail, s)) :
    loop (traverseRound src depth visit) (frame :: stack, trail, s) =
      andThen (feed visit s ((walkFrom k (trail ++ [step]) v).map visitSpan))
        fun s => loop (traverseRound src depth visit) (next :: stack, trail, s) := by
  cases hcall : visit s (trail ++ [step], .of v) with
  | mk go s' =>
    cases go with
    | false =>
        obtain ⟨inner, hinner⟩ := walkFrom_eq_cons k (trail ++ [step]) v
        rw [hinner, List.map_cons, feed, visitSpan, hcall, if_neg Bool.false_ne_true]
        refine loop_break ?_
        rw [traverseRound, hnext, some_bind]
        dsimp only
        rw [hcall]
        rfl
    | true =>
        have hround : traverseRound src depth visit (frame :: stack, trail, s) =
            match Frame.open? src.asOctets (.of v) with
            | none => .some (.inr (next :: stack, trail, s'))
            | some child => if stack.length + 1 ≥ depth then .some (.inr (next :: stack, trail, s'))
              else .some (.inr (child :: next :: stack, trail ++ [step], s')) := by
          rw [traverseRound, hnext, some_bind]
          dsimp only
          rw [hcall, if_pos rfl, List.dropLast_concat]
          rfl
        rcases open?_spec hv with ⟨hopen, hchildren⟩ | ⟨child, hopen, hyields⟩
        · rw [hopen] at hround
          rw [loop_next hround, walkFrom_of_no_children hchildren, List.map_singleton, feed,
            visitSpan, hcall, if_pos rfl]
          rfl
        · rw [hopen] at hround
          dsimp only at hround
          cases k with
          | zero =>
              rw [if_pos (by omega)] at hround
              rw [loop_next hround, walkFrom, List.map_singleton, feed, visitSpan, hcall,
                if_pos rfl]
              rfl
          | succ k =>
              rw [if_neg (by omega)] at hround
              rw [loop_next hround, hinside k child rfl hyields, walkFrom, List.map_cons, feed,
                visitSpan, hcall, if_pos rfl]

/-- The frame on top is worked off before the frames below, its items in order. -/
theorem traverse_frame {k : Nat} {stack : List Frame} (hk : max depth 1 = stack.length + 1 + k)
    {frame : Frame} {items : List (Step × Occurrence)} (hframe : frame.Yields src items)
    (hitems : ∀ item ∈ items, item.2.IsIn src) (trail : Trail) (s : σ) :
    loop (traverseRound src depth visit) (frame :: stack, trail, s) =
      andThen (feed visit s
          ((items.flatMap fun item => walkFrom k (trail ++ [item.1]) item.2).map visitSpan))
        fun s => loop (traverseRound src depth visit) (stack, trail.dropLast, s) := by
  -- `k` counts the frames that may still be added; within one `k`, the items are gone through.
  induction k using Nat.strong_induction_on generalizing stack frame items trail s with
  | _ k ih =>
    induction hframe generalizing s with
    | done hdone =>
        refine loop_next ?_
        rw [traverseRound, hdone]
        exact some_bind _ _
    | @item frame next step v items hnext _ ihitems =>
        have hv := hitems (step, v) List.mem_cons_self
        have hrest := fun i hi => hitems i (List.mem_cons_of_mem (step, v) hi)
        rw [List.flatMap_cons, List.map_append, feed_append, traverse_item hk hv hnext trail s]
        · exact congrArg _ (funext fun s => ihitems hrest s)
        · -- The frame of the item drops the step to it when it is done, which leaves `trail`.
          rintro j child rfl hchild s
          have hdepth : max depth 1 = (next :: stack).length + 1 + j := by
            rw [List.length_cons]
            omega
          have hinside := ih j (Nat.lt_succ_self j) hdepth hchild
            (fun child hchild => hv.of_mem_children hchild) (trail ++ [step]) s
          rwa [List.dropLast_concat] at hinside

/-- The visitor is called with the values that the walk by recursion lists, until it says no. -/
theorem traverse_eq (src : Text) (depth : Nat) (visit : σ → Trail × Span → Bool × σ) (s : σ) :
    traverse src depth visit s =
      .some (feed visit s ((Json.walk depth src).map visitSpan)).2 := by
  have hends := ends_start src
  have hspace : skipSpace src.asOctets 0 = .some (Place.start src).skipSpace.offset :=
    skipSpace_place hends
  rw [traverse, hspace, some_bind, locate_eq (ends_skipSpace hends), some_bind, Json.walk,
    firstValue?]
  cases hroot : (Place.start src).skipSpace.value? with
  | none => rfl
  | some r =>
      obtain ⟨root, stop⟩ := r
      have hv : root.IsIn src := isIn_of_value? (Place.start_liesIn src).skipSpace hroot
      obtain ⟨k, hk⟩ : ∃ k, max depth 1 = k + 1 := ⟨max depth 1 - 1, by omega⟩
      dsimp only [Option.map_some]
      rw [hk, walkFrom, List.map_cons, feed, visitSpan]
      cases hcall : visit s ([], .of root) with
      | mk go s' =>
        cases go with
        | false => rfl
        | true =>
            rw [if_pos rfl, if_pos rfl]
            rcases open?_spec hv with ⟨hopen, hchildren⟩ | ⟨frame, hopen, hyields⟩
            · rw [hopen, hchildren]
              exact loop_break rfl
            · have hdepth : max depth 1 = ([] : List Frame).length + 1 + k := by
                rw [hk, List.length_nil]
                omega
              have hchildren : ∀ child ∈ root.children, child.2.IsIn src :=
                fun child hchild => hv.of_mem_children hchild
              have hframe : loop (traverseRound src depth visit) ([frame], [], s') = _ :=
                traverse_frame hdepth hyields hchildren [] s'
              have hend : (fun s => loop (traverseRound src depth visit) ([], [].dropLast, s)) =
                  Part.some := funext fun s => loop_break rfl
              rw [hopen, Option.toList_some, hframe, hend, andThen, ite_self]

end Walk

/-! ## Documents -/

/-- The calls that a visitor of a document may get: its values down to a depth. -/
def nodeSpans (d : Document) (depth : Nat) : List (Trail × Span) :=
  (d.nodes depth).map fun n => (n.trail, .of (n.value.occurrence n.offset))

theorem map_visitSpan_walk (d : Document) (depth : Nat) :
    (Json.walk depth d.source).map visitSpan = nodeSpans d depth := by
  rw [d.walk_source, List.map_map]
  rfl

/--
In a well-formed text, the walk calls a visitor with the values that have at most `max depth 1`
containers above them, with each of them once, until the visitor says no. It gives it the exact
span of the value, and the trail of decoded keys and positions from the root. The values come in the
order of the text, each one after the container that it is in.
-/
theorem traverse_visits {json : Text} (h : wellFormed none json = true) (depth : Nat) :
    (∃ d : Document, d.source = json) ∧
      ∀ d : Document, d.source = json →
        (∀ (σ : Type) (visit : σ → Trail × Span → Bool × σ) (s : σ), ∃ calls,
          AreCalls visit s (nodeSpans d depth) calls ∧
            traverse json depth visit s = .some (stateAfter visit s calls) ∧
            traverse json depth (logged visit) (s, []) =
              .some (stateAfter visit s calls, calls)) ∧
        Json.walk depth json = (d.nodes depth).map Node.visit ∧
        (∀ n, n ∈ d.nodes depth ↔ d.rootNode.Reaches n ∧ n.trail.length ≤ max depth 1) ∧
        (d.nodes depth).Pairwise (fun m n => m.offset < n.offset) ∧
        ∀ n ∈ d.nodes depth,
          (n = d.rootNode ∨ ∃ u ∈ d.nodes depth, u.offset < n.offset ∧
            ∃ p ∈ u.value.parts u.offset, n = ⟨u.trail ++ [p.step], p.offset, p.value⟩) ∧
          StandsAt json n.value.source n.offset ∧
          (n.value.parts n.offset).map (fun p => (p.step, p.value)) = n.value.branches := by
  refine ⟨isDocument_iff.2 h, ?_⟩
  rintro d rfl
  refine ⟨fun σ visit s => ?_, d.walk_source depth, fun n => Document.mem_nodes_iff,
    Tree.pairwise_nodes _ _ _ _, fun n hn => ⟨Document.exists_parent hn,
      Document.standsAt_of_mem_nodes hn, n.value.map_parts n.offset⟩⟩
  refine ⟨_, areCalls_called visit s _, ?_, ?_⟩
  · rw [traverse_eq, map_visitSpan_walk, feed_snd]
  · rw [traverse_eq, map_visitSpan_walk, feed_logged, List.nil_append]

/-- At this depth the walk gets to the arrays that the root holds, and not to what is in them. -/
theorem traverse_visits_of_nested :
    wellFormed none "[[[1]],2]".toList = true ∧
      traverse "[[[1]],2]".toList 1 (logged fun _ _ => (true, ())) ((), []) =
        .some ((), [([], ⟨.container, 0, 9⟩), ([.index 0], ⟨.container, 1, 6⟩),
          ([.index 1], ⟨.number, 7, 8⟩)]) := by
  have hwell : wellFormed none "[[[1]],2]".toList = true := by decide +kernel
  refine ⟨hwell, ?_⟩
  obtain ⟨⟨d, hd⟩, hall⟩ := traverse_visits hwell 1
  obtain ⟨calls, hcalls, -, hlogged⟩ := (hall d hd).1 Unit (fun _ _ => (true, ())) ()
  have hvisits : calls = nodeSpans d 1 := by
    rcases hcalls.complete with h | ⟨before, a, -, hno⟩
    · exact h
    · cases hno
  have hwalk : Json.walk 1 "[[[1]],2]".toList =
      [⟨[], .container, 0, "[[[1]],2]".toList⟩, ⟨[.index 0], .container, 1, "[[1]]".toList⟩,
        ⟨[.index 1], .number, 7, "2".toList⟩] := by decide +kernel
  rw [hlogged, hvisits, ← map_visitSpan_walk, hd, hwalk]
  rfl

end DotPath.Indexed
