import DotPath.Evaluator.Basic
import DotPath.Proofs.Json.Slice

/-!
# Batches of paths

`Evaluator.getMany` answers the paths that start with a plain key in one pass over the members of
the document, with a list of pending paths that shrinks as keys are met. Each path could also be
followed on its own. The file compares the two.

The pass is described by what it does to one slot of the batch: a pending path gets its result from
the first member with its key, and every other slot keeps what it has. No two pending paths share a
slot, so the order in which they are answered does not matter.

The two ways agree, with one exception. Followed on its own, a path goes on behind a missing key,
because a literal selects a value where nothing is selected. The pass never gets there.

## Main results

* `answer_getElem?`: the pass over the members, slot by slot.
* `getMany_eq_map`: the results of a batch, path by path.
* `getMany_agrees_iff`: exactly when one of them is what the path selects on its own.
-/

namespace DotPath.Evaluator

open Json Selection

/-! ## Answering pending paths -/

/-- The member that answers a path that starts with a key. -/
def memberNamed (found : List Member) (name : Text) : Option Member :=
  found.find? fun m => name == Quoted.text m.key.raw

/-- No two paths share a slot. -/
def Separate (pending : List Pending) : Prop :=
  ∀ p ∈ pending, ∀ q ∈ pending, p.slot = q.slot → p = q

theorem Separate.mono {pending pending' : List Pending} (h : Separate pending)
    (hsub : ∀ p ∈ pending', p ∈ pending) : Separate pending' := by
  intro p hp q hq heq
  exact h p (hsub p hp) q (hsub q hq) heq

variable {ev : Evaluator}

theorem length_foldl_place (value : Selection) (done : List Pending) (results : List Selection) :
    (done.foldl (ev.place value) results).length = results.length := by
  induction done generalizing results with
  | nil => rfl
  | cons p done ih => rw [List.foldl_cons, ih, place, List.length_set]

/-- A slot that no path has keeps its result. -/
theorem foldl_place_of_not_mem (value : Selection) {done : List Pending} {i : Nat}
    (h : ∀ p ∈ done, p.slot ≠ i) (results : List Selection) :
    (done.foldl (ev.place value) results)[i]? = results[i]? := by
  induction done generalizing results with
  | nil => rfl
  | cons p done ih =>
      rw [List.foldl_cons, ih (fun q hq => h q (List.mem_cons_of_mem p hq)), place,
        List.getElem?_set_ne (h p List.mem_cons_self)]

/-- The slot of a path gets the result of that path. -/
theorem foldl_place_of_mem (value : Selection) {done : List Pending} {p : Pending}
    (hsep : Separate done) (hp : p ∈ done) {results : List Selection}
    (hslot : p.slot < results.length) :
    (done.foldl (ev.place value) results)[p.slot]? = some (ev.resolve value p.rest) := by
  induction done generalizing results with
  | nil => cases hp
  | cons q done ih =>
      rw [List.foldl_cons]
      have hsep' : Separate done := hsep.mono fun r hr => List.mem_cons_of_mem q hr
      by_cases hmem : p ∈ done
      · exact ih hsep' hmem (by rwa [place, List.length_set])
      · rcases List.mem_cons.1 hp with rfl | hp
        · have hne : ∀ r ∈ done, r.slot ≠ p.slot := by
            intro r hr heq
            have := hsep r (List.mem_cons_of_mem p hr) p List.mem_cons_self heq
            exact hmem (this ▸ hr)
          rw [foldl_place_of_not_mem value hne, place, List.getElem?_set_self hslot]
        · exact absurd hp hmem

theorem answer_of_not_mem {pending : List Pending} {i : Nat} (h : ∀ p ∈ pending, p.slot ≠ i)
    (found : List Member) (results : List Selection) :
    (ev.answer results pending found)[i]? = results[i]? := by
  induction found generalizing results pending with
  | nil => rfl
  | cons m found ih =>
      rw [answer]
      split
      · rfl
      · simp only [List.partition_eq_filter_filter]
        rw [ih fun p hp => h p (List.mem_filter.1 hp).1]
        exact foldl_place_of_not_mem _ (fun p hp => h p (List.mem_filter.1 hp).1) results

/--
A pending path is answered by the first member with its key. If there is none, its slot keeps the
result that it has.
-/
theorem answer_getElem? {pending : List Pending} (hsep : Separate pending) {p : Pending}
    (hp : p ∈ pending) (found : List Member) {results : List Selection}
    (hslot : p.slot < results.length) :
    (ev.answer results pending found)[p.slot]? =
      match memberNamed found p.name with
      | some m => some (ev.resolve (ofOccurrence (some 0) m.value) p.rest)
      | none => results[p.slot]? := by
  induction found generalizing results pending with
  | nil => rfl
  | cons m found ih =>
      rw [answer, if_neg (by simpa using List.ne_nil_of_mem hp)]
      simp only [List.partition_eq_filter_filter]
      have hdone : Separate (pending.filter (·.name == Quoted.text m.key.raw)) :=
        hsep.mono fun q hq => (List.mem_filter.1 hq).1
      have hleft : Separate (pending.filter (not ∘ (·.name == Quoted.text m.key.raw))) :=
        hsep.mono fun q hq => (List.mem_filter.1 hq).1
      by_cases hkey : (p.name == Quoted.text m.key.raw) = true
      · -- The member has the key: the path is answered here, and nothing changes its slot later.
        have hmem : p ∈ pending.filter (·.name == Quoted.text m.key.raw) :=
          List.mem_filter.2 ⟨hp, hkey⟩
        have hgone : ∀ q ∈ pending.filter (not ∘ (·.name == Quoted.text m.key.raw)),
            q.slot ≠ p.slot := by
          intro q hq heq
          obtain ⟨hq, hname⟩ := List.mem_filter.1 hq
          rw [hsep q hq p hp heq] at hname
          simp [hkey] at hname
        rw [answer_of_not_mem hgone, foldl_place_of_mem _ hdone hmem hslot, memberNamed,
          List.find?_cons, hkey]
      · have hmem : p ∈ pending.filter (not ∘ (·.name == Quoted.text m.key.raw)) :=
          List.mem_filter.2 ⟨hp, by simpa using hkey⟩
        have hkeep : ∀ q ∈ pending.filter (·.name == Quoted.text m.key.raw), q.slot ≠ p.slot := by
          intro q hq heq
          obtain ⟨hq, hname⟩ := List.mem_filter.1 hq
          rw [hsep q hq p hp heq] at hname
          exact hkey hname
        rw [ih hleft hmem (by rwa [length_foldl_place]), foldl_place_of_not_mem _ hkeep,
          memberNamed, memberNamed, List.find?_cons, eq_false_of_ne_true hkey]

/-! ## The pending paths of a batch -/

theorem mem_pendingPaths {compiled : List (Except PathError Path)} {p : Pending} :
    p ∈ pendingPaths compiled ↔ compiled[p.slot]? = some (.ok (.field p.name :: p.rest)) := by
  obtain ⟨slot, name, rest⟩ := p
  simp only [pendingPaths, List.mem_filterMap, Prod.exists]
  constructor
  · rintro ⟨path, i, hmem, h⟩
    split at h
    · cases h
      exact List.mk_mem_zipIdx_iff_getElem?.1 hmem
    · cases h
  · intro h
    exact ⟨_, slot, List.mk_mem_zipIdx_iff_getElem?.2 h, rfl⟩

theorem separate_pendingPaths (compiled : List (Except PathError Path)) :
    Separate (pendingPaths compiled) := by
  intro p hp q hq heq
  rw [mem_pendingPaths] at hp hq
  rw [heq, hq] at hp
  obtain ⟨slot, name, rest⟩ := p
  obtain ⟨slot', name', rest'⟩ := q
  cases hp
  cases heq
  rfl

/-! ## The members of a document -/

/-- The pass over the members starts where the document does. -/
theorem value?_of_firstValue? {json : Text} {v : Occurrence} (h : firstValue? json = some v) :
    ∃ q, (Place.start json).skipSpace.value? = some (v, q) := by
  simpa [firstValue?] using h

/-- A key that the pass finds leads to the view that the key alone leads to. -/
theorem field_document {json : Text} {v : Occurrence} (h : firstValue? json = some v)
    (name : Text) :
    (document json).field name =
      match memberNamed (membersAt (Place.start json).skipSpace) name with
      | some m => ofOccurrence (some 0) m.value
      | none => missing := by
  obtain ⟨q, hq⟩ := value?_of_firstValue? h
  have hoff := (Place.eq_of_value? hq).2.1
  have hdoc : document json = ofOccurrence (some 0) v := by
    rw [document, h]
  rw [membersAt_eq hq, memberNamed, List.find?_map, hdoc, Selection.field]
  have hpred : ((fun m : Member => name == Quoted.text m.key.raw) ∘
      fun m : Member => m.shift (Place.start json).skipSpace.offset) =
        fun m => Quoted.text m.key.raw == name := by
    funext m
    exact Bool.beq_comm
  rw [hpred]
  show (match (Json.members v.raw).find? fun m => Quoted.text m.key.raw == name with
    | some m => ofOccurrence (base (ofOccurrence (some 0) v)) m.value
    | none => missing) = _
  cases (Json.members v.raw).find? fun m => Quoted.text m.key.raw == name with
  | none => rfl
  | some m => simp [ofOccurrence, base, Member.shift, Occurrence.shift, hoff]

/-! ## The batch and its paths -/

/--
Whether a batch stops short on a path: the path starts with a key that the document does not have,
and goes on with a literal.
-/
def stopsShort (json : Text) : Path → Bool
  | .field name :: .literal _ :: _ =>
    (document json).isPresent && !((document json).field name).isPresent
  | _ => false

/-- Whether a batch stops short on a path that is given as text. -/
def stopsShortOf (json path : Text) : Bool :=
  match Path.compile path with
  | .ok path => stopsShort json path
  | .error _ => false

theorem isPresent_of_fills {kind : Kind} {raw : Text} (h : Fills kind raw) (isView : Bool)
    (index : Option Nat) (indexes : List Nat) :
    (Selection.mk kind raw isView index indexes).isPresent = true := by
  simpa [isPresent] using h.ne_nil

theorem isPresent_document {json : Text} {v : Occurrence} (h : firstValue? json = some v) :
    (document json).isPresent = true := by
  rw [document, h]
  exact isPresent_of_fills (isIn_of_firstValue? h).2 _ _ _

theorem eval_field {json : Text} {v : Occurrence} (h : firstValue? json = some v) (name : Text)
    (rest : Path) :
    ev.eval json (.field name :: rest) = ev.resolve ((document json).field name) rest := by
  have hview : (document json).isView = true := by
    rw [document, h]
    rfl
  rw [eval, resolve, isPresent_document h, step, derivedFrom, hview]
  · rfl
  · simp

/-- A path that starts with a key, where a document has a member with it. -/
theorem stopsShort_of_memberNamed {json name : Text} {rest : Path} {v : Occurrence} {m : Member}
    (h : firstValue? json = some v)
    (hm : memberNamed (membersAt (Place.start json).skipSpace) name = some m) :
    stopsShort json (.field name :: rest) = false := by
  obtain ⟨q, hq⟩ := value?_of_firstValue? h
  have hmem : m ∈ (Json.members v.raw).map (·.shift (Place.start json).skipSpace.offset) := by
    rw [← membersAt_eq hq]
    exact List.mem_of_find?_eq_some hm
  obtain ⟨n, hn, rfl⟩ := List.mem_map.1 hmem
  have hfills := (isIn_of_mem_members hn).2
  have hfield := field_document h name
  rw [hm] at hfield
  have hpresent : ((document json).field name).isPresent = true := by
    rw [hfield]
    exact isPresent_of_fills hfills _ _ _
  cases rest with
  | nil => rfl
  | cons s rest => cases s <;> simp [stopsShort, hpresent]

/-- Where there is no member with the key, the path stops short or selects nothing anyway. -/
theorem eval_field_of_no_member {json name : Text} {rest : Path} {v : Occurrence}
    (h : firstValue? json = some v)
    (hm : memberNamed (membersAt (Place.start json).skipSpace) name = none) :
    (if stopsShort json (.field name :: rest) then missing
      else ev.eval json (.field name :: rest)) = missing := by
  have hfield := field_document h name
  rw [hm] at hfield
  by_cases hlit : ∀ s ∈ rest.head?, s.isLiteral = false
  · rw [eval_field h, hfield]
    simp [ev.resolve_missing hlit]
  · cases rest with
    | nil => simp at hlit
    | cons s rest =>
        have hshort : stopsShort json (.field name :: s :: rest) = true := by
          cases s with
          | literal lit =>
              rw [stopsShort, isPresent_document h, hfield]
              rfl
          | _ => simp [Segment.isLiteral] at hlit
        rw [hshort, if_pos rfl]

/-- What a batch gives for one of its paths. -/
def batchResult (ev : Evaluator) (json : Text) : Except PathError Path → Selection
  | .ok path => if stopsShort json path then missing else ev.eval json path
  | .error _ => missing

/-- A path that is not left to the pass has its result before it. -/
theorem firstResult_eq_batchResult (json : Text) {path : Except PathError Path}
    (h : ¬ ∃ name rest, path = .ok (.field name :: rest)) :
    ev.firstResult json path = ev.batchResult json path := by
  unfold firstResult
  split
  · next name rest => exact absurd ⟨name, rest, rfl⟩ h
  · next path _ =>
      have hshort : stopsShort json path = false := by
        unfold stopsShort
        split
        · exact absurd ⟨_, _, rfl⟩ h
        · rfl
      simp only [batchResult, hshort, Bool.false_eq_true, if_false]
  · rfl

/-- Where there is no document there is nothing for a path to select, but by a literal. -/
theorem firstResult_of_no_document {json : Text} (h : firstValue? json = none)
    (path : Except PathError Path) : ev.firstResult json path = ev.batchResult json path := by
  by_cases hfield : ∃ name rest, path = .ok (.field name :: rest)
  · obtain ⟨name, rest, rfl⟩ := hfield
    have hdoc : document json = missing := by
      rw [document, h]
    have heval : ev.eval json (.field name :: rest) = missing := by
      rw [eval, hdoc]
      · exact ev.resolve_missing (by rintro s ⟨⟩; rfl)
      · simp
    rw [batchResult, heval, ite_self]
    rfl
  · exact firstResult_eq_batchResult json hfield

/-- The result that a batch gives in a slot is that of the path in the slot. -/
theorem getMany_getElem? (ev : Evaluator) (json : Text) (paths : List Text) (i : Nat) :
    (ev.getMany json paths)[i]? = (paths.map Path.compile)[i]?.map (ev.batchResult json) := by
  rw [getMany]
  generalize paths.map Path.compile = compiled
  cases hroot : (Place.start json).skipSpace.value? with
  | none =>
      have hnone : firstValue? json = none := by
        rw [firstValue?, hroot]
        rfl
      rw [List.getElem?_map, funext (firstResult_of_no_document hnone)]
  | some found =>
      obtain ⟨v, q⟩ := found
      have hdoc : firstValue? json = some v := by
        rw [firstValue?, hroot]
        rfl
      by_cases hfield : ∃ name rest, compiled[i]? = some (.ok (.field name :: rest))
      · obtain ⟨name, rest, hpath⟩ := hfield
        have hmem : (⟨i, name, rest⟩ : Pending) ∈ pendingPaths compiled := mem_pendingPaths.2 hpath
        have hslot : i < (compiled.map (ev.firstResult json)).length := by
          rw [List.length_map]
          exact (List.getElem?_eq_some_iff.1 hpath).1
        rw [hpath, Option.map_some, batchResult]
        refine (answer_getElem? (separate_pendingPaths compiled) hmem _ hslot).trans ?_
        cases hm : memberNamed (membersAt (Place.start json).skipSpace) name with
        | none =>
            rw [eval_field_of_no_member hdoc hm, List.getElem?_map, hpath]
            rfl
        | some m =>
            rw [stopsShort_of_memberNamed hdoc hm, if_neg Bool.false_ne_true, eval_field hdoc,
              field_document hdoc, hm]
      · have hother : ∀ p ∈ pendingPaths compiled, p.slot ≠ i := by
          rintro p hp rfl
          exact hfield ⟨_, _, mem_pendingPaths.1 hp⟩
        refine (answer_of_not_mem hother _ _).trans ?_
        rw [List.getElem?_map]
        cases hpath : compiled[i]? with
        | none => rfl
        | some path =>
            refine congrArg some (firstResult_eq_batchResult json ?_)
            rintro ⟨name, rest, rfl⟩
            exact hfield ⟨name, rest, hpath⟩

/--
A batch gives for every path what the path selects on its own, but for the paths on which it stops
short: for those it gives nothing.
-/
theorem getMany_eq_map (ev : Evaluator) (json : Text) (paths : List Text) :
    ev.getMany json paths =
      paths.map fun path => if stopsShortOf json path then missing else ev.get json path := by
  refine List.ext_getElem? fun i => ?_
  rw [getMany_getElem?, List.getElem?_map, List.getElem?_map, Option.map_map]
  refine congrArg (Option.map · paths[i]?) (funext fun path => ?_)
  show ev.batchResult json (Path.compile path) = _
  rw [stopsShortOf, get]
  cases Path.compile path with
  | error e => rfl
  | ok path => rfl

/--
The result of a batch in a slot is what the path there selects on its own, exactly if the batch does
not stop short on that path or the path selects nothing on its own either.
-/
theorem getMany_agrees_iff (ev : Evaluator) (json : Text) (paths : List Text) (i : Nat) :
    (ev.getMany json paths)[i]? = paths[i]?.map (ev.get json) ↔
      ∀ path, paths[i]? = some path → stopsShortOf json path = true →
        ev.get json path = missing := by
  rw [getMany_eq_map, List.getElem?_map]
  cases paths[i]? with
  | none => simp
  | some path =>
      cases hshort : stopsShortOf json path with
      | false => simp [hshort]
      | true =>
          simp only [Option.map_some, hshort, if_true, Option.some.injEq, forall_eq', forall_const]
          exact eq_comm

/-- The two ways differ already in the empty object, on a key and a literal. -/
theorem getMany_loses_literal :
    Evaluator.getMany ⟨⟨true, 256⟩, fun _ => none⟩ ['\x7b', '\x7d'] [['a', '.', '!', '1']] =
        [missing] ∧
      Evaluator.get ⟨⟨true, 256⟩, fun _ => none⟩ ['\x7b', '\x7d'] ['a', '.', '!', '1'] =
        ⟨.number, ['1'], false, none, []⟩ := by
  constructor
  · decide +kernel
  · decide +kernel

end DotPath.Evaluator
