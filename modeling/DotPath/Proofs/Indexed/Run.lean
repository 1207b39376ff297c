import Mathlib.Data.List.DropRight
import DotPath.Path.Error
import DotPath.Proofs.Indexed.Scan

/-!
# Runs of a path reader by index

The readers of paths by index may fail with an error of their own, besides being undefined where an
index is used that must not be. They work on parts of a text: `IsPart` ties a part to the two
indices it is given by. `Mirrors` says that a run on the octets of a text does the same as a reading
on places: that it is defined, that it succeeds with the same result or fails with the same error,
and that the error reports no position behind the end of the text.

## Main results

* `again_eq`: a loop that may fail is its first round and the loop from there.
* `IsPart.ends`, `IsPart.slice_take`, `IsPart.upTo`: what can be read of a part, and its own parts.
* `Mirrors.bind`: runs and readings that do the same step by step.
-/

namespace DotPath

/-- No position that an error reports is greater than `n`. -/
def PathError.Within (n : Nat) : PathError → Prop
  | .empty => True
  | .emptySegment position => position ≤ n
  | .unclosedString position => position ≤ n
  | .unbalanced opening position => opening ≤ n ∧ position ≤ n
  | .emptySelector position => position ≤ n
  | .invalidLiteral position => position ≤ n
  | .invalidQuery position => position ≤ n
  | .unexpectedChar _ position => position ≤ n
  | .tooDeep _ => True

namespace Indexed

/-! ## Runs -/

/-- A run of a reader of paths: a partial value, and where it is defined a result or an error. -/
abbrev Run (α : Type) := ExceptT PathError Part α

section Runs

variable {σ α β : Type}

theorem lift_some (a : α) : (liftM (Part.some a) : Run α) = pure a :=
  liftM_pure a

theorem throw_bind (e : PathError) (f : α → Run β) : (throw e : Run α) >>= f = throw e :=
  Part.bind_some _ _

/-- How a loop goes on after a round. -/
def verdict : Except PathError (α ⊕ σ) → Except PathError α ⊕ σ
  | .error e => .inl (.error e)
  | .ok (.inl a) => .inl (.ok a)
  | .ok (.inr next) => .inr next

/-- Repeats a round until it breaks or fails. -/
def again (round : σ → Run (α ⊕ σ)) : σ → Run α :=
  loop fun s => verdict <$> (round s).run

theorem again_eq (round : σ → Run (α ⊕ σ)) (s : σ) :
    again round s = round s >>= Sum.elim pure (again round) := by
  have hloop := loop_eq (fun s => verdict <$> (round s).run) s
  rw [map_eq_pure_bind, bind_assoc] at hloop
  refine hloop.trans ?_
  show _ = (round s).run >>= _
  congr 1
  funext r
  rw [Part.pure_eq_some, some_bind]
  rcases r with e | a | next <;> rfl

end Runs

/-! ## Reading below an end -/

/-- The octet at an index, if the index is below an end. -/
def octetBelow (data : Text) (x stop : Nat) : Part (Option Char) :=
  if x < stop then some <$> octet data x else pure none

/-- The octets between two indices. -/
def octetsBetween (data : Text) (x stop : Nat) : Part Text :=
  .assert (x ≤ stop) fun _ => return (← octetsUpTo data stop).drop x

/-- The character that starts at an index. -/
def charAt (src : Text) (x : Nat) : Part Char :=
  return (← slice src x (Text.byteLength src)).headD '\x00'

/-! ## Parts of a text -/

theorem skip_skip (p : Place) (m n : Nat) : (p.skip m).skip n = p.skip (m + n) := by
  rw [Place.skip, Place.skip, Place.skip, List.take_add, Text.byteLength_append, List.drop_drop,
    Nat.add_assoc]

/-- A place as the part of `t` that starts there and comes before the index `stop`. -/
structure IsPart (t : Text) (stop : Nat) (p : Place) : Prop where
  standsAt : StandsAt t p.rest p.offset
  finish_eq : p.finish = stop

theorem byteLength_beq_zero (t : Text) : (Text.byteLength t == 0) = t.isEmpty := by
  cases t with
  | nil => rfl
  | cons c t =>
      have hpos := c.utf8Size_pos
      refine beq_false_of_ne ?_
      rw [Text.byteLength_cons]
      omega

/-- A place is moved by nothing else than characters. -/
theorem beq_offset_skip (p : Place) (n : Nat) :
    ((p.skip n).offset == p.offset) = (p.rest.take n).isEmpty := by
  rw [← byteLength_beq_zero, Bool.eq_iff_iff, beq_iff_eq, beq_iff_eq, Place.skip]
  exact Nat.add_eq_left

/-- A part is empty where its indices are the same. -/
theorem beq_finish (p : Place) : (p.offset == p.finish) = p.rest.isEmpty := by
  rw [← byteLength_beq_zero, Bool.eq_iff_iff, beq_iff_eq, beq_iff_eq, Place.finish, eq_comm]
  exact Nat.add_eq_left

theorem offset_skip_one {p : Place} {c : Char} {rest : Text} (hp : p.rest = c :: rest)
    (hc : c.toNat < 0x80) : (p.skip 1).offset = p.offset + 1 := by
  obtain ⟨hnext, -⟩ := offset_skip_succ (p := p) (n := 0) hp
  rw [utf8Size_of_lt hc] at hnext
  exact hnext

namespace IsPart

variable {t : Text} {stop : Nat} {p q : Place}

theorem start (t : Text) : IsPart t (Text.byteLength t) (Place.start t) :=
  ⟨standsAt_self t, Nat.zero_add _⟩

/-- What is left of a part ends where the part does. -/
theorem skip (h : IsPart t stop p) (n : Nat) : IsPart t stop (p.skip n) := by
  obtain ⟨⟨before, after, ht, hoffset⟩, hfinish⟩ := h
  have hrest : p.rest = p.rest.take n ++ p.rest.drop n := (List.take_append_drop n _).symm
  constructor
  · refine ⟨before ++ p.rest.take n, after, ?_, ?_⟩
    · rw [List.append_assoc, ← List.append_assoc _ _ after]
      exact hrest ▸ ht
    · rw [Text.byteLength_append, ← hoffset]
      rfl
  · rw [← hfinish, Place.finish, Place.finish, Place.skip, Nat.add_assoc, ← Text.byteLength_append,
      ← hrest]

theorem skipWhile (h : IsPart t stop p) (c : Char → Bool) : IsPart t stop (p.skipWhile c) :=
  h.skip _

theorem offset_le (h : IsPart t stop p) : p.offset ≤ stop := by
  rw [← h.finish_eq]
  exact Nat.le_add_right _ _

theorem stop_le (h : IsPart t stop p) : stop ≤ Text.byteLength t := by
  obtain ⟨⟨before, after, rfl, hoffset⟩, rfl⟩ := h
  rw [Text.byteLength_append, Text.byteLength_append, Place.finish, hoffset]
  omega

theorem offset_le_byteLength (h : IsPart t stop p) : p.offset ≤ Text.byteLength t :=
  Nat.le_trans h.offset_le h.stop_le

theorem offset_lt (h : IsPart t stop p) (hp : p.rest ≠ []) : p.offset < stop := by
  obtain ⟨c, rest, hrest⟩ := List.exists_cons_of_ne_nil hp
  have hpos := c.utf8Size_pos
  rw [← h.finish_eq, Place.finish, hrest, Text.byteLength_cons]
  omega

theorem offset_eq (h : IsPart t stop p) (hp : p.rest = []) : p.offset = stop := by
  rw [← h.finish_eq, Place.finish, hp]
  rfl

/-- A later place of a part is the same one where it has the same index. -/
theorem offset_le_iff (hp : IsPart t stop p) (hq : IsPart t stop q) (hsuffix : q.rest <:+ p.rest) :
    q.offset ≤ p.offset ↔ q.rest.length = p.rest.length := by
  obtain ⟨front, hfront⟩ := hsuffix
  have hsame := hp.finish_eq.trans hq.finish_eq.symm
  rw [Place.finish, Place.finish, ← hfront, Text.byteLength_append] at hsame
  rw [← hfront, List.length_append]
  cases front with
  | nil =>
      rw [Text.byteLength_nil] at hsame
      rw [List.length_nil]
      omega
  | cons c front =>
      have hpos := c.utf8Size_pos
      rw [Text.byteLength_cons] at hsame
      rw [List.length_cons]
      omega

/-- The part between two places of a part. -/
theorem upTo (hp : IsPart t stop p) (hq : IsPart t stop q) (hsuffix : q.rest <:+ p.rest) :
    IsPart t q.offset (p.upTo q) := by
  obtain ⟨front, hfront⟩ := hsuffix
  have hoffset : q.offset = p.offset + Text.byteLength front := by
    have hsame := hp.finish_eq.trans hq.finish_eq.symm
    rw [Place.finish, Place.finish, ← hfront, Text.byteLength_append] at hsame
    omega
  have hpart : p.upTo q = ⟨p.offset, front⟩ := by
    rw [Place.upTo, ← hfront, List.length_append, Nat.add_sub_cancel, List.take_left]
  obtain ⟨before, after, ht, hbefore⟩ := hp.standsAt
  rw [hpart]
  refine ⟨⟨before, q.rest ++ after, ?_, hbefore⟩, hoffset.symm⟩
  rw [ht, ← hfront, List.append_assoc]

/-- A part without the space around it is a part. -/
theorem trim (h : IsPart t stop p) (c : Char → Bool) :
    IsPart t (p.trim c).finish (p.trim c) := by
  obtain ⟨before, after, ht, hbefore⟩ := (h.skipWhile c).standsAt
  obtain ⟨space, hspace⟩ : (p.trim c).rest <+: (p.skipWhile c).rest :=
    List.rdropWhile_prefix c _
  refine ⟨⟨before, space ++ after, ?_, hbefore⟩, rfl⟩
  rw [ht, ← hspace, List.append_assoc]

/-! ### What is read of a part -/

/-- The octets of a part are the last ones before the index where it stops. -/
theorem ends (h : IsPart t stop p) : Ends (t.asOctets.take stop) p.offset p.rest := by
  obtain ⟨⟨before, after, rfl, hoffset⟩, rfl⟩ := h
  have hlength : (before.asOctets ++ p.rest.asOctets).length = p.finish := by
    rw [List.length_append, Text.length_asOctets, Text.length_asOctets, ← hoffset]
    rfl
  refine ⟨before.asOctets, ?_, ?_⟩
  · rw [Text.asOctets_append, Text.asOctets_append, ← List.append_assoc, ← hlength, List.take_left]
  · rw [Text.length_asOctets, hoffset]

theorem stop_le_length (h : IsPart t stop p) : stop ≤ t.asOctets.length := by
  rw [Text.length_asOctets]
  exact h.stop_le

theorem length_take (h : IsPart t stop p) : (t.asOctets.take stop).length = stop :=
  List.length_take_of_le h.stop_le_length

theorem getElem?_past (h : IsPart t stop p) {x : Nat} (hx : stop ≤ x) :
    (t.asOctets.take stop)[x]? = none :=
  List.getElem?_eq_none (h.length_take.symm ▸ hx)

theorem getElem?_of_take {x : Nat} {o : Char} (hx : (t.asOctets.take stop)[x]? = some o) :
    t.asOctets[x]? = some o := by
  obtain ⟨hlt, rfl⟩ := List.getElem?_eq_some_iff.1 hx
  rw [List.getElem_take]
  exact List.getElem?_eq_getElem _

theorem octetsUpTo (h : IsPart t stop p) :
    octetsUpTo t.asOctets stop = .some (t.asOctets.take stop) :=
  Part.assert_pos h.stop_le_length

theorem octetBelow (h : IsPart t stop p) (x : Nat) :
    octetBelow t.asOctets x stop = .some (t.asOctets.take stop)[x]? := by
  have hle := h.stop_le_length
  rw [Indexed.octetBelow, List.getElem?_take]
  by_cases hx : x < stop
  · rw [if_pos hx, if_pos hx, List.getElem?_eq_getElem (Nat.lt_of_lt_of_le hx hle),
      octet_eq (List.getElem?_eq_getElem (Nat.lt_of_lt_of_le hx hle))]
    rfl
  · rw [if_neg hx, if_neg hx]
    rfl

/-- The octet at the end of a part, and the first octet of a character. -/
theorem octet_nil (h : IsPart t stop p) (hp : p.rest = []) :
    Indexed.octetBelow t.asOctets p.offset stop = .some none := by
  rw [h.octetBelow, h.getElem?_past (Nat.le_of_eq (h.offset_eq hp).symm)]

theorem octet_cons (h : IsPart t stop p) {c : Char} {rest : Text} (hp : p.rest = c :: rest) :
    ∃ o, Indexed.octetBelow t.asOctets p.offset stop = .some (some o) ∧
      ∀ {f : Char → Bool}, IsLow f → f o = f c := by
  have hholds := h.ends.holds
  rw [hp] at hholds
  obtain ⟨o, ho, hclass⟩ := hholds.exists_octet
  exact ⟨o, by rw [h.octetBelow, ho], hclass⟩

/-- Where a part has characters left, an octet can be read without looking at the end. -/
theorem octet (h : IsPart t stop p) {c : Char} {rest : Text} (hp : p.rest = c :: rest) :
    ∃ o, Indexed.octet t.asOctets p.offset = .some o ∧
      ∀ {f : Char → Bool}, IsLow f → f o = f c := by
  have hholds := h.ends.holds
  rw [hp] at hholds
  obtain ⟨o, ho, hclass⟩ := hholds.exists_octet
  exact ⟨o, octet_eq (getElem?_of_take ho), hclass⟩

theorem beq_stop (h : IsPart t stop p) : (p.offset == stop) = p.rest.isEmpty := by
  rw [← beq_finish, h.finish_eq]

/-- Whether a mark comes next. -/
theorem octet_beq (h : IsPart t stop p) {c : Char} (hc : c.toNat < 0x80) :
    ∃ o, Indexed.octetBelow t.asOctets p.offset stop = .some o ∧
      (o == some c) = (p.rest.head? == some c) :=
  ⟨_, h.octetBelow _, h.ends.beq_getElem? hc⟩

theorem octetsBetween (h : IsPart t stop p) :
    octetsBetween t.asOctets p.offset stop = .some p.rest.asOctets := by
  obtain ⟨before, hends, hbefore⟩ := h.ends
  rw [Indexed.octetsBetween, Part.assert_pos h.offset_le, h.octetsUpTo, some_bind, hends,
    ← hbefore, List.drop_left]
  rfl

theorem octetsBetween_of_octet (h : IsPart t stop p) {x : Nat} {o : Char}
    (hx : (t.asOctets.take stop)[x]? = some o) :
    Indexed.octetsBetween t.asOctets x stop =
      .some (o :: (t.asOctets.take stop).drop (x + 1)) := by
  have hlt := lt_of_getElem? hx
  rw [h.length_take] at hlt
  obtain ⟨hlength, rfl⟩ := List.getElem?_eq_some_iff.1 hx
  rw [Indexed.octetsBetween, Part.assert_pos (Nat.le_of_lt hlt), h.octetsUpTo, some_bind,
    List.drop_eq_getElem_cons hlength]
  rfl

/-- A part is read between the two indices it is given by. -/
theorem slice (h : IsPart t stop p) : slice t p.offset stop = .some p.rest :=
  slice_eq_some_iff.2 ⟨h.standsAt, h.finish_eq.symm⟩

theorem slice_upTo (hp : IsPart t stop p) (hq : IsPart t stop q) (hsuffix : q.rest <:+ p.rest) :
    Indexed.slice t p.offset q.offset = .some (p.upTo q).rest :=
  (hp.upTo hq hsuffix).slice

theorem slice_take (h : IsPart t stop p) (n : Nat) :
    Indexed.slice t p.offset (p.skip n).offset = .some (p.rest.take n) := by
  obtain ⟨before, after, ht, hbefore⟩ := h.standsAt
  refine slice_eq_some_iff.2 ⟨⟨before, p.rest.drop n ++ after, ?_, hbefore⟩, rfl⟩
  rw [ht, ← List.append_assoc (p.rest.take n), List.take_append_drop]

/-- A value that has been read is what stands between the indices where it starts and stops. -/
theorem slice_value? (h : IsPart t stop p) {v : Json.Occurrence} (hv : p.value? = some (v, q)) :
    Indexed.slice t p.offset q.offset = .some v.raw ∧ IsPart t stop q := by
  obtain ⟨-, -, hrest, rfl⟩ := Place.eq_of_value? hv
  refine ⟨?_, h.skip _⟩
  rw [h.slice_take, hrest, List.take_left]

theorem slice_literal? (h : IsPart t stop p) {v : Json.Occurrence} (hv : p.literal? = some (v, q)) :
    Indexed.slice t p.offset q.offset = .some v.raw ∧ IsPart t stop q := by
  obtain ⟨-, -, hrest, rfl⟩ := Place.eq_of_literal? hv
  refine ⟨?_, h.skip _⟩
  rw [h.slice_take, hrest, List.take_left]

theorem charAt (h : IsPart t stop p) {c : Char} {rest : Text} (hp : p.rest = c :: rest) :
    charAt t p.offset = .some c := by
  obtain ⟨before, after, ht, hbefore⟩ := h.standsAt
  have hstands : StandsAt t (p.rest ++ after) p.offset :=
    ⟨before, [], by rw [List.append_nil, ht], hbefore⟩
  have hlength : Text.byteLength t = p.offset + Text.byteLength (p.rest ++ after) := by
    rw [ht, Text.byteLength_append before, hbefore]
  rw [Indexed.charAt, slice_eq_some_iff.2 ⟨hstands, hlength⟩, some_bind, hp]
  rfl

/--
What ignores octets that are no ASCII gets past a backslash and the octet after it to the place
behind the character that is protected, or to the end if there is none.
-/
theorem jump_backslash {β : Type} (h : IsPart t stop p) {rest : Text} (hp : p.rest = '\\' :: rest)
    (g : Nat → β) (hpast : ∀ x, stop ≤ x → g x = g stop)
    (hhigh : ∀ x o, (t.asOctets.take stop)[x]? = some o → 0x80 ≤ o.toNat → g x = g (x + 1)) :
    g (p.offset + 2) = g (p.skip 2).offset := by
  obtain ⟨hescape, hdrop⟩ := offset_skip_succ (p := p) (n := 0) hp
  have hafter : (p.skip 1).offset = p.offset + 1 := hescape
  cases rest with
  | nil =>
      -- The last backslash of a part is skipped with an octet that is not there.
      have hlast := (h.skip 1).offset_eq hdrop
      have hnil : (p.skip 2).rest = [] := by
        rw [Place.skip, hp]
        rfl
      rw [hpast _ (by omega), (h.skip 2).offset_eq hnil]
  | cons d rest =>
      obtain ⟨hprotected, -⟩ := offset_skip_succ hdrop
      have hjump := (ends_skip h.ends hdrop).holds.jump g fun x o _ ho => hhigh x o ho
      rw [← hprotected, hafter] at hjump
      exact hjump

end IsPart

/-! ## Doing the same as a reading -/

section Mirrors

variable {α β γ δ : Type}

/--
A run does what a reading of `t` does: it gives what is seen of the result, which is good, or the
same error, which reports no position behind the end.
-/
inductive Mirrors (t : Text) (view : β → α) (good : β → Prop) :
    Run α → Except PathError β → Prop where
  | ok {b : β} : good b → Mirrors t view good (pure (view b)) (.ok b)
  | error {e : PathError} : e.Within (Text.byteLength t) → Mirrors t view good (throw e) (.error e)

namespace Mirrors

variable {t : Text} {view : β → α} {good : β → Prop} {run : Run α} {reading : Except PathError β}

theorem cases (h : Mirrors t view good run reading) :
    (∃ e, run = throw e ∧ reading = .error e ∧ e.Within (Text.byteLength t)) ∨
      ∃ b, run = pure (view b) ∧ reading = .ok b ∧ good b := by
  cases h with
  | ok hb => exact .inr ⟨_, rfl, rfl, hb⟩
  | error he => exact .inl ⟨_, rfl, rfl, he⟩

/-- A step of the run for a step of the reading. -/
theorem bind {view' : δ → γ} {good' : δ → Prop} (h : Mirrors t view good run reading)
    {f : α → Run γ} {g : β → Except PathError δ}
    (hfg : ∀ b, good b → Mirrors t view' good' (f (view b)) (g b)) :
    Mirrors t view' good' (run >>= f) (reading >>= g) := by
  cases h with
  | ok hb =>
      rw [pure_bind]
      exact hfg _ hb
  | error he =>
      rw [throw_bind]
      exact .error he

/-- A run that is over after this step. -/
theorem map {view' : δ → γ} {good' : δ → Prop} (h : Mirrors t view good run reading)
    {f : α → γ} {g : β → δ} (hview : ∀ b, view' (g b) = f (view b))
    (hgood : ∀ b, good b → good' (g b)) :
    Mirrors t view' good' (run >>= fun a => pure (f a)) (reading.map g) := by
  cases h with
  | ok hb =>
      rw [pure_bind, ← hview]
      exact .ok (hgood _ hb)
  | error he =>
      rw [throw_bind]
      exact .error he

theorem mono {good' : β → Prop} (h : Mirrors t view good run reading)
    (hgood : ∀ b, good b → good' b) : Mirrors t view good' run reading := by
  cases h with
  | ok hb => exact .ok (hgood _ hb)
  | error he => exact .error he

/-- The same run, when other parts of the result are seen. -/
theorem regard {view' : γ → α} {good' : γ → Prop} (h : Mirrors t view good run reading)
    {g : β → γ} (hview : ∀ b, view' (g b) = view b) (hgood : ∀ b, good b → good' (g b)) :
    Mirrors t view' good' run (reading.map g) := by
  cases h with
  | ok hb =>
      rw [← hview]
      exact .ok (hgood _ hb)
  | error he => exact .error he

/-- A choice that both make. -/
theorem ite {c : Prop} [Decidable c] {other : Run α} {reading' : Except PathError β}
    (h : c → Mirrors t view good run reading) (h' : ¬ c → Mirrors t view good other reading') :
    Mirrors t view good (if c then run else other) (if c then reading else reading') := by
  split
  · next hc => exact h hc
  · next hc => exact h' hc

/-- The run is defined, and its outcome is that of the reading. -/
theorem run_eq (h : Mirrors t view good run reading) : run.run = .some (reading.map view) := by
  cases h <;> rfl

theorem within (h : Mirrors t view good run reading) {e : PathError} (he : reading = .error e) :
    e.Within (Text.byteLength t) := by
  cases h with
  | ok => cases he
  | error hwithin =>
      cases he
      exact hwithin

end Mirrors

end Mirrors

end Indexed

end DotPath
