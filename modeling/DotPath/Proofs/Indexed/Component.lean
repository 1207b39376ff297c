import DotPath.Proofs.Indexed.Delimit
import DotPath.Proofs.Path.Component

/-!
# Components by index

The readers of components without paths inside, between two indices of a path: plain keys and
positions, transformers with their arguments, and literals. What they cut out of the path is cut out
by index, so both ends have to lie between characters.

## Main results

* `plain_reads`, `transform_reads`, `literal_reads`: they read what the readers on places read.
-/

namespace DotPath.Indexed

open Json

/-! ## The readers -/

/-- Reads a plain component. -/
def plain (src : Text) (pos stop : Nat) : Run (Segment × Nat) := do
  let next ← scanPlain src.asOctets pos stop
  let raw ← slice src pos next
  if raw.isEmpty then throw (.emptySegment pos) else return (plainSegment raw, next)

/-- Fails unless a component may end at an index. -/
def expectSeparator (src : Text) (x stop : Nat) : Run Unit := do
  match ← octetBelow src.asOctets x stop with
  | none => return ()
  | some c =>
    if isSeparator c then return () else throw (.unexpectedChar (← charAt src x) x)

/-- Reads an argument as a plain component. -/
def plainArgument (src : Text) (start stop : Nat) : Run (Text × Nat) := do
  let next ← scanPlain src.asOctets start stop
  return (unescapeComponent (← slice src start next), next)

/-- Reads the argument of a transformer. -/
def argument (src : Text) (start stop : Nat) : Run (Text × Nat) := do
  let bounded ← octetsUpTo src.asOctets stop
  match ← octetBelow src.asOctets start stop with
  | none => return ([], start)
  | some c =>
    if isOpening c || c == '"' then
      match ← locate bounded start with
      | none => throw (if c == '"' then .unclosedString start else .unbalanced start stop)
      | some span =>
        expectSeparator src span.stop stop
        return (← slice src start span.stop, span.stop)
    else
      match ← locate bounded start with
      | none => plainArgument src start stop
      | some span =>
        if (← octetBelow src.asOctets span.stop stop).all isSeparator then
          return (← slice src start span.stop, span.stop)
        else plainArgument src start stop

/-- Reads a transformer, from its at sign on. -/
def transform (src : Text) (pos stop : Nat) : Run (Segment × Nat) := do
  let nameStop ← pass src.asOctets (!endsName ·) (pos + 1) stop
  if nameStop == pos + 1 then throw (.emptySegment pos)
  else
    let name ← slice src (pos + 1) nameStop
    if (← octetBelow src.asOctets nameStop stop) == some ':' then
      let (text, next) ← argument src (nameStop + 1) stop
      return (.transform name (some text) (← slice src pos next), next)
    else return (.transform name none (← slice src pos nameStop), nameStop)

/-- Reads a literal, from its exclamation mark on. -/
def literal (src : Text) (pos stop : Nat) : Run (Segment × Nat) := do
  match ← locate (← octetsUpTo src.asOctets stop) (pos + 1) with
  | none => throw (.invalidLiteral pos)
  | some span =>
    if (← octetBelow src.asOctets span.stop stop).all isSeparator then
      return (.literal (← slice src span.start span.stop), span.stop)
    else throw (.invalidLiteral pos)

/-! ## What they read -/

/-- A reader by index reads what a reader on places reads, and gets as far. -/
abbrev Reads (t : Text) (stop : Nat) {α : Type} : Run (α × Nat) → Reading α → Prop :=
  Mirrors t (fun r => (r.1, r.2.offset)) fun r => IsPart t stop r.2

variable {t : Text} {stop : Nat} {p q : Place}

theorem reads_ok {α : Type} (a : α) (h : IsPart t stop q) :
    Reads t stop (pure (a, q.offset)) (.ok (a, q)) :=
  Mirrors.ok (b := (a, q)) h

theorem reads_map {α β : Type} (f : α → β) {run : Run (α × Nat)} {reading : Reading α}
    (h : Reads t stop run reading) :
    Reads t stop (run >>= fun r => pure (f r.1, r.2)) (reading.map fun r => (f r.1, r.2)) :=
  h.map (fun _ => rfl) fun _ hr => hr

/-- A plain component of some length has characters. -/
theorem isEmpty_take_plainLength {u : Text} (h : plainLength u ≠ 0) :
    (u.take (plainLength u)).isEmpty = false := by
  obtain ⟨n, hn⟩ := Nat.exists_eq_succ_of_ne_zero h
  cases u with
  | nil => cases hn
  | cons c u =>
      rw [hn]
      rfl

theorem plain_reads (h : IsPart t stop p) :
    Reads t stop (plain t p.offset stop) (readPlain p) := by
  rw [plain, scanPlain_eq h, lift_some, pure_bind, h.slice_take, lift_some, pure_bind, readPlain]
  have hsome := isEmpty_take_plainLength (u := p.rest)
  cases hn : plainLength p.rest with
  | zero => exact .error h.offset_le_byteLength
  | succ n =>
      rw [hn] at hsome
      rw [hsome (Nat.succ_ne_zero n)]
      exact reads_ok _ (h.skip _)

theorem plainArgument_reads (h : IsPart t stop p) :
    Reads t stop (plainArgument t p.offset stop)
      (.ok (unescapeComponent (p.rest.take (plainLength p.rest)), p.skip (plainLength p.rest))) := by
  rw [plainArgument, scanPlain_eq h, lift_some, pure_bind, h.slice_take, lift_some, pure_bind]
  exact reads_ok _ (h.skip _)

/-- The indices of a value that has been located. -/
theorem locate_part (h : IsPart t stop p) :
    locate (t.asOctets.take stop) p.offset = .some (p.value?.map fun r => .of r.1) :=
  locate_eq h.ends

theorem all_octet (h : IsPart t stop p) :
    ∃ o, octetBelow t.asOctets p.offset stop = .some o ∧ o.all isSeparator = endsComponent p := by
  cases hrest : p.rest with
  | nil => exact ⟨none, h.octet_nil hrest, by rw [endsComponent, hrest]; rfl⟩
  | cons c rest =>
      obtain ⟨o, ho, hclass⟩ := h.octet_cons hrest
      refine ⟨some o, ho, ?_⟩
      rw [endsComponent, hrest]
      exact hclass isLow_isSeparator

theorem expectSeparator_nil (h : IsPart t stop p) (hp : p.rest = []) :
    expectSeparator t p.offset stop = pure () := by
  rw [expectSeparator, h.octet_nil hp, lift_some, pure_bind]

theorem expectSeparator_cons (h : IsPart t stop p) {c : Char} {rest : Text}
    (hp : p.rest = c :: rest) : expectSeparator t p.offset stop =
      if isSeparator c then pure () else throw (.unexpectedChar c p.offset) := by
  obtain ⟨o, ho, hclass⟩ := h.octet_cons hp
  rw [expectSeparator, ho, lift_some, pure_bind, ← hclass isLow_isSeparator, h.charAt hp,
    lift_some, pure_bind]

theorem argument_reads (h : IsPart t stop p) :
    Reads t stop (argument t p.offset stop) (readArgument p) := by
  rw [argument, h.octetsUpTo, lift_some, pure_bind, readArgument]
  cases hrest : p.rest with
  | nil =>
      rw [h.octet_nil hrest, lift_some, pure_bind]
      exact reads_ok _ h
  | cons c rest =>
      obtain ⟨o, ho, hclass⟩ := h.octet_cons hrest
      have hquote : (o == '"') = (c == '"') := hclass (isLow_beq (by decide))
      have hplain := plainArgument_reads h
      rw [hrest] at hplain
      rw [ho, lift_some, pure_bind]
      dsimp only
      rw [hclass isLow_isOpening, hquote, locate_part h, lift_some, pure_bind, pure_bind]
      split
      · cases hv : p.value? with
        | none =>
            rw [h.finish_eq]
            refine Mirrors.error ?_
            split
            · exact h.offset_le_byteLength
            · exact ⟨h.offset_le_byteLength, h.stop_le⟩
        | some r =>
            obtain ⟨v, q⟩ := r
            obtain ⟨hslice, hq⟩ := h.slice_value? hv
            dsimp only [Option.map_some]
            rw [stop_of_value? hv]
            cases hafter : q.rest with
            | nil =>
                rw [expectSeparator_nil hq hafter, pure_bind, hslice, lift_some, pure_bind]
                exact reads_ok _ hq
            | cons d rest =>
                rw [expectSeparator_cons hq hafter]
                dsimp only [List.head?_cons]
                split
                · rw [pure_bind, hslice, lift_some, pure_bind]
                  exact reads_ok _ hq
                · rw [throw_bind]
                  exact .error hq.offset_le_byteLength
      · cases hv : p.value? with
        | none => exact hplain
        | some r =>
            obtain ⟨v, q⟩ := r
            obtain ⟨hslice, hq⟩ := h.slice_value? hv
            obtain ⟨d, hd, hends⟩ := all_octet hq
            dsimp only [Option.map_some]
            rw [stop_of_value? hv, hd, lift_some, pure_bind, hends, hslice, lift_some, pure_bind]
            split
            · exact reads_ok _ hq
            · exact hplain

theorem isLow_endsName : IsLow endsName :=
  (isLow_beq (by decide)).or isLow_isSeparator

theorem transform_reads (h : IsPart t stop p) {rest : Text} (hp : p.rest = '@' :: rest) :
    Reads t stop (transform t p.offset stop) (readTransform p) := by
  have hsign := h.skip 1
  have hindex : (p.skip 1).offset = p.offset + 1 := offset_skip_one hp (by decide)
  obtain ⟨name, hname⟩ : ∃ name, (p.skip 1).rest.takeWhile (!endsName ·) = name := ⟨_, rfl⟩
  have hskip : (p.skip 1).skipWhile (!endsName ·) = (p.skip 1).skip name.length := by
    rw [Place.skipWhile, hname]
  have hpass := pass_eq isLow_endsName.isClass_not hsign
  rw [hskip] at hpass
  have htake : (p.skip 1).rest.take name.length = name := by
    rw [← hname]
    exact (List.prefix_iff_eq_take.1 (List.takeWhile_prefix _)).symm
  have hslice := hsign.slice_take name.length
  have hmoved := beq_offset_skip (p.skip 1) name.length
  rw [htake] at hslice hmoved
  rw [transform, ← hindex, hpass, lift_some, pure_bind, hmoved]
  by_cases hne : name = []
  · subst hne
    rw [List.isEmpty_nil, if_pos rfl, readTransform]
    dsimp only
    rw [hname]
    exact .error h.offset_le_byteLength
  · have hafter := hsign.skip name.length
    have hsuffix : ((p.skip 1).skip name.length).rest <:+ p.rest :=
      (Place.suffix_skip _ _).trans (Place.suffix_skip p 1)
    rw [readTransform_eq hname hne, List.isEmpty_eq_false_iff.2 hne, if_neg Bool.false_ne_true,
      hslice, lift_some, pure_bind]
    generalize (p.skip 1).skip name.length = after at hafter hsuffix
    obtain ⟨o, ho, hcolon⟩ := hafter.octet_beq (c := ':') (by decide)
    rw [ho, lift_some, pure_bind, hcolon]
    by_cases hhead : after.rest.head? = some ':'
    · obtain ⟨u, hu⟩ := List.head?_eq_some_iff.1 hhead
      have hargument := argument_reads (hafter.skip 1)
      rw [offset_skip_one hu (by decide)] at hargument
      rw [hhead, beq_self_eq_true, if_pos rfl, hu]
      dsimp only
      rcases hargument.cases with ⟨e, hrun, hread, he⟩ | ⟨⟨text, q⟩, hrun, hread, hq⟩
      · rw [hrun, hread, throw_bind]
        exact .error he
      · have hbehind := ((readArgument_keeps hread).suffix.trans (Place.suffix_skip _ 1)).trans hsuffix
        rw [hrun, hread, pure_bind]
        dsimp only
        rw [h.slice_upTo hq hbehind, lift_some, pure_bind]
        exact reads_ok _ hq
    · rw [beq_false_of_ne hhead, if_neg Bool.false_ne_true, h.slice_upTo hafter hsuffix, lift_some,
        pure_bind]
      split
      · next u hu => exact absurd (by rw [hu]; rfl) hhead
      · exact reads_ok _ hafter

theorem literal_reads (h : IsPart t stop p) {rest : Text} (hp : p.rest = '!' :: rest) :
    Reads t stop (literal t p.offset stop) (readLiteral p) := by
  have hmark := h.skip 1
  rw [literal, h.octetsUpTo, lift_some, pure_bind, ← offset_skip_one hp (by decide),
    locate_part hmark, lift_some, pure_bind, readLiteral]
  cases hv : (p.skip 1).value? with
  | none => exact .error h.offset_le_byteLength
  | some r =>
      obtain ⟨v, q⟩ := r
      obtain ⟨hslice, hq⟩ := hmark.slice_value? hv
      obtain ⟨d, hd, hends⟩ := all_octet hq
      obtain ⟨-, hoffset, -⟩ := Place.eq_of_value? hv
      have hstart : (Span.of v).start = (p.skip 1).offset := hoffset
      dsimp only [Option.map_some]
      rw [stop_of_value? hv, hd, lift_some, pure_bind, hends, hstart, hslice, lift_some, pure_bind]
      split
      · exact reads_ok _ hq
      · exact .error h.offset_le_byteLength

end DotPath.Indexed
