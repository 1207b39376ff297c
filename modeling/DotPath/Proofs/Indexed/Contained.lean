import DotPath.Proofs.Indexed.Masked
import DotPath.Proofs.Json.Nodes

/-!
# Containers are self-contained

A container ends where its brackets balance, whichever they are, while the scan for its items goes
by commas, colons and the one bracket that belongs to the first. In malformed octets the two do not
see the same. Still the scan does not leave the container: all that it passes over is in balance, so
that the bracket where the container ends is always ahead of it, and there it stops at the latest.
So the octets behind the container make no difference to it.

A scan for items is followed from place to place. What all these places have in common is `Inner`:
they are in the container, with its last bracket ahead, and the octets go on in the same way.

## Main definitions

* `Span.octets`: the octets of a value.
* `LaidOut`: values one behind the other, strictly between two indices.
* `Inner`: a place in a container that stands among other octets.

## Main results

* `Inner.slot?`, `Inner.value?`, `Inner.member?`: no step of a scan for items leaves the container.
* `laidOut_elementsFrom`, `laidOut_membersFrom`: so no item does.
* `container_of_text`: the items of a container in the octets of a text.
* `container_selfContained`: the items of a container in any octets.
-/

namespace DotPath.Indexed

open Json

/-! ## Values between two indices -/

/-- The same value behind more octets. -/
def Span.shift (s : Span) (octets : Nat) : Span :=
  ⟨s.kind, octets + s.start, octets + s.stop⟩

/-- The octets of a value. -/
def Span.octets (data : Text) (s : Span) : Text :=
  (data.take s.stop).drop s.start

theorem shift_of (v : Occurrence) (k : Nat) : (Span.of v).shift k = .of (v.shift k) := by
  rw [Span.of, Span.of, Span.shift, Occurrence.shift, Nat.add_assoc]

theorem map_shift_of (es : List Occurrence) (k : Nat) :
    (es.map Span.of).map (·.shift k) = es.map fun e => .of (e.shift k) := by
  rw [List.map_map]
  exact List.map_congr_left fun e _ => shift_of e k

theorem map_shift_spans (ms : List Member) (k : Nat) :
    (ms.map spans).map (Prod.map (·.shift k) (·.shift k)) = ms.map fun m => spans (m.shift k) := by
  rw [List.map_map]
  exact List.map_congr_left fun m _ => Prod.ext (shift_of m.key k) (shift_of m.value k)

/-- The key and the value of every member, in order. -/
def inOrder (members : List (Span × Span)) : List Span :=
  members.flatMap fun m => [m.1, m.2]

/-- Values strictly between two indices, with something between one and the next. -/
structure LaidOut (data : Text) (i j : Nat) (found : List Span) : Prop where
  between : ∀ s ∈ found, i < s.start ∧ s.start < s.stop ∧ s.stop < j
  apart : found.Pairwise fun s r => s.stop < r.start
  located : ∀ s ∈ found, locate data s.start = .some (some s)

section LaidOut

variable {data : Text} {i j : Nat}

theorem laidOut_nil : LaidOut data i j [] :=
  ⟨by simp, .nil, by simp⟩

/-- A value in front of others. -/
theorem LaidOut.cons {s : Span} {found : List Span} (h : LaidOut data s.stop j found)
    (hstart : i < s.start) (hstop : s.start < s.stop) (hend : s.stop < j)
    (hs : locate data s.start = .some (some s)) : LaidOut data i j (s :: found) := by
  refine ⟨fun r hr => ?_, List.pairwise_cons.2 ⟨fun r hr => (h.between r hr).1, h.apart⟩,
    fun r hr => ?_⟩
  · rcases List.mem_cons.1 hr with rfl | hr
    · exact ⟨hstart, hstop, hend⟩
    · obtain ⟨hafter, hrest⟩ := h.between r hr
      exact ⟨(hstart.trans hstop).trans hafter, hrest⟩
  · rcases List.mem_cons.1 hr with rfl | hr
    · exact hs
    · exact h.located r hr

end LaidOut

/-! ## Places in a container -/

/-- A place in a container, the octets of which stand in `data` behind `k` others. -/
structure Inner (data : Text) (k : Nat) (container tail : Text) (p : Place) : Prop where
  liesIn : p.LiesIn container
  isInside : p.IsInside
  ends : Ends data (k + p.offset) (p.rest ++ tail)

section Inner

variable {data container tail : Text} {k i : Nat} {p q : Place}

/-- The bracket that ends the container is still ahead. -/
theorem Inner.lt (h : Inner data k container tail p) : p.offset < Text.byteLength container := by
  obtain ⟨before, hcontainer, hoffset⟩ := h.liesIn
  have hrest := Text.byteLength_pos h.isInside.ne_nil
  rw [hcontainer, Text.byteLength_append, hoffset]
  omega

theorem Inner.skipSpace (h : Inner data k container tail p) :
    Inner data k container tail p.skipSpace := by
  obtain ⟨hembed, hinside⟩ := Place.skipSpace_embed k tail h.isInside
  have hends := ends_skipSpace (p := p.embed k tail) h.ends
  rw [hembed] at hends
  exact ⟨h.liesIn.skipSpace, hinside, hends⟩

theorem offset_le_skipSpace (p : Place) : p.offset ≤ p.skipSpace.offset :=
  Nat.le_add_right _ _

/-- A mark that is expected is passed over. -/
theorem Inner.expect? (h : Inner data k container tail p) {c : Char} (hc : c.toNat < 0x80)
    (hneutral : isNeutral c = true) (hq : p.expect? c = some q) :
    Inner data k container tail q ∧ p.offset < q.offset := by
  obtain ⟨hembed, hinside⟩ := Place.expect?_embed k tail h.isInside hneutral
  rw [hq, Option.map_some] at hembed
  obtain ⟨hoffset, hends⟩ := (expect_ends (p := p.embed k tail) h.ends hc).2 _ hembed
  refine ⟨⟨h.liesIn.expect? hq, hinside q hq, hends⟩, ?_⟩
  have hoffset : k + q.offset = k + p.offset + 1 := hoffset
  omega

/--
The next item begins in the container, behind an index where the one before it may have ended: a
comma is between them. No comma is in front of the first item, so the index is less from the start.
-/
theorem Inner.slot? (h : Inner data k container tail p) {closing : Char} {first : Bool}
    (hq : slot? closing first p = some q) (hi : i + first.toNat ≤ k + p.offset) :
    Inner data k container tail q ∧ i < k + q.offset := by
  have hle := offset_le_skipSpace p
  unfold Json.slot? at hq
  dsimp only at hq
  split at hq
  · cases hq
  · split at hq
    · cases hq
    · split at hq
      · next hfirst =>
          cases hq
          rw [hfirst, Bool.toNat_true] at hi
          exact ⟨h.skipSpace, by omega⟩
      · obtain ⟨r, hr, rfl⟩ := Option.map_eq_some_iff.1 hq
        obtain ⟨hinner, hlt⟩ := h.skipSpace.expect? (by decide) rfl hr
        have hle' := offset_le_skipSpace r
        exact ⟨hinner.skipSpace, by omega⟩

/-- A value is passed over, and is found at its own index. -/
theorem Inner.value? (h : Inner data k container tail p) {v : Occurrence}
    (hv : p.value? = some (v, q)) :
    Inner data k container tail q ∧ p.offset < q.offset ∧
      Span.of (v.shift k) = ⟨v.kind, k + p.offset, k + q.offset⟩ ∧
      locate data (k + p.offset) = .some (some (.of (v.shift k))) := by
  obtain ⟨hembed, hinside⟩ := Place.value?_embed k tail h.isInside
  rw [hv, Option.map_some] at hembed
  obtain ⟨hfills, hoffset, -, -⟩ := Place.eq_of_value? hv
  have hraw := Text.byteLength_pos hfills.ne_nil
  -- What is found in all octets is what is found from the same place in the container alone.
  have hlocate : locate data (k + p.offset) = _ := locate_eq (p := p.embed k tail) h.ends
  rw [hembed] at hlocate
  have hstop : v.offset + Text.byteLength v.raw = q.offset := stop_of_value? hv
  have hends := ends_of_value? (p := p.embed k tail) h.ends hembed
  refine ⟨⟨(h.liesIn.value? hv).2, hinside v q hv, hends⟩, by omega, ?_, hlocate⟩
  rw [Span.of, Occurrence.shift, hoffset, Nat.add_assoc, ← hoffset, hstop]

/-- So is a key. -/
theorem Inner.literal? (h : Inner data k container tail p) {v : Occurrence}
    (hv : p.literal? = some (v, q)) :
    Inner data k container tail q ∧ p.offset < q.offset ∧
      Span.of (v.shift k) = ⟨v.kind, k + p.offset, k + q.offset⟩ ∧
      locate data (k + p.offset) = .some (some (.of (v.shift k))) := by
  refine h.value? ?_
  rw [Place.literal?_eq] at hv
  split at hv
  · exact hv
  · cases hv

/-- A key and a value are passed over, with a colon between them. -/
theorem Inner.member? (h : Inner data k container tail p) {m : Member}
    (hm : member? p = some (m, q)) :
    Inner data k container tail q ∧ ∀ {i : Nat} {found : List Span}, i < k + p.offset →
      LaidOut data (k + q.offset) (k + Text.byteLength container) found →
        LaidOut data i (k + Text.byteLength container)
          (.of (m.key.shift k) :: .of (m.value.shift k) :: found) := by
  simp only [Json.member?, Option.bind_eq_bind, Option.bind_eq_some_iff, Prod.exists] at hm
  obtain ⟨key, a, hkey, b, hb, value, c, hvalue, heq⟩ := hm
  cases heq
  obtain ⟨ha, hlt, hspan, hlocate⟩ := h.literal? hkey
  obtain ⟨hinner, hcolon⟩ := ha.skipSpace.expect? (by decide) rfl hb
  obtain ⟨hc, hlt', hspan', hlocate'⟩ := hinner.skipSpace.value? hvalue
  have hspace := offset_le_skipSpace a
  have hspace' := offset_le_skipSpace b
  have hend := ha.lt
  have hend' := hc.lt
  rw [hspan] at hlocate ⊢
  rw [hspan'] at hlocate' ⊢
  refine ⟨hc, fun hi hfound => .cons (.cons hfound ?_ ?_ ?_ hlocate') hi ?_ ?_ hlocate⟩
  all_goals
    dsimp only
    omega

/-! ## Scans for items -/

/-- The elements stay in the container. -/
theorem laidOut_elementsFrom {first : Bool} (h : Inner data k container tail p)
    (hi : i + first.toNat ≤ k + p.offset) :
    LaidOut data i (k + Text.byteLength container)
      ((elementsFrom first p).map fun v => .of (v.shift k)) := by
  fun_induction elementsFrom first p generalizing i with
  | case1 => exact laidOut_nil
  | case2 => exact laidOut_nil
  | case3 first p q hs v next hv ih =>
      obtain ⟨hq, hstart⟩ := h.slot? hs hi
      obtain ⟨hnext, hstop, hspan, hlocate⟩ := hq.value? hv
      have hrest := ih hnext (Nat.le_refl _)
      have hend := hnext.lt
      rw [List.map_cons, hspan]
      rw [hspan] at hlocate
      exact .cons hrest hstart (Nat.add_lt_add_left hstop k) (Nat.add_lt_add_left hend k) hlocate

/-- So do the keys and values of the members. -/
theorem laidOut_membersFrom {first : Bool} (h : Inner data k container tail p)
    (hi : i + first.toNat ≤ k + p.offset) :
    LaidOut data i (k + Text.byteLength container)
      (inOrder ((membersFrom first p).map fun m => spans (m.shift k))) := by
  fun_induction membersFrom first p generalizing i with
  | case1 => exact laidOut_nil
  | case2 => exact laidOut_nil
  | case3 first p q hs m next hm ih =>
      obtain ⟨hq, hstart⟩ := h.slot? hs hi
      obtain ⟨hnext, hcons⟩ := hq.member? hm
      exact hcons hstart (ih hnext (Nat.le_refl _))

end Inner

/-! ## Containers in a text -/

section Container

variable {data : Text} {p q : Place} {v : Occurrence}

/-- The first place in a container that has been read. -/
theorem inner_of_value? (h : Ends data p.offset p.rest) (hv : p.value? = some (v, q))
    (hkind : v.kind = .container) :
    ∃ c run, v.raw = c :: run ∧ p.rest = c :: (run ++ q.rest) ∧
      Inner data p.offset v.raw q.rest ⟨1, run⟩ := by
  obtain ⟨hfills, -, hrest, -⟩ := Place.eq_of_value? hv
  rw [hkind] at hfills
  generalize hraw : v.raw = raw at hfills hrest
  cases hfills with
  | @container c run hc hrun =>
      have hsize := utf8Size_of_lt (isLow_isOpening c hc)
      have hends : Ends data (p.offset + 1) (run ++ q.rest) := by
        rw [hrest, List.cons_append] at h
        have htail := h.tail
        rwa [hsize] at htail
      refine ⟨c, run, rfl, hrest, ⟨[c], rfl, ?_⟩, hrun, hends⟩
      rw [Text.byteLength_cons, hsize]
      rfl

/-- The elements of a container, found in its text, are those of the container alone. -/
theorem elements_of_value? (h : Ends data p.offset p.rest) (hv : p.value? = some (v, q))
    (hkind : v.kind = .container) :
    elements data v.offset =
        .some ((Json.elements v.raw).map fun e => .of (e.shift v.offset)) ∧
      LaidOut data (Span.of v).start (Span.of v).stop
        ((Json.elements v.raw).map fun e => .of (e.shift v.offset)) := by
  obtain ⟨c, run, hraw, hrest, hinner⟩ := inner_of_value? h hv hkind
  obtain ⟨-, hoffset, -, -⟩ := Place.eq_of_value? hv
  obtain ⟨i, rest⟩ := p
  subst hoffset hrest
  rw [elements_place h]
  by_cases harray : c = '['
  · subst harray
    have hpart : elementsFrom true (Place.skip ⟨v.offset, '[' :: (run ++ q.rest)⟩ 1) =
        (Json.elements ('[' :: run)).map (·.shift v.offset) :=
      elementsFrom_part hinner.isInside v.offset q.rest
    have hopens : opensArray ('[' :: (run ++ q.rest)) = true := rfl
    constructor
    · rw [if_pos hopens, hpart, List.map_map, hraw]
      rfl
    · rw [hraw, elements_cons]
      exact laidOut_elementsFrom hinner (Nat.le_refl _)
  · have hnone : ∀ t : Text, opensArray (c :: t) = false := by
      simp [opensArray, harray]
    rw [hraw, Json.elements, hnone, hnone]
    exact ⟨rfl, laidOut_nil⟩

/-- The members of a container, found in its text, are those of the container alone. -/
theorem members_of_value? (h : Ends data p.offset p.rest) (hv : p.value? = some (v, q))
    (hkind : v.kind = .container) :
    members data v.offset =
        .some ((Json.members v.raw).map fun m => spans (m.shift v.offset)) ∧
      LaidOut data (Span.of v).start (Span.of v).stop
        (inOrder ((Json.members v.raw).map fun m => spans (m.shift v.offset))) := by
  obtain ⟨c, run, hraw, -, hinner⟩ := inner_of_value? h hv hkind
  obtain ⟨-, hoffset, -, -⟩ := Place.eq_of_value? hv
  obtain ⟨i, rest⟩ := p
  subst hoffset
  constructor
  · rw [members_place h, membersAt_eq hv, List.map_map]
    rfl
  · by_cases hobject : c = '\x7b'
    · subst hobject
      rw [hraw, members_cons]
      exact laidOut_membersFrom hinner (Nat.le_refl _)
    · have hnone : Json.members v.raw = [] := by
        rw [hraw, Json.members, membersAt]
        simp [opensObject, Place.start, hobject]
      rw [hnone]
      exact laidOut_nil

end Container

/-! ## Containers in octets -/

section Octets

variable {data t : Text} {x : Nat} {whole : Span}

/-- A value begins with an octet that is ASCII. -/
theorem octet_of_locate (h : locate data x = .some (some whole)) :
    ∃ c, data[x]? = some c ∧ c.toNat < 0x80 := by
  cases hx : data[x]? with
  | none =>
      rw [locate, hx] at h
      cases Part.some_injective h
  | some c =>
      refine ⟨c, rfl, ?_⟩
      by_contra hc
      have hhigh := Nat.le_of_not_lt hc
      have hother : ∀ {d : Char}, d.toNat < 0x80 → (c == d) = false := fun hd =>
        (isLow_beq hd).eq_false hhigh
      rw [locate, hx] at h
      dsimp only at h
      rw [isLow_isOpening.eq_false hhigh, hother (by decide), hother (by decide),
        hother (by decide), hother (by decide), hother (by decide),
        isLow_isDigit.eq_false hhigh] at h
      cases Part.some_injective h

/-- A container in the octets of a text is one in the text, and so are its items. -/
theorem container_of_text (h : locate t.asOctets x = .some (some whole))
    (hkind : whole.kind = .container) :
    ∃ v : Occurrence, v.IsIn t ∧ whole = .of v ∧ v.offset = x ∧
      (elements t.asOctets v.offset =
          .some ((Json.elements v.raw).map fun e => .of (e.shift v.offset)) ∧
        LaidOut t.asOctets (Span.of v).start (Span.of v).stop
          ((Json.elements v.raw).map fun e => .of (e.shift v.offset))) ∧
      members t.asOctets v.offset =
          .some ((Json.members v.raw).map fun m => spans (m.shift v.offset)) ∧
        LaidOut t.asOctets (Span.of v).start (Span.of v).stop
          (inOrder ((Json.members v.raw).map fun m => spans (m.shift v.offset))) := by
  obtain ⟨c, hoctet, hc⟩ := octet_of_locate h
  obtain ⟨rest, hp⟩ := exists_place_of_octet hoctet hc
  have hends := ends_of_liesIn hp
  have hlocate := (locate_eq hends).symm.trans h
  obtain ⟨⟨v, q⟩, hv, rfl⟩ := Option.map_eq_some_iff.1 (Part.some_injective hlocate)
  obtain ⟨-, hoffset, -, -⟩ := Place.eq_of_value? hv
  exact ⟨v, isIn_of_value? hp hv, rfl, hoffset, elements_of_value? hends hv hkind,
    members_of_value? hends hv hkind⟩

/-- The octets of a value are those of its text. -/
theorem octets_of {v : Occurrence} (h : StandsAt t v.raw v.offset) :
    (Span.of v).octets t.asOctets = v.raw.asOctets := by
  obtain ⟨before, after, rfl, hoffset⟩ := h
  have hbefore : (Text.asOctets before).length = v.offset :=
    (Text.length_asOctets before).trans hoffset.symm
  have hraw := Text.length_asOctets v.raw
  rw [Span.octets, Span.of, Text.asOctets_append, Text.asOctets_append]
  dsimp only
  rw [← hbefore, ← hraw, List.take_length_add_append, List.drop_left, List.take_left]

/-- A value ends where the octets end, or before. -/
theorem stop_le_length {v : Occurrence} (h : StandsAt t v.raw v.offset) :
    (Span.of v).stop ≤ t.asOctets.length := by
  obtain ⟨before, after, rfl, hoffset⟩ := h
  rw [Text.length_asOctets, Text.byteLength_append, Text.byteLength_append, Span.of]
  dsimp only
  omega

theorem octets_masked (s : Span) : (s.octets data).map mask = s.octets (data.map mask) := by
  rw [Span.octets, Span.octets, List.map_drop, List.map_take]

theorem LaidOut.of_masked {i j : Nat} {found : List Span} (h : LaidOut (data.map mask) i j found) :
    LaidOut data i j found := by
  refine ⟨h.between, h.apart, fun s hs => ?_⟩
  rw [← locate_masked]
  exact h.located s hs

/-- The items of a container in its own octets, when those that are no ASCII are masked. -/
theorem items_octets {v : Occurrence} (h : v.IsIn (data.map mask)) :
    elements ((Span.of v).octets data) 0 = .some ((Json.elements v.raw).map .of) ∧
      members ((Span.of v).octets data) 0 = .some ((Json.members v.raw).map spans) := by
  have hoctets : ((Span.of v).octets data).map mask = v.raw.asOctets := by
    rw [octets_masked, ← octets_of h.1, asOctets_masked]
  rw [← elements_masked, ← members_masked, hoctets]
  exact ⟨elements_eq v.raw, members_eq v.raw⟩

/--
In any octets, and however malformed a container in them is, the scans for its elements and members
come to an end, and find the same in all octets as in those of the container alone, but for the
octets before it. What they find lies strictly inside the container, one value behind the other,
and each is the value that is found at its own index. If the octets are those of a text, this is
what the scans of the text find in the container.
-/
theorem container_selfContained (h : locate data x = .some (some whole))
    (hkind : whole.kind = .container) :
    whole.start = x ∧ whole.stop ≤ data.length ∧
      (∃ es, elements (whole.octets data) 0 = .some es ∧
        elements data whole.start = .some (es.map (·.shift whole.start)) ∧
        LaidOut data whole.start whole.stop (es.map (·.shift whole.start))) ∧
      (∃ ms, members (whole.octets data) 0 = .some ms ∧
        members data whole.start =
          .some (ms.map (Prod.map (·.shift whole.start) (·.shift whole.start))) ∧
        LaidOut data whole.start whole.stop
          (inOrder (ms.map (Prod.map (·.shift whole.start) (·.shift whole.start))))) ∧
      ∀ t : Text, t.asOctets = data → ∃ v : Occurrence, v.IsIn t ∧ whole = .of v ∧
        elements data whole.start =
          .some ((Json.elements v.raw).map fun e => .of (e.shift v.offset)) ∧
        members data whole.start =
          .some ((Json.members v.raw).map fun m => spans (m.shift v.offset)) := by
  -- Masked, the octets are a text, and all that is found in them is where it was.
  have hmasked : locate (Text.asOctets (data.map mask)) x = .some (some whole) := by
    rw [asOctets_masked, locate_masked, h]
  obtain ⟨v, hv, rfl, hoffset, ⟨helements, hbetween⟩, hmembers, hbetween'⟩ :=
    container_of_text hmasked hkind
  have hstop := stop_le_length hv.1
  obtain ⟨hes, hms⟩ := items_octets hv
  rw [asOctets_masked, elements_masked, ← map_shift_of] at helements
  rw [asOctets_masked, members_masked, ← map_shift_spans] at hmembers
  rw [asOctets_masked, ← map_shift_of] at hbetween
  rw [asOctets_masked, ← map_shift_spans] at hbetween'
  rw [asOctets_masked, List.length_map] at hstop
  refine ⟨hoffset, hstop, ⟨_, hes, helements, hbetween.of_masked⟩,
    ⟨_, hms, hmembers, hbetween'.of_masked⟩, ?_⟩
  rintro t rfl
  obtain ⟨w, hw, hof, -, ⟨helements, -⟩, hmembers, -⟩ := container_of_text h hkind
  have hstart : (Span.of v).start = w.offset := congrArg Span.start hof
  rw [hstart]
  exact ⟨w, hw, hof, helements, hmembers⟩

end Octets

/-- Brackets that do not match and a comma that is missing, among octets that are no text. -/
def mismatched : Text :=
  "\xff[\x7b],7 8\x7d\xfe".toList

/-- Two elements are found, one of them a container; the third has no comma in front of it. -/
theorem container_selfContained_of_mismatched :
    locate mismatched 1 = .some (some ⟨.container, 1, 9⟩) ∧
      elements mismatched 1 = .some [⟨.container, 2, 4⟩, ⟨.number, 5, 6⟩] ∧
      LaidOut mismatched 1 9 [⟨.container, 2, 4⟩, ⟨.number, 5, 6⟩] := by
  have hplace : Place.LiesIn (mismatched.map mask) ⟨1, "[\x7b],7 8\x7d\x7f".toList⟩ :=
    ⟨['\x7f'], by decide, rfl⟩
  have hvalue : Place.value? ⟨1, "[\x7b],7 8\x7d\x7f".toList⟩ =
      some (⟨.container, 1, "[\x7b],7 8\x7d".toList⟩, ⟨9, ['\x7f']⟩) := by
    decide +kernel
  have hlocate : locate mismatched 1 = .some (some ⟨.container, 1, 9⟩) := by
    have heq := locate_eq (ends_of_liesIn hplace)
    rw [asOctets_masked, locate_masked, hvalue] at heq
    exact heq
  have hitems : Json.elements "[\x7b],7 8\x7d".toList =
      [⟨.container, 1, "\x7b]".toList⟩, ⟨.number, 4, ['7']⟩] := by
    decide +kernel
  obtain ⟨-, -, ⟨es, hes, helements, hlaid⟩, -, -⟩ := container_selfContained hlocate rfl
  have hsame : elements (Text.asOctets "[\x7b],7 8\x7d".toList) 0 = .some es := hes
  rw [elements_eq, hitems] at hsame
  obtain rfl := Part.some_injective hsame
  exact ⟨hlocate, helements, hlaid⟩

end DotPath.Indexed
