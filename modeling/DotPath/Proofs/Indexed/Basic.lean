import Mathlib.Data.PFun
import DotPath.Proofs.Json.Place
import DotPath.Proofs.Text.Octets

/-!
# Reading a text by the indices of its octets

A place carries the text that follows it, so reading there cannot go wrong. A reader that keeps only
an index can: the index may lie behind the end, a part may begin or end inside a character, and a
loop that moves an index may never come to an end. The modules under `Indexed` write the library's
readers once more in this way, as partial values, which are defined only where nothing of this kind
happens. So a reader is total when its partial value is that of the reader on places.

A `loop` repeats a round, which either breaks with a result or goes on with a new state. `octet`,
`octetsFrom`, `octetsUpTo` and `slice` are what can be read by index, and `subtract` is a subtraction
that must not go below zero.

## Main results

* `loop_eq`: a loop is its first round and the loop from there.
* `slice_eq_some_iff`: a part is read exactly when it stands between the two indices, both of which
  are then boundaries of characters.
* `Holds.pass`, `Holds.jump`: what ignores octets that are no ASCII passes over whole characters.
-/

namespace DotPath

namespace Text

theorem length_asOctets (t : Text) : (asOctets t).length = byteLength t := by
  rw [asOctets, ofOctets, List.length_map, Array.length_toList, toUtf8_eq]
  exact size_utf8Encode t

end Text

namespace Indexed

/-! ## Loops -/

section Loops

variable {σ α β : Type}

theorem some_bind (a : α) (f : α → Part β) : (Part.some a >>= f) = f a :=
  Part.bind_some a f

/-- Repeats a round until it breaks. Undefined where a round is, and where no round breaks. -/
def loop (round : σ → Part (α ⊕ σ)) : σ → Part α :=
  PFun.fix round

theorem loop_eq (round : σ → Part (α ⊕ σ)) (s : σ) :
    loop round s = round s >>= Sum.elim Part.some (loop round) := by
  refine Part.ext fun a => ?_
  have hfix := @PFun.mem_fix_iff σ α round s a
  rw [Part.bind_eq_bind, Part.mem_bind_iff]
  refine hfix.trans ⟨?_, ?_⟩
  · rintro (hbreak | ⟨next, hnext, ha⟩)
    · exact ⟨_, hbreak, Part.mem_some a⟩
    · exact ⟨_, hnext, ha⟩
  · rintro ⟨r, hr, ha⟩
    cases r with
    | inl b =>
        obtain rfl := Part.mem_some_iff.1 ha
        exact .inl hr
    | inr next => exact .inr ⟨next, hr, ha⟩

/-- A loop whose round breaks. -/
theorem loop_break {round : σ → Part (α ⊕ σ)} {s : σ} {a : α} (h : round s = .some (.inl a)) :
    loop round s = .some a := by
  rw [loop_eq, h, some_bind]
  rfl

/-- A loop whose round goes on. -/
theorem loop_next {round : σ → Part (α ⊕ σ)} {s next : σ} (h : round s = .some (.inr next)) :
    loop round s = loop round next := by
  rw [loop_eq, h, some_bind]
  rfl

/-- A step for each item of a list, all of which are defined. -/
theorem mapM_map {γ : Type} {l : List α} {h : α → β} {f : β → Part γ} {g : α → γ}
    (hf : ∀ a ∈ l, f (h a) = .some (g a)) : (l.map h).mapM f = .some (l.map g) := by
  induction l with
  | nil => rfl
  | cons a l ih =>
      rw [List.map_cons, List.mapM_cons, hf a List.mem_cons_self, some_bind,
        ih fun b hb => hf b (List.mem_cons_of_mem a hb), some_bind]
      rfl

end Loops

/-! ## Reading -/

/-- The octet at an index. -/
def octet (data : Text) (i : Nat) : Part Char :=
  .ofOption data[i]?

/-- The octets from an index on. -/
def octetsFrom (data : Text) (i : Nat) : Part Text :=
  .assert (i ≤ data.length) fun _ => .some (data.drop i)

/-- The octets before an index. -/
def octetsUpTo (data : Text) (i : Nat) : Part Text :=
  .assert (i ≤ data.length) fun _ => .some (data.take i)

/-- A difference that must not go below zero. -/
def subtract (n k : Nat) : Part Nat :=
  .assert (k ≤ n) fun _ => .some (n - k)

theorem subtract_eq {n k : Nat} (h : k ≤ n) : subtract n k = .some (n - k) :=
  Part.assert_pos h

/-- The characters before and after an index of octets, if it lies between characters. -/
def splitAt? : Text → Nat → Option (Text × Text)
  | t, 0 => some ([], t)
  | [], _ + 1 => none
  | c :: t, i + 1 =>
    if c.utf8Size ≤ i + 1 then
      (splitAt? t (i + 1 - c.utf8Size)).map fun (before, after) => (c :: before, after)
    else none

/-- The part of a text between two indices of octets. -/
def slice (t : Text) (i j : Nat) : Part Text :=
  .assert (i ≤ j) fun _ => do
    let (_, after) ← Part.ofOption (splitAt? t i)
    let (part, _) ← Part.ofOption (splitAt? after (j - i))
    return part

theorem splitAt?_eq_some_iff {t before after : Text} {i : Nat} :
    splitAt? t i = some (before, after) ↔ t = before ++ after ∧ Text.byteLength before = i := by
  induction t, i using splitAt?.induct generalizing before with
  | case1 t =>
      simp only [splitAt?, Option.some.injEq, Prod.mk.injEq]
      constructor
      · rintro ⟨rfl, rfl⟩
        exact ⟨rfl, rfl⟩
      · rintro ⟨rfl, hlength⟩
        cases before with
        | nil => exact ⟨rfl, rfl⟩
        | cons c before =>
            have := c.utf8Size_pos
            rw [Text.byteLength_cons] at hlength
            omega
  | case2 i =>
      simp only [splitAt?, reduceCtorEq, false_iff]
      rintro ⟨hnil, hlength⟩
      obtain ⟨rfl, rfl⟩ := List.append_eq_nil_iff.1 hnil.symm
      cases hlength
  | case3 c t i hsize ih =>
      rw [splitAt?, if_pos hsize]
      simp only [Option.map_eq_some_iff, Prod.mk.injEq, Prod.exists]
      constructor
      · rintro ⟨front, rest, hfront, rfl, rfl⟩
        obtain ⟨rfl, hlength⟩ := ih.1 hfront
        refine ⟨rfl, ?_⟩
        rw [Text.byteLength_cons]
        omega
      · rintro ⟨ht, hlength⟩
        cases before with
        | nil => cases hlength
        | cons d front =>
            obtain ⟨rfl, rfl⟩ := List.cons.inj ht
            rw [Text.byteLength_cons] at hlength
            exact ⟨front, after, ih.2 ⟨rfl, by omega⟩, rfl, rfl⟩
  | case4 c t i hsize =>
      rw [splitAt?, if_neg hsize]
      simp only [reduceCtorEq, false_iff]
      rintro ⟨ht, hlength⟩
      cases before with
      | nil => cases hlength
      | cons d front =>
          obtain ⟨rfl, rfl⟩ := List.cons.inj ht
          rw [Text.byteLength_cons] at hlength
          omega

/-- A part is read exactly when it is what stands between the indices. -/
theorem slice_eq_some_iff {t part : Text} {i j : Nat} :
    slice t i j = .some part ↔ StandsAt t part i ∧ j = i + Text.byteLength part := by
  constructor
  · intro h
    have hmem : part ∈ slice t i j := Part.eq_some_iff.1 h
    rw [slice, Part.mem_assert_iff] at hmem
    obtain ⟨hle, hmem⟩ := hmem
    simp only [Part.bind_eq_bind, Part.mem_bind_iff, Part.mem_ofOption, Part.pure_eq_some,
      Part.mem_some_iff, Option.mem_def, Prod.exists] at hmem
    obtain ⟨before, rest, hbefore, inside, after, hinside, rfl⟩ := hmem
    obtain ⟨rfl, rfl⟩ := splitAt?_eq_some_iff.1 hbefore
    obtain ⟨rfl, hlength⟩ := splitAt?_eq_some_iff.1 hinside
    exact ⟨⟨before, after, rfl, rfl⟩, by omega⟩
  · rintro ⟨⟨before, after, rfl, rfl⟩, rfl⟩
    have hbefore : splitAt? (before ++ (part ++ after)) (Text.byteLength before) =
        some (before, part ++ after) := splitAt?_eq_some_iff.2 ⟨rfl, rfl⟩
    have hpart : splitAt? (part ++ after) (Text.byteLength part) = some (part, after) :=
      splitAt?_eq_some_iff.2 ⟨rfl, rfl⟩
    rw [slice, Part.assert_pos (Nat.le_add_right _ _), hbefore, Nat.add_sub_cancel_left]
    simp only [Part.bind_eq_bind, Part.coe_some, Part.bind_some, hpart, Part.pure_eq_some]

/-! ## Octets of a text -/

/-- The octets of `t` stand in `data` from an index on. -/
def Holds (data : Text) (i : Nat) (t : Text) : Prop :=
  ∃ before after, data = before ++ (t.asOctets ++ after) ∧ before.length = i

/-- The octets of `t` stand in `data` from an index on, up to its end. -/
def Ends (data : Text) (i : Nat) (t : Text) : Prop :=
  ∃ before, data = before ++ t.asOctets ∧ before.length = i

section Octets

variable {data t u : Text} {c o : Char} {i : Nat} {β : Type}

theorem Ends.holds (h : Ends data i t) : Holds data i t := by
  obtain ⟨before, rfl, rfl⟩ := h
  exact ⟨before, [], by rw [List.append_nil], rfl⟩

theorem Ends.length_eq (h : Ends data i t) : data.length = i + Text.byteLength t := by
  obtain ⟨before, rfl, rfl⟩ := h
  rw [List.length_append, Text.length_asOctets]

theorem Ends.lt (h : Ends data i t) (ht : t ≠ []) : i < data.length := by
  obtain ⟨c, t, rfl⟩ := List.exists_cons_of_ne_nil ht
  have hlength := h.length_eq
  have hpos := c.utf8Size_pos
  rw [Text.byteLength_cons] at hlength
  omega

theorem Ends.drop (h : Ends data i (u ++ t)) : Ends data (i + Text.byteLength u) t := by
  obtain ⟨before, rfl, rfl⟩ := h
  refine ⟨before ++ u.asOctets, ?_, ?_⟩
  · rw [Text.asOctets_append, List.append_assoc]
  · rw [List.length_append, Text.length_asOctets]

theorem Ends.tail (h : Ends data i (c :: t)) : Ends data (i + c.utf8Size) t := by
  have h : Ends data i ([c] ++ t) := h
  exact h.drop

theorem Holds.drop (h : Holds data i (u ++ t)) : Holds data (i + Text.byteLength u) t := by
  obtain ⟨before, after, rfl, rfl⟩ := h
  refine ⟨before ++ u.asOctets, after, ?_, ?_⟩
  · simp only [Text.asOctets_append, List.append_assoc]
  · rw [List.length_append, Text.length_asOctets]

theorem Holds.tail (h : Holds data i (c :: t)) : Holds data (i + c.utf8Size) t := by
  have h : Holds data i ([c] ++ t) := h
  exact h.drop

/-- A character that is ASCII is its only octet. -/
theorem Holds.getElem?_eq (h : Holds data i (c :: t)) (hc : c.toNat < 0x80) :
    data[i]? = some c := by
  obtain ⟨before, after, rfl, rfl⟩ := h
  rw [Text.asOctets_cons_ascii hc, List.getElem?_append_right (Nat.le_refl _), Nat.sub_self]
  rfl

/-- The octets of a character that is no ASCII are no ASCII. -/
theorem Holds.getElem?_high (h : Holds data i (c :: t)) (hc : 0x80 ≤ c.toNat) {k : Nat}
    (hk : k < c.utf8Size) : ∃ o, data[i + k]? = some o ∧ 0x80 ≤ o.toNat := by
  obtain ⟨before, after, rfl, rfl⟩ := h
  have hlength : k < (Text.asOctets [c]).length := by
    rw [Text.length_asOctets]
    exact Nat.lt_of_lt_of_le hk (Nat.le_add_right _ _)
  refine ⟨(Text.asOctets [c])[k], ?_, Text.le_of_mem_asOctets_singleton hc (List.getElem_mem _)⟩
  rw [List.getElem?_append_right (Nat.le_add_right _ _), Nat.add_sub_cancel_left,
    ← List.singleton_append, Text.asOctets_append, List.append_assoc,
    List.getElem?_append_left hlength, List.getElem?_eq_getElem hlength]

theorem utf8Size_of_lt (hc : c.toNat < 0x80) : c.utf8Size = 1 := by
  have hlength := Text.length_asOctets [c]
  rw [Text.asOctets_cons_ascii hc] at hlength
  exact hlength.symm

theorem byteLength_of_low (h : ∀ c ∈ t, c.toNat < 0x80) : Text.byteLength t = t.length := by
  rw [← Text.length_asOctets, Text.asOctets_of_ascii h]

/-- A class of characters that are ASCII. -/
def IsLow (p : Char → Bool) : Prop :=
  ∀ c, p c = true → c.toNat < 0x80

theorem isLow_beq (hc : c.toNat < 0x80) : IsLow (· == c) := by
  intro d hd
  rwa [beq_iff_eq.1 hd]

theorem IsLow.or {p q : Char → Bool} (hp : IsLow p) (hq : IsLow q) :
    IsLow fun c => p c || q c := by
  intro c hc
  rcases Bool.or_eq_true_iff.1 hc with hc | hc
  · exact hp c hc
  · exact hq c hc

theorem IsLow.eq_false {p : Char → Bool} (hp : IsLow p) (ho : 0x80 ≤ o.toNat) : p o = false := by
  rw [Bool.eq_false_iff]
  intro h
  exact Nat.not_lt.2 ho (hp o h)

/-- The first octet of a character belongs to the same classes of ASCII as the character. -/
theorem Holds.exists_octet (h : Holds data i (c :: t)) :
    ∃ o, data[i]? = some o ∧ ∀ {p : Char → Bool}, IsLow p → p o = p c := by
  by_cases hc : c.toNat < 0x80
  · exact ⟨c, h.getElem?_eq hc, fun _ => rfl⟩
  · obtain ⟨o, ho, hhigh⟩ := h.getElem?_high (Nat.le_of_not_lt hc) c.utf8Size_pos
    exact ⟨o, ho, fun hp => (hp.eq_false hhigh).trans (hp.eq_false (Nat.le_of_not_lt hc)).symm⟩

theorem Ends.getElem?_nil (h : Ends data i []) : data[i]? = none :=
  List.getElem?_eq_none (Nat.le_of_eq h.length_eq)

theorem Ends.any_getElem? (h : Ends data i t) {p : Char → Bool} (hp : IsLow p) :
    data[i]?.any p = t.head?.any p := by
  cases t with
  | nil =>
      rw [h.getElem?_nil]
      rfl
  | cons c t =>
      obtain ⟨o, ho, hclass⟩ := h.holds.exists_octet
      rw [ho]
      exact hclass hp

theorem Ends.beq_getElem? (h : Ends data i t) (hc : c.toNat < 0x80) :
    (data[i]? == some c) = (t.head? == some c) := by
  have hbeq : ∀ x : Option Char, (x == some c) = x.any (· == c) := by
    intro x
    cases x <;> rfl
  rw [hbeq, hbeq, h.any_getElem? (isLow_beq hc)]

/-- What ignores the octets that are no ASCII passes over a character that is none. -/
theorem Holds.jump_high (h : Holds data i (c :: t)) (hc : 0x80 ≤ c.toNat) (g : Nat → β)
    (hg : ∀ x o, x < i + c.utf8Size → data[x]? = some o → 0x80 ≤ o.toNat → g x = g (x + 1)) :
    g i = g (i + c.utf8Size) := by
  have hpass : ∀ k, k ≤ c.utf8Size → g i = g (i + k) := by
    intro k hk
    induction k with
    | zero => rfl
    | succ k ih =>
        obtain ⟨o, ho, hhigh⟩ := h.getElem?_high hc hk
        rw [ih (Nat.le_of_succ_le hk), hg (i + k) o (Nat.add_lt_add_left hk i) ho hhigh]
        rfl
  exact hpass _ (Nat.le_refl _)

/-- What ignores the octets that are no ASCII passes over what is left of a character. -/
theorem Holds.jump (h : Holds data i (c :: t)) (g : Nat → β)
    (hg : ∀ x o, x < i + c.utf8Size → data[x]? = some o → 0x80 ≤ o.toNat → g x = g (x + 1)) :
    g (i + 1) = g (i + c.utf8Size) := by
  by_cases hc : c.toNat < 0x80
  · rw [utf8Size_of_lt hc]
  · rw [← h.jump_high (Nat.le_of_not_lt hc) g hg]
    have hpos := c.utf8Size_pos
    obtain ⟨o, ho, hhigh⟩ := h.getElem?_high (Nat.le_of_not_lt hc) hpos
    exact (hg i o (by omega) ho hhigh).symm

/-- What ignores a character, if it is ASCII, and all octets that are no ASCII passes over it. -/
theorem Holds.pass (h : Holds data i (c :: t)) (g : Nat → β)
    (hg : ∀ x o, x < i + c.utf8Size → data[x]? = some o → o = c ∨ 0x80 ≤ o.toNat →
      g x = g (x + 1)) :
    g i = g (i + c.utf8Size) := by
  by_cases hc : c.toNat < 0x80
  · have hsize := utf8Size_of_lt hc
    rw [hsize] at hg ⊢
    exact hg i c (Nat.lt_succ_self i) (h.getElem?_eq hc) (.inl rfl)
  · exact h.jump_high (Nat.le_of_not_lt hc) g fun x o hx ho hhigh => hg x o hx ho (.inr hhigh)

/-- What follows a place of a text is read to the end of the octets. -/
theorem ends_of_liesIn {p : Place} (h : p.LiesIn t) : Ends t.asOctets p.offset p.rest := by
  obtain ⟨before, rfl, hoffset⟩ := h
  exact ⟨before.asOctets, Text.asOctets_append _ _, (Text.length_asOctets _).trans hoffset.symm⟩

/-- An octet that is ASCII is a character of the text. -/
theorem exists_place_of_octet (h : t.asOctets[i]? = some c) (hc : c.toNat < 0x80) :
    ∃ rest, Place.LiesIn t ⟨i, rest⟩ := by
  induction t generalizing i with
  | nil => cases h
  | cons d t ih =>
      rw [← List.singleton_append, Text.asOctets_append] at h
      have hsize : (Text.asOctets [d]).length = d.utf8Size := Text.length_asOctets [d]
      by_cases hi : i < (Text.asOctets [d]).length
      · rw [List.getElem?_append_left hi] at h
        have hd : d.toNat < 0x80 := by
          by_contra hhigh
          have := Text.le_of_mem_asOctets_singleton (Nat.le_of_not_lt hhigh)
            (List.mem_of_getElem? h)
          omega
        rw [utf8Size_of_lt hd] at hsize
        obtain rfl : i = 0 := by omega
        exact ⟨d :: t, [], rfl, rfl⟩
      · have hle := Nat.le_of_not_lt hi
        rw [List.getElem?_append_right hle] at h
        obtain ⟨rest, before, rfl, hoffset⟩ := ih h
        refine ⟨rest, d :: before, rfl, ?_⟩
        rw [Text.byteLength_cons]
        dsimp only at hoffset ⊢
        omega

end Octets

end Indexed

end DotPath
