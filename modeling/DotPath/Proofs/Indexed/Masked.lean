import DotPath.Proofs.Indexed.Items

/-!
# Octets that are no ASCII

No scan tells the octets apart that are no ASCII. They are no marks, no digits and no letters of a
word, so that a scan passes over them or stops at them, whichever they are. Put one character of
ASCII that no scan looks for in the place of them all, and every scan finds what it found before.

The octets of a text are in an order that UTF-8 allows, and any others need not be. But octets in
which all that is no ASCII is masked are a text, so that what is known of texts holds of them.

## Main definitions

* `mask`: the character that an octet is taken for.

## Main results

* `locate_masked`, `elements_masked`, `members_masked`: the scans of masked octets.
* `asOctets_masked`: masked octets are a text.
-/

namespace DotPath.Indexed

open Json

/-- An octet that is ASCII as it is, and one and the same character for all others. -/
def mask (c : Char) : Char :=
  if c.toNat < 0x80 then c else '\x7f'

section Masked

variable {data : Text} {x : Nat} {β : Type}

theorem toNat_mask_lt (c : Char) : (mask c).toNat < 0x80 := by
  rw [mask]
  split
  · next hc => exact hc
  · decide

/-- Masked octets are a text, each of whose characters is one octet. -/
theorem asOctets_masked (data : Text) : Text.asOctets (data.map mask) = data.map mask := by
  refine Text.asOctets_of_ascii fun c hc => ?_
  obtain ⟨o, -, rfl⟩ := List.mem_map.1 hc
  exact toNat_mask_lt o

/-! ## Octets -/

/-- A class of ASCII has the same octets, masked or not, if it does not have the mask. -/
theorem class_mask {p : Char → Bool} (hp : IsLow p) (hmask : p '\x7f' = false) (c : Char) :
    p (mask c) = p c := by
  rw [mask]
  split
  · rfl
  · next hc => rw [hmask, hp.eq_false (Nat.le_of_not_lt hc)]

theorem beq_mask {d : Char} (hd : d.toNat < 0x7f) (c : Char) : (mask c == d) = (c == d) := by
  refine class_mask (isLow_beq (Nat.lt_succ_of_lt hd)) (beq_false_of_ne ?_) c
  rintro rfl
  exact absurd hd (by decide)

theorem isSpace_mask : ∀ c, isSpace (mask c) = isSpace c :=
  class_mask isLow_isSpace rfl

theorem isOpening_mask : ∀ c, isOpening (mask c) = isOpening c :=
  class_mask isLow_isOpening rfl

theorem isClosing_mask : ∀ c, isClosing (mask c) = isClosing c :=
  class_mask isLow_isClosing rfl

theorem isDigit_mask : ∀ c, (mask c).isDigit = c.isDigit :=
  class_mask isLow_isDigit rfl

theorem octet_masked (f : Char → Part β) (hf : ∀ c, f (mask c) = f c) :
    octet (data.map mask) x >>= f = octet data x >>= f := by
  rw [octet, octet, List.getElem?_map]
  cases data[x]? with
  | none => rfl
  | some c =>
      rw [Option.map_some]
      exact (some_bind _ _).trans ((hf c).trans (some_bind _ _).symm)

theorem any_masked {d e : Char} (hd : d.toNat < 0x7f) (he : e.toNat < 0x7f) :
    ((data.map mask)[x]?.any fun c => c == d || c == e) =
      data[x]?.any fun c => c == d || c == e := by
  rw [List.getElem?_map]
  cases data[x]? with
  | none => rfl
  | some c =>
      rw [Option.map_some, Option.any_some, Option.any_some, beq_mask hd, beq_mask he]

theorem beq_masked {d : Char} (hd : d.toNat < 0x7f) :
    ((data.map mask)[x]? == some d) = (data[x]? == some d) := by
  rw [List.getElem?_map]
  cases data[x]? with
  | none => rfl
  | some c => exact beq_mask hd c

theorem octetsFrom_masked (f : Text → Part β) (hf : ∀ t : Text, f (t.map mask) = f t) :
    octetsFrom (data.map mask) x >>= f = octetsFrom data x >>= f := by
  rw [octetsFrom, octetsFrom, List.length_map]
  by_cases hx : x ≤ data.length
  · rw [Part.assert_pos hx, Part.assert_pos hx, ← List.map_drop, some_bind, some_bind, hf]
  · rw [Part.assert_neg hx, Part.assert_neg hx]

/-! ## Scans -/

theorem spaceRound_masked : spaceRound (data.map mask) = spaceRound data := by
  funext x
  rw [spaceRound, spaceRound, List.length_map, octet_masked _ fun c => by rw [isSpace_mask]]

theorem skipSpace_masked : skipSpace (data.map mask) = skipSpace data := by
  rw [skipSpace, skipSpace, spaceRound_masked]

theorem stringRound_masked : stringRound (data.map mask) = stringRound data := by
  have hfind : ∀ t : Text, (t.map mask).findIdx? (fun c => c == '"' || c == '\\') =
      t.findIdx? fun c => c == '"' || c == '\\' := by
    intro t
    rw [List.findIdx?_map]
    congr 1
    funext c
    rw [Function.comp_apply, beq_mask (by decide), beq_mask (by decide)]
  funext i
  rw [stringRound, stringRound, List.length_map, octetsFrom_masked _ fun t => by rw [hfind]]
  congr 2
  funext t
  split
  · rfl
  · exact octet_masked _ fun c => by rw [beq_mask (by decide)]

theorem scanString_masked : scanString (data.map mask) = scanString data := by
  funext x
  rw [scanString, scanString, stringFrom, stringFrom, stringRound_masked]

theorem containerRound_masked : containerRound (data.map mask) = containerRound data := by
  funext ⟨depth, i⟩
  rw [containerRound, containerRound, List.length_map, scanString_masked]
  rw [octet_masked]
  intro c
  rw [beq_mask (by decide), isOpening_mask, isClosing_mask]

theorem scanContainer_masked : scanContainer (data.map mask) = scanContainer data := by
  funext x
  rw [scanContainer, scanContainer, containerFrom, containerFrom, containerRound_masked]

theorem digits_masked : digits (data.map mask) = digits data := by
  have hround : digitRound (data.map mask) = digitRound data := by
    funext i
    rw [digitRound, digitRound, List.length_map, octet_masked _ fun c => by rw [isDigit_mask]]
  funext start
  rw [digits, digits, hround]

theorem scanNumber_masked : scanNumber (data.map mask) = scanNumber data := by
  funext x
  unfold scanNumber
  simp only [digits_masked, beq_masked (show '-'.toNat < 0x7f by decide),
    beq_masked (show '.'.toNat < 0x7f by decide),
    any_masked (show 'e'.toNat < 0x7f by decide) (show 'E'.toNat < 0x7f by decide),
    any_masked (show '+'.toNat < 0x7f by decide) (show '-'.toNat < 0x7f by decide)]

theorem isPrefixOf_masked {word : Text} (hword : ∀ c ∈ word, c.toNat < 0x7f) (t : Text) :
    word.isPrefixOf (t.map mask) = word.isPrefixOf t := by
  induction word generalizing t with
  | nil => rfl
  | cons c word ih =>
      cases t with
      | nil => rfl
      | cons d t =>
          have hbeq : (c == mask d) = (c == d) := by
            rw [BEq.comm, beq_mask (hword c List.mem_cons_self), BEq.comm]
          rw [List.map_cons, List.isPrefixOf_cons_cons, List.isPrefixOf_cons_cons, hbeq,
            ih fun e he => hword e (List.mem_cons_of_mem c he)]

theorem scanWord_masked {word : Text} (hword : word.all (·.toNat < 0x7f) = true) (x : Nat) :
    scanWord (data.map mask) x word = scanWord data x word :=
  octetsFrom_masked _ fun t => by
    rw [isPrefixOf_masked fun c hc => of_decide_eq_true (List.all_eq_true.1 hword c hc)]

/-- The value at an index does not depend on octets that are no ASCII. -/
theorem locate_masked : locate (data.map mask) = locate data := by
  funext x
  rw [locate, locate, List.getElem?_map]
  cases data[x]? with
  | none => rfl
  | some c =>
      rw [Option.map_some]
      dsimp only
      rw [isOpening_mask, beq_mask (by decide), beq_mask (by decide), beq_mask (by decide),
        beq_mask (by decide), beq_mask (by decide), isDigit_mask, scanContainer_masked,
        scanString_masked, scanNumber_masked, scanWord_masked (by decide),
        scanWord_masked (by decide), scanWord_masked (by decide)]

/-! ## Items -/

theorem slot_masked {closing : Char} (hclosing : closing.toNat < 0x7f) :
    slot (data.map mask) closing = slot data closing := by
  funext first pos
  rw [slot, slot, skipSpace_masked]
  congr 1
  funext x
  rw [List.getElem?_map]
  cases data[x]? with
  | none => rfl
  | some c =>
      rw [Option.map_some]
      dsimp only
      rw [beq_mask hclosing, beq_mask (by decide)]

/-- Nor do the elements of an array. -/
theorem elements_masked : elements (data.map mask) = elements data := by
  have hround : elementRound (data.map mask) = elementRound data := by
    funext ⟨first, pos, found⟩
    rw [elementRound, elementRound, slot_masked (by decide), locate_masked]
  funext start
  rw [elements, elements, beq_masked (by decide), hround]

theorem member_masked : member (data.map mask) = member data := by
  funext x
  unfold member
  simp only [scanString_masked, skipSpace_masked, locate_masked,
    beq_masked (show '"'.toNat < 0x7f by decide), beq_masked (show ':'.toNat < 0x7f by decide)]

/-- Nor do the members of an object. -/
theorem members_masked : members (data.map mask) = members data := by
  have hround : memberRound (data.map mask) = memberRound data := by
    funext ⟨first, pos, found⟩
    rw [memberRound, memberRound, slot_masked (by decide), member_masked]
  funext start
  rw [members, members, beq_masked (by decide), hround]

end Masked

end DotPath.Indexed
