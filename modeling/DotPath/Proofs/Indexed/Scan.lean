import Mathlib.Data.List.TakeWhile
import DotPath.Proofs.Indexed.Basic

/-!
# Scanning values by index

The scans for the extents of values, on the octets of a text. They move an index octet by octet;
after a backslash they skip two octets, whatever they are a part of. That they stop at the places
where the scans on characters stop is due to UTF-8: an octet of a character that is no ASCII is
never taken for a quote, a bracket, a space or a digit.

## Main results

* `skipSpace_eq`, `scanString_eq`, `scanContainer_eq`, `scanNumber_eq`: the scans of the octets.
* `locate_eq`: the value at a place.
-/

namespace DotPath.Indexed

open Json

/-- A value by its kind and the indices where it starts and stops. -/
structure Span where
  kind : Kind
  start : Nat
  stop : Nat

/-- The indices of a value that has been found in a text. -/
def Span.of (v : Occurrence) : Span :=
  ⟨v.kind, v.offset, v.offset + Text.byteLength v.raw⟩

/-! ## The scans -/

/-- One step of `skipSpace`. -/
def spaceRound (data : Text) (x : Nat) : Part (Nat ⊕ Nat) :=
  if x < data.length then do
    let c ← octet data x
    return if isSpace c then .inr (x + 1) else .inl x
  else return .inl x

/-- The index of the first octet from here that is no space. -/
def skipSpace (data : Text) : Nat → Part Nat :=
  loop (spaceRound data)

/-- A search for the next quote or backslash. Two octets are skipped at a backslash. -/
def stringRound (data : Text) (i : Nat) : Part (Option Nat ⊕ Nat) :=
  if i < data.length then do
    let ahead ← octetsFrom data i
    match ahead.findIdx? fun c => c == '"' || c == '\\' with
    | none => return .inl none
    | some k =>
      let c ← octet data (i + k)
      return if c == '"' then .inl (some (i + k + 1)) else .inr (i + k + 2)
  else return .inl none

/-- The index after a string, from an index inside it. -/
def stringFrom (data : Text) : Nat → Part (Option Nat) :=
  loop (stringRound data)

/-- The index after the string whose opening quote is at `x`. -/
def scanString (data : Text) (x : Nat) : Part (Option Nat) :=
  stringFrom data (x + 1)

/-- One step through a container: a string, or an octet outside strings. -/
def containerRound (data : Text) : Nat × Nat → Part (Option Nat ⊕ Nat × Nat)
  | (depth, i) =>
    if i < data.length then do
      let c ← octet data i
      if c == '"' then
        let stop ← scanString data i
        return stop.elim (.inl none) fun j => .inr (depth, j)
      else if isOpening c then return .inr (depth + 1, i + 1)
      else if isClosing c then do
        let depth ← subtract depth 1
        return if depth == 0 then .inl (some (i + 1)) else .inr (depth, i + 1)
      else return .inr (depth, i + 1)
    else return .inl none

/-- The index after a container, from an index in it that has a number of open brackets before. -/
def containerFrom (data : Text) : Nat × Nat → Part (Option Nat) :=
  loop (containerRound data)

/-- The index after the container whose opening bracket is at `x`. -/
def scanContainer (data : Text) (x : Nat) : Part (Option Nat) :=
  containerFrom data (0, x)

/-- One step of a run of digits. -/
def digitRound (data : Text) (i : Nat) : Part (Nat ⊕ Nat) :=
  if i < data.length then do
    let c ← octet data i
    return if c.isDigit then .inr (i + 1) else .inl i
  else return .inl i

/-- The index after a run of at least one digit. -/
def digits (data : Text) (start : Nat) : Part (Option Nat) := do
  let stop ← loop (digitRound data) start
  return if stop > start then some stop else none

/-- The index after the longest number token. -/
def scanNumber (data : Text) (x : Nat) : Part (Option Nat) := do
  match ← digits data (if data[x]? == some '-' then x + 1 else x) with
  | none => return none
  | some i =>
    match ← (if data[i]? == some '.' then digits data (i + 1) else pure (some i)) with
    | none => return none
    | some i =>
      if data[i]?.any fun c => c == 'e' || c == 'E' then
        let i := i + 1
        digits data (if data[i]?.any fun c => c == '+' || c == '-' then i + 1 else i)
      else return some i

/-- The index after a fixed word. -/
def scanWord (data : Text) (x : Nat) (word : Text) : Part (Option Nat) := do
  let ahead ← octetsFrom data x
  return if word.isPrefixOf ahead then some (x + word.length) else none

/-- The value that starts at an index. -/
def locate (data : Text) (x : Nat) : Part (Option Span) := do
  match data[x]? with
  | none => return none
  | some c =>
    if isOpening c then return (← scanContainer data x).map (⟨.container, x, ·⟩)
    else if c == '"' then return (← scanString data x).map (⟨.string, x, ·⟩)
    else if c == 't' then
      return (← scanWord data x ['t', 'r', 'u', 'e']).map (⟨.true, x, ·⟩)
    else if c == 'f' then
      return (← scanWord data x ['f', 'a', 'l', 's', 'e']).map (⟨.false, x, ·⟩)
    else if c == 'n' then
      return (← scanWord data x ['n', 'u', 'l', 'l']).map (⟨.null, x, ·⟩)
    else if c == '-' || c.isDigit then return (← scanNumber data x).map (⟨.number, x, ·⟩)
    else return none

/-! ## Octets that are no ASCII -/

theorem ne_of_high {o c : Char} (ho : 0x80 ≤ o.toNat) (hc : c.toNat < 0x80) : o ≠ c := by
  rintro rfl
  omega

theorem isLow_isSpace : IsLow isSpace :=
  (((isLow_beq (by decide)).or (isLow_beq (by decide))).or (isLow_beq (by decide))).or
    (isLow_beq (by decide))

theorem isLow_isOpening : IsLow isOpening :=
  (isLow_beq (by decide)).or (isLow_beq (by decide))

theorem isLow_isClosing : IsLow isClosing :=
  (isLow_beq (by decide)).or (isLow_beq (by decide))

theorem isLow_isDigit : IsLow Char.isDigit :=
  fun _ hc => toNat_lt_of_isNumeric (by simp [Json.isNumeric, hc])

/-! ## What the scans find -/

section Found

variable {data : Text} {p : Place}

theorem octet_eq {x : Nat} {c : Char} (h : data[x]? = some c) : octet data x = .some c := by
  rw [octet, h]
  rfl

theorem lt_of_getElem? {x : Nat} {c : Char} (h : data[x]? = some c) : x < data.length :=
  (List.getElem?_eq_some_iff.1 h).1

/-- A round that reads the octet at its index, below the index where the loop stops. -/
theorem round_of_octet {β : Type} {x stop : Nat} {c : Char} (hx : x < stop) (h : data[x]? = some c)
    (f : Char → Part β) (past : Part β) :
    (if x < stop then octet data x >>= f else past) = f c := by
  rw [if_pos hx, octet_eq h, some_bind]

theorem octetsFrom_cons {x : Nat} {c : Char} (h : data[x]? = some c) :
    octetsFrom data x = .some (c :: data.drop (x + 1)) := by
  obtain ⟨hlt, rfl⟩ := List.getElem?_eq_some_iff.1 h
  rw [octetsFrom, Part.assert_pos (Nat.le_of_lt hlt), List.drop_eq_getElem_cons hlt]

/-- A space, and no other character, takes the scan one octet further. -/
theorem skipSpace_of_octet {x : Nat} {c : Char} (h : data[x]? = some c) :
    skipSpace data x = if isSpace c then skipSpace data (x + 1) else .some x := by
  have hround : spaceRound data x = .some (if isSpace c then .inr (x + 1) else .inl x) :=
    round_of_octet (lt_of_getElem? h) h _ _
  by_cases hc : isSpace c = true
  · rw [if_pos hc] at hround ⊢
    exact loop_next hround
  · rw [if_neg hc] at hround ⊢
    exact loop_break hround

theorem skipSpace_past {x : Nat} (h : data.length ≤ x) : skipSpace data x = .some x :=
  loop_break (if_neg (Nat.not_lt.2 h))

/-- The index after the space that comes next. -/
theorem skipSpace_eq {x : Nat} {t : Text} (h : Ends data x t) :
    skipSpace data x = .some (x + Text.byteLength (t.takeWhile isSpace)) := by
  induction t generalizing x with
  | nil => exact skipSpace_past (Nat.le_of_eq h.length_eq)
  | cons c t ih =>
      obtain ⟨o, ho, hclass⟩ := h.holds.exists_octet
      rw [skipSpace_of_octet ho, hclass isLow_isSpace]
      by_cases hc : isSpace c = true
      · have hsize := utf8Size_of_lt (isLow_isSpace c hc)
        have htail := ih h.tail
        rw [hsize] at htail
        rw [if_pos hc, htail, List.takeWhile_cons_of_pos hc, Text.byteLength_cons, hsize,
          Nat.add_assoc]
      · rw [if_neg hc, List.takeWhile_cons_of_neg hc]
        rfl

theorem stringFrom_past {x : Nat} (h : data.length ≤ x) : stringFrom data x = .some none :=
  loop_break (if_neg (Nat.not_lt.2 h))

theorem stringRound_of_octet {x : Nat} {c : Char} (h : data[x]? = some c) :
    stringRound data x =
      match (c :: data.drop (x + 1)).findIdx? fun c => c == '"' || c == '\\' with
      | none => .some (.inl none)
      | some k => octet data (x + k) >>= fun c =>
          .some (if c == '"' then .inl (some (x + k + 1)) else .inr (x + k + 2)) := by
  rw [stringRound, if_pos (lt_of_getElem? h), octetsFrom_cons h]
  exact some_bind _ _

theorem stringFrom_quote {x : Nat} (h : data[x]? = some '"') :
    stringFrom data x = .some (some (x + 1)) := by
  refine loop_break ?_
  rw [stringRound_of_octet h, List.findIdx?_cons]
  simp [octet_eq h]

theorem stringFrom_backslash {x : Nat} (h : data[x]? = some '\\') :
    stringFrom data x = stringFrom data (x + 2) := by
  refine loop_next ?_
  rw [stringRound_of_octet h, List.findIdx?_cons]
  simp [octet_eq h]

/-- An octet that is neither of the two is passed over by the search. -/
theorem stringFrom_plain {x : Nat} {c : Char} (h : data[x]? = some c) (hquote : c ≠ '"')
    (hbackslash : c ≠ '\\') : stringFrom data x = stringFrom data (x + 1) := by
  have hround := stringRound_of_octet h
  rw [List.findIdx?_cons, beq_false_of_ne hquote, beq_false_of_ne hbackslash] at hround
  cases hnext : data[x + 1]? with
  | none =>
      have hlast : data.length ≤ x + 1 := List.getElem?_eq_none_iff.1 hnext
      rw [List.drop_eq_nil_of_le hlast] at hround
      rw [stringFrom_past hlast]
      exact loop_break hround
  | some d =>
      have hafter : stringRound data x = stringRound data (x + 1) := by
        obtain ⟨hlt, rfl⟩ := List.getElem?_eq_some_iff.1 hnext
        rw [hround, stringRound_of_octet hnext, List.drop_eq_getElem_cons hlt]
        cases (data[x + 1] :: data.drop (x + 1 + 1)).findIdx? fun c => c == '"' || c == '\\' with
        | none => rfl
        | some k =>
            have hindex : x + (k + 1) = x + 1 + k := by omega
            simp [hindex]
      rw [stringFrom, loop_eq, hafter, ← loop_eq]

theorem ends_start (t : Text) : Ends t.asOctets (Place.start t).offset (Place.start t).rest :=
  ⟨[], rfl, rfl⟩

/-- What is left of a text that is read to the end of the octets. -/
theorem ends_skip (h : Ends data p.offset p.rest) {n : Nat} {t : Text} (ht : p.rest.drop n = t) :
    Ends data (p.skip n).offset t := by
  have h : Ends data p.offset (p.rest.take n ++ p.rest.drop n) := by
    rw [List.take_append_drop]
    exact h
  rw [← ht]
  exact h.drop

theorem offset_skip_succ {n : Nat} {c : Char} {t : Text} (h : p.rest.drop n = c :: t) :
    (p.skip (n + 1)).offset = (p.skip n).offset + c.utf8Size ∧ p.rest.drop (n + 1) = t := by
  constructor
  · have htake : p.rest.take (n + 1) = p.rest.take n ++ [c] := by
      have hhead : p.rest[n]? = some c := by
        rw [← List.head?_drop, h]
        rfl
      rw [List.take_add_one, hhead]
      rfl
    rw [Place.skip, htake, Text.byteLength_append, ← Nat.add_assoc]
    rfl
  · rw [← List.tail_drop, h]
    rfl

/-- The index after a string, from a place inside it. -/
theorem stringFrom_eq (h : Ends data p.offset p.rest) (n : Nat) :
    stringFrom data (p.skip n).offset =
      .some ((stringEnd n (p.rest.drop n)).map fun m => (p.skip m).offset) := by
  generalize ht : p.rest.drop n = t
  fun_induction stringEnd n t with
  | case1 n => exact stringFrom_past (Nat.le_of_eq (ends_skip h ht).length_eq)
  | case2 n =>
      have hends := ends_skip h ht
      have hlength := hends.length_eq
      have hsize : Text.byteLength ['\\'] = 1 := rfl
      rw [stringFrom_backslash (hends.holds.getElem?_eq (by decide)), Option.map_none]
      exact stringFrom_past (by omega)
  | case3 n d rest ih =>
      have hends := ends_skip h ht
      obtain ⟨hescape, hdrop⟩ := offset_skip_succ ht
      obtain ⟨hprotected, hrest⟩ := offset_skip_succ hdrop
      have hsize : '\\'.utf8Size = 1 := rfl
      have hjump := (ends_skip h hdrop).holds.jump (stringFrom data) fun x o _ ho hhigh =>
        stringFrom_plain ho (ne_of_high hhigh (by decide)) (ne_of_high hhigh (by decide))
      rw [← hprotected, hescape, hsize] at hjump
      rw [stringFrom_backslash (hends.holds.getElem?_eq (by decide)), ← ih hrest]
      exact hjump
  | case4 n c rest hbackslash _ hc =>
      obtain rfl := beq_iff_eq.1 hc
      have hends := ends_skip h ht
      obtain ⟨hquote, -⟩ := offset_skip_succ ht
      rw [stringFrom_quote (hends.holds.getElem?_eq (by decide)), Option.map_some, hquote]
      rfl
  | case5 n c rest hbackslash hlone hc ih =>
      have hends := ends_skip h ht
      obtain ⟨hnext, hrest⟩ := offset_skip_succ ht
      have hplain : c ≠ '\\' := by
        rintro rfl
        cases rest with
        | nil => exact hbackslash rfl rfl
        | cons d rest => exact hlone d rest rfl rfl
      rw [← ih hrest, hnext]
      refine hends.holds.pass (stringFrom data) fun x o _ ho hoctet => ?_
      rcases hoctet with rfl | hhigh
      · exact stringFrom_plain ho (by simpa using hc) hplain
      · exact stringFrom_plain ho (ne_of_high hhigh (by decide)) (ne_of_high hhigh (by decide))

theorem skipSpace_place (h : Ends data p.offset p.rest) :
    skipSpace data p.offset = .some p.skipSpace.offset := by
  rw [skipSpace_eq h, Place.skipSpace, Place.skipWhile, Place.skip]
  congr 3
  exact List.prefix_iff_eq_take.1 (List.takeWhile_prefix isSpace)

/-- The index after the string that starts at a place. -/
theorem scanString_eq (h : Ends data p.offset p.rest) {t : Text} (hp : p.rest = '"' :: t) :
    scanString data p.offset = .some ((stringEnd 1 t).map fun m => (p.skip m).offset) := by
  have hskip : (p.skip 1).offset = p.offset + 1 ∧ p.rest.drop 1 = t := by
    rw [Place.skip, hp]
    exact ⟨rfl, rfl⟩
  rw [scanString, ← hskip.1, stringFrom_eq h 1, hskip.2]

theorem scanString_literal (h : Ends data p.offset p.rest) {t : Text} (hp : p.rest = '"' :: t) :
    scanString data p.offset = .some (p.literal?.map (·.2.offset)) := by
  obtain ⟨i, rest⟩ := p
  subst hp
  have hliteral : Place.literal? ⟨i, '"' :: t⟩ = (stringEnd 1 t).map fun n =>
      (⟨.string, i, ('"' :: t).take n⟩, Place.skip ⟨i, '"' :: t⟩ n) := rfl
  rw [scanString_eq h rfl, hliteral, Option.map_map]
  rfl

/-- Inside a string, the scan of a container looks for the end of the string. -/
theorem containerEnd_quoted (depth n : Nat) (t : Text) :
    containerEnd depth .quoted n t =
      (stringEnd n t).bind fun m => containerEnd depth .plain m (t.drop (m - n)) := by
  fun_induction stringEnd n t with
  | case1 n => rfl
  | case2 n => rfl
  | case3 n d rest ih =>
      have hstep : containerEnd depth .quoted n ('\\' :: d :: rest) =
          containerEnd depth .quoted (n + 2) rest := rfl
      rw [hstep, ih]
      refine Option.bind_congr fun m hm => ?_
      have hlt := lt_of_stringEnd hm
      have hdrop : m - n = m - (n + 2) + 2 := by omega
      rw [hdrop]
      rfl
  | case4 n c rest hbackslash hlone hc =>
      rw [containerEnd, if_pos hc, Option.bind_some, Nat.add_sub_cancel_left]
      rfl
  | case5 n c rest hbackslash hlone hc ih =>
      have hplain : (c == '\\') = false := by
        refine beq_false_of_ne ?_
        rintro rfl
        cases rest with
        | nil => exact hbackslash rfl rfl
        | cons d rest => exact hlone d rest rfl rfl
      rw [containerEnd, if_neg hc, hplain, if_neg Bool.false_ne_true, ih]
      refine Option.bind_congr fun m hm => ?_
      have hlt := lt_of_stringEnd hm
      have hdrop : m - n = m - (n + 1) + 1 := by omega
      rw [hdrop]
      rfl

section Container

variable {depth x : Nat} {c : Char}

theorem containerFrom_past (h : data.length ≤ x) : containerFrom data (depth, x) = .some none :=
  loop_break (if_neg (Nat.not_lt.2 h))

theorem containerFrom_quote (h : data[x]? = some '"') {stop : Option Nat}
    (hstop : scanString data x = .some stop) :
    containerFrom data (depth, x) =
      stop.elim (.some none) fun j => containerFrom data (depth, j) := by
  have hround : containerRound data (depth, x) =
      .some (stop.elim (.inl none) fun j => .inr (depth, j)) := by
    rw [containerRound, round_of_octet (lt_of_getElem? h) h, if_pos (beq_self_eq_true _), hstop]
    exact some_bind _ _
  cases stop with
  | none => exact loop_break hround
  | some j => exact loop_next hround

theorem containerFrom_opening (h : data[x]? = some c) (hc : isOpening c = true) :
    containerFrom data (depth, x) = containerFrom data (depth + 1, x + 1) := by
  have hquote : ¬ (c == '"') = true := by
    rw [beq_iff_eq]
    rintro rfl
    cases hc
  refine loop_next ?_
  rw [containerRound, round_of_octet (lt_of_getElem? h) h, if_neg hquote, if_pos hc,
    Part.pure_eq_some]

theorem containerFrom_closing (h : data[x]? = some c) (hc : isClosing c = true)
    (hdepth : 0 < depth) : containerFrom data (depth, x) =
      if depth ≤ 1 then .some (some (x + 1)) else containerFrom data (depth - 1, x + 1) := by
  have hquote : ¬ (c == '"') = true := by
    rw [beq_iff_eq]
    rintro rfl
    cases hc
  have hopening : ¬ isOpening c = true := by
    intro hopening
    simp only [isOpening, Bool.or_eq_true, beq_iff_eq] at hopening
    rcases hopening with rfl | rfl <;> cases hc
  have hround : containerRound data (depth, x) = .some
      (if depth - 1 == 0 then .inl (some (x + 1)) else .inr (depth - 1, x + 1)) := by
    rw [containerRound, round_of_octet (lt_of_getElem? h) h, if_neg hquote, if_neg hopening,
      if_pos hc, subtract_eq hdepth]
    exact some_bind _ _
  split
  · next hone =>
      rw [if_pos (by rw [beq_iff_eq]; omega)] at hround
      exact loop_break hround
  · next hmore =>
      rw [if_neg (by rw [beq_iff_eq]; omega)] at hround
      exact loop_next hround

theorem containerFrom_plain (h : data[x]? = some c) (hquote : c ≠ '"')
    (hopening : isOpening c = false) (hclosing : isClosing c = false) :
    containerFrom data (depth, x) = containerFrom data (depth, x + 1) := by
  refine loop_next ?_
  rw [containerRound, round_of_octet (lt_of_getElem? h) h, beq_false_of_ne hquote, hopening,
    hclosing]
  rfl

/-- The index after a container, from a place in it outside strings. -/
theorem containerFrom_eq (h : Ends data p.offset p.rest) {depth n : Nat} (hdepth : 0 < depth)
    {t : Text} (ht : p.rest.drop n = t) :
    containerFrom data (depth, (p.skip n).offset) =
      .some ((containerEnd depth .plain n t).map fun m => (p.skip m).offset) := by
  induction hk : t.length using Nat.strong_induction_on generalizing depth n t with
  | _ k ih =>
    subst hk
    have hends := ends_skip h ht
    cases t with
    | nil => exact containerFrom_past (Nat.le_of_eq hends.length_eq)
    | cons c rest =>
        obtain ⟨hnext, hrest⟩ := offset_skip_succ ht
        have hlength := Nat.lt_succ_self rest.length
        rw [containerEnd]
        split
        · next hquote =>
            obtain rfl := beq_iff_eq.1 hquote
            have hstring := stringFrom_eq h (n + 1)
            rw [hnext, hrest] at hstring
            rw [containerFrom_quote (hends.holds.getElem?_eq (by decide)) hstring,
              containerEnd_quoted]
            cases hend : stringEnd (n + 1) rest with
            | none => rfl
            | some m =>
                have hlt := lt_of_stringEnd hend
                have hdrop : p.rest.drop m = rest.drop (m - (n + 1)) := by
                  rw [← hrest, List.drop_drop]
                  congr 1
                  omega
                have hle : (rest.drop (m - (n + 1))).length ≤ rest.length := by
                  rw [List.length_drop]
                  exact Nat.sub_le _ _
                exact ih _ (Nat.lt_succ_of_le hle) hdepth hdrop rfl
        · next hquote =>
            split
            · next hopening =>
                have hlow := isLow_isOpening c hopening
                rw [utf8Size_of_lt hlow] at hnext
                rw [containerFrom_opening (hends.holds.getElem?_eq hlow) hopening, ← hnext]
                exact ih _ hlength (Nat.succ_pos depth) hrest rfl
            · next hopening =>
                split
                · next hclosing =>
                    have hlow := isLow_isClosing c hclosing
                    rw [utf8Size_of_lt hlow] at hnext
                    rw [containerFrom_closing (hends.holds.getElem?_eq hlow) hclosing hdepth,
                      ← hnext]
                    split
                    · rfl
                    · exact ih _ hlength (by omega) hrest rfl
                · next hclosing =>
                    rw [← ih _ hlength hdepth hrest rfl, hnext]
                    refine hends.holds.pass (fun x => containerFrom data (depth, x))
                      fun x o _ ho hoctet => ?_
                    rcases hoctet with rfl | hhigh
                    · exact containerFrom_plain ho (by simpa using hquote)
                        (Bool.eq_false_iff.2 hopening) (Bool.eq_false_iff.2 hclosing)
                    · exact containerFrom_plain ho (ne_of_high hhigh (by decide))
                        (isLow_isOpening.eq_false hhigh) (isLow_isClosing.eq_false hhigh)

end Container

/-- The index after the container that starts at a place. -/
theorem scanContainer_eq (h : Ends data p.offset p.rest) {c : Char} {t : Text}
    (hp : p.rest = c :: t) (hc : isOpening c = true) :
    scanContainer data p.offset =
      .some ((containerEnd 1 .plain 1 t).map fun m => (p.skip m).offset) := by
  have hlow := isLow_isOpening c hc
  have hholds := h.holds
  rw [hp] at hholds
  obtain ⟨hnext, hrest⟩ := offset_skip_succ (n := 0) hp
  rw [utf8Size_of_lt hlow] at hnext
  have hnext : (p.skip 1).offset = p.offset + 1 := hnext
  rw [scanContainer, containerFrom_opening (hholds.getElem?_eq hlow) hc, ← hnext]
  exact containerFrom_eq h Nat.one_pos hrest

/-! ### Numbers and words -/

theorem digitLoop_eq {x : Nat} {t : Text} (h : Ends data x t) :
    loop (digitRound data) x = .some (x + (t.takeWhile Char.isDigit).length) := by
  induction t generalizing x with
  | nil => exact loop_break (if_neg (Nat.not_lt.2 (Nat.le_of_eq h.length_eq)))
  | cons c t ih =>
      obtain ⟨o, ho, hclass⟩ := h.holds.exists_octet
      have hround : digitRound data x = .some (if c.isDigit then .inr (x + 1) else .inl x) := by
        rw [digitRound, round_of_octet (lt_of_getElem? ho) ho, hclass isLow_isDigit,
          Part.pure_eq_some]
      by_cases hc : c.isDigit = true
      · have htail := h.tail
        rw [utf8Size_of_lt (isLow_isDigit c hc)] at htail
        rw [if_pos hc] at hround
        rw [loop_next hround, ih htail, List.takeWhile_cons_of_pos hc, List.length_cons,
          Nat.add_assoc, Nat.add_comm 1]
      · rw [if_neg hc] at hround
        rw [loop_break hround, List.takeWhile_cons_of_neg hc]
        rfl

theorem digits_eq {x : Nat} {t : Text} (h : Ends data x t) :
    digits data x = .some ((digits? t).map fun r => x + r.1) := by
  rw [digits, digitLoop_eq h, some_bind, Part.pure_eq_some, digits?]
  cases t.takeWhile Char.isDigit with
  | nil => simp
  | cons c run => simp

theorem ends_of_digits? {x n : Nat} {t rest : Text} (h : Ends data x t)
    (hdigits : digits? t = some (n, rest)) : Ends data (x + n) rest := by
  rw [digits?] at hdigits
  split at hdigits
  · cases hdigits
  · cases hdigits
    have hlow : ∀ c ∈ t.takeWhile Char.isDigit, c.toNat < 0x80 := fun c hc =>
      isLow_isDigit c (List.mem_takeWhile_imp hc)
    rw [← byteLength_of_low hlow]
    refine Ends.drop ?_
    rwa [List.takeWhile_append_dropWhile]

theorem minus_ends {x : Nat} {t : Text} (h : Ends data x t) :
    (if data[x]? == some '-' then x + 1 else x) = x + (minus t).1 ∧
      Ends data (x + (minus t).1) (minus t).2 := by
  rw [h.beq_getElem? (by decide)]
  by_cases hhead : (t.head? == some '-') = true
  · obtain ⟨rest, rfl⟩ := List.head?_eq_some_iff.1 (beq_iff_eq.1 hhead)
    exact ⟨rfl, h.tail⟩
  · have hminus : minus t = (0, t) := by
      unfold minus
      split
      · exact absurd rfl hhead
      · rfl
    rw [if_neg hhead, hminus]
    exact ⟨rfl, h⟩

theorem fraction_eq {x : Nat} {t : Text} (h : Ends data x t) :
    (if data[x]? == some '.' then digits data (x + 1) else pure (some x)) =
      .some ((fraction? t).map fun r => x + r.1) := by
  rw [h.beq_getElem? (by decide)]
  by_cases hhead : (t.head? == some '.') = true
  · obtain ⟨rest, rfl⟩ := List.head?_eq_some_iff.1 (beq_iff_eq.1 hhead)
    have htail : Ends data (x + 1) rest := h.tail
    rw [if_pos hhead, digits_eq htail, fraction?, Option.map_map]
    congr 2
    funext r
    show x + 1 + r.1 = x + (r.1 + 1)
    omega
  · have hfraction : fraction? t = some (0, t) := by
      unfold fraction?
      split
      · exact absurd rfl hhead
      · rfl
    rw [if_neg hhead, hfraction]
    rfl

theorem ends_of_fraction? {x n : Nat} {t rest : Text} (h : Ends data x t)
    (hfraction : fraction? t = some (n, rest)) : Ends data (x + n) rest := by
  unfold fraction? at hfraction
  split at hfraction
  · next tail =>
      obtain ⟨⟨k, rest⟩, hdigits, heq⟩ := Option.map_eq_some_iff.1 hfraction
      cases heq
      have hends := ends_of_digits? h.tail hdigits
      have hindex : x + (k + 1) = x + '.'.utf8Size + k := by
        have hsize : '.'.utf8Size = 1 := rfl
        omega
      rwa [hindex]
  · cases hfraction
    exact h

theorem exponentSign_ends {x : Nat} {t : Text} (h : Ends data x t) :
    (if data[x]?.any fun c => c == '+' || c == '-' then x + 1 else x) = x + (exponentSign t).1 ∧
      Ends data (x + (exponentSign t).1) (exponentSign t).2 := by
  have hsign : IsLow fun c => c == '+' || c == '-' :=
    (isLow_beq (by decide)).or (isLow_beq (by decide))
  rw [h.any_getElem? hsign]
  cases t with
  | nil => exact ⟨rfl, h⟩
  | cons c t =>
      rw [exponentSign, List.head?_cons, Option.any_some]
      by_cases hc : (c == '+' || c == '-') = true
      · have htail := h.tail
        rw [utf8Size_of_lt (hsign c hc)] at htail
        rw [if_pos hc, if_pos hc]
        exact ⟨rfl, htail⟩
      · rw [if_neg hc, if_neg hc]
        exact ⟨rfl, h⟩

theorem exponent_eq {x : Nat} {t : Text} (h : Ends data x t) :
    (if data[x]?.any fun c => c == 'e' || c == 'E' then
      digits data (if data[x + 1]?.any fun c => c == '+' || c == '-' then x + 2 else x + 1)
    else pure (some x)) = .some ((exponent? t).map fun r => x + r.1) := by
  have hmark : IsLow fun c => c == 'e' || c == 'E' :=
    (isLow_beq (by decide)).or (isLow_beq (by decide))
  rw [h.any_getElem? hmark]
  cases t with
  | nil => rfl
  | cons c t =>
      rw [exponent?, List.head?_cons, Option.any_some]
      by_cases hc : (c == 'e' || c == 'E') = true
      · have htail := h.tail
        rw [utf8Size_of_lt (hmark c hc)] at htail
        obtain ⟨hsign, hends⟩ := exponentSign_ends htail
        rw [if_pos hc, if_pos hc, hsign, digits_eq hends, Option.map_map]
        congr 2
        funext r
        show x + 1 + (exponentSign t).1 + r.1 = x + (r.1 + (exponentSign t).1 + 1)
        omega
      · rw [if_neg hc, if_neg hc]
        rfl

/-- ASCII is counted alike in octets and in characters. -/
theorem offset_skip_of_low {u rest : Text} (hu : ∀ c ∈ u, c.toNat < 0x80) (hp : p.rest = u ++ rest) :
    (p.skip u.length).offset = p.offset + u.length := by
  rw [Place.skip, hp, List.take_left, byteLength_of_low hu]

/-- The index after the number that starts at a place. -/
theorem scanNumber_eq (h : Ends data p.offset p.rest) :
    scanNumber data p.offset = .some ((numberEnd? p.rest).map fun m => (p.skip m).offset) := by
  have hoffset : (numberEnd? p.rest).map (fun m => (p.skip m).offset) =
      (numberEnd? p.rest).map (p.offset + ·) := by
    refine Option.map_congr fun m hm => ?_
    obtain ⟨num, rest, hp, rfl, hnum⟩ := isNumeral_of_numberEnd? hm
    exact offset_skip_of_low (fun c hc => toNat_lt_of_isNumeric (hnum.isNumeric c hc)) hp
  have hsteps : numberEnd? p.rest = (digits? (minus p.rest).2).bind fun whole =>
      (fraction? whole.2).bind fun fraction => (exponent? fraction.2).map fun exponent =>
        (minus p.rest).1 + whole.1 + fraction.1 + exponent.1 := by
    rw [numberEnd?]
    simp only [Option.bind_eq_bind, Option.pure_def, Option.map_eq_bind]
    rfl
  obtain ⟨hminus, hends⟩ := minus_ends h
  rw [hoffset, scanNumber, hminus, digits_eq hends, some_bind, hsteps]
  cases hwhole : digits? (minus p.rest).2 with
  | none => rfl
  | some whole =>
      have hends := ends_of_digits? hends hwhole
      dsimp only [Option.map_some]
      rw [fraction_eq hends, some_bind, Option.bind_some]
      cases hfraction : fraction? whole.2 with
      | none => rfl
      | some fraction =>
          have hends := ends_of_fraction? hends hfraction
          dsimp only [Option.map_some]
          rw [Option.bind_some, Option.map_map]
          refine (exponent_eq hends).trans ?_
          congr 2
          funext exponent
          show p.offset + (minus p.rest).1 + whole.1 + fraction.1 + exponent.1 =
            p.offset + ((minus p.rest).1 + whole.1 + fraction.1 + exponent.1)
          omega

/-- A word of ASCII begins the octets of a text exactly when it begins the text. -/
theorem prefix_asOctets_iff {word t : Text} (hword : ∀ c ∈ word, c.toNat < 0x80) :
    word <+: t.asOctets ↔ word <+: t := by
  constructor
  · rintro ⟨after, hafter⟩
    induction word generalizing t with
    | nil => exact List.nil_prefix
    | cons c word ih =>
        obtain ⟨u, rfl, hu⟩ := Text.eq_cons_of_asOctets hafter.symm (hword c List.mem_cons_self)
        exact List.cons_prefix_cons.2 ⟨rfl, ih (fun d hd => hword d (List.mem_cons_of_mem c hd)) hu.symm⟩
  · rintro ⟨rest, rfl⟩
    rw [Text.asOctets_append, Text.asOctets_of_ascii hword]
    exact List.prefix_append _ _

/-- The index after the word that starts at a place. -/
theorem scanWord_eq (h : Ends data p.offset p.rest) {word : Text}
    (hword : ∀ c ∈ word, c.toNat < 0x80) :
    scanWord data p.offset word =
      .some ((wordEnd? word p.rest).map fun m => (p.skip m).offset) := by
  obtain ⟨before, rfl, hbefore⟩ := h
  have hahead : octetsFrom (before ++ p.rest.asOctets) p.offset = .some p.rest.asOctets := by
    rw [octetsFrom, ← hbefore, Part.assert_pos (by simp), List.drop_left]
  rw [scanWord, hahead, some_bind, Part.pure_eq_some, wordEnd?]
  by_cases hprefix : word <+: p.rest
  · obtain ⟨rest, hrest⟩ := hprefix
    rw [if_pos (List.isPrefixOf_iff_prefix.2 ((prefix_asOctets_iff hword).2 ⟨rest, hrest⟩)),
      if_pos (List.isPrefixOf_iff_prefix.2 ⟨rest, hrest⟩), Option.map_some,
      offset_skip_of_low hword hrest.symm]
  · rw [if_neg fun h => hprefix ((prefix_asOctets_iff hword).1 (List.isPrefixOf_iff_prefix.1 h)),
      if_neg fun h => hprefix (List.isPrefixOf_iff_prefix.1 h)]
    rfl

/-! ### Values -/

/-- The value that starts at a place. -/
theorem locate_eq (h : Ends data p.offset p.rest) :
    locate data p.offset = .some (p.value?.map fun r => .of r.1) := by
  have hvalue : p.value?.map (fun r => Span.of r.1) =
      (extent p.rest).map fun r => ⟨r.1, p.offset, (p.skip r.2).offset⟩ := by
    rw [Place.value?, Option.map_map]
    rfl
  rw [hvalue]
  cases hp : p.rest with
  | nil =>
      rw [hp] at h
      rw [locate, h.getElem?_nil]
      rfl
  | cons c t =>
      have hholds := h.holds
      rw [hp] at hholds
      obtain ⟨o, ho, hclass⟩ := hholds.exists_octet
      have hbeq : ∀ {d : Char}, d.toNat < 0x80 → (o == d) = (c == d) := fun hd =>
        hclass (isLow_beq hd)
      have hnumber : (o == '-' || o.isDigit) = (c == '-' || c.isDigit) :=
        hclass ((isLow_beq (by decide)).or isLow_isDigit)
      rw [locate, ho, extent]
      dsimp only
      rw [hclass isLow_isOpening, hbeq (by decide), hbeq (by decide), hbeq (by decide),
        hbeq (by decide), hnumber]
      split
      · next hc =>
          rw [scanContainer_eq h hp hc, some_bind, Option.map_map,
            Option.map_map]
          rfl
      · split
        · next hc =>
            obtain rfl := beq_iff_eq.1 hc
            rw [scanString_eq h hp, some_bind, Option.map_map,
              Option.map_map]
            rfl
        · split
          · rw [scanWord_eq h (by simp), hp, some_bind, Option.map_map,
              Option.map_map]
            rfl
          · split
            · rw [scanWord_eq h (by simp), hp, some_bind, Option.map_map,
                Option.map_map]
              rfl
            · split
              · rw [scanWord_eq h (by simp), hp, some_bind,
                  Option.map_map, Option.map_map]
                rfl
              · split
                · rw [scanNumber_eq h, hp, some_bind, Option.map_map,
                    Option.map_map]
                  rfl
                · rfl

/-- A value that has been read stops where the reader is. -/
theorem stop_of_value? {p q : Place} {v : Occurrence} (h : p.value? = some (v, q)) :
    (Span.of v).stop = q.offset := by
  obtain ⟨-, hoffset, hrest, rfl⟩ := Place.eq_of_value? h
  rw [Span.of, hoffset, Place.skip, hrest, List.take_left]

theorem kind_of_literal? {p q : Place} {v : Occurrence} (h : p.literal? = some (v, q)) :
    v.kind = .string := by
  unfold Place.literal? at h
  split at h
  · obtain ⟨n, -, heq⟩ := Option.map_eq_some_iff.1 h
    exact congrArg (·.1.kind) heq.symm
  · cases h

theorem of_literal? {p q : Place} {v : Occurrence} (h : p.literal? = some (v, q)) :
    Span.of v = ⟨.string, p.offset, q.offset⟩ := by
  obtain ⟨-, hoffset, hrest, hq⟩ := Place.eq_of_literal? h
  rw [Span.of, kind_of_literal? h, hoffset, hq, Place.skip, hrest, List.take_left]

theorem ends_of_literal? (h : Ends data p.offset p.rest) {q : Place} {v : Occurrence}
    (hv : p.literal? = some (v, q)) : Ends data q.offset q.rest := by
  obtain ⟨-, -, -, rfl⟩ := Place.eq_of_literal? hv
  exact ends_skip h rfl

theorem ends_of_value? (h : Ends data p.offset p.rest) {q : Place} {v : Occurrence}
    (hv : p.value? = some (v, q)) : Ends data q.offset q.rest := by
  obtain ⟨-, -, -, rfl⟩ := Place.eq_of_value? hv
  exact ends_skip h rfl

end Found

end DotPath.Indexed
