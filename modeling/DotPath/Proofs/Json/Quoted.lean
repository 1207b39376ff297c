import DotPath.Proofs.Json.Composed

/-!
# Names are read as they were written

A name is escaped when it becomes a key, and the key is decoded when the object is scanned again.
One character at a time, the reader takes back what the writer has put down, so that a key stands
for the name that it was written from, whatever characters the name has. A text without escapes is
not decoded at all, but then nothing was escaped.

So an object that is composed of values under names is scanned for these names and these values, in
the order in which they were given and with names that occur more than once as often as they do.

## Main results

* `text_encode`: a quoted text stands for the text.
* `members_composeObject`: the members of an object that is composed.
-/

namespace DotPath.Json

namespace Quoted

/-! ## One character -/

/-- The digits of a control character. -/
theorem hex4?_hexDigit {n : Nat} (h : n < 0x20) :
    hex4? '0' '0' (hexDigit (n / 16)) (hexDigit n) = some n := by
  have hall : ∀ k : Fin 0x20,
      hex4? '0' '0' (hexDigit (k.val / 16)) (hexDigit k.val) = some k.val := by
    decide +kernel
  exact hall ⟨n, h⟩

theorem codeUnit?_of_ne_backslash {c : Char} (hc : c ≠ '\\') (rest : Text) :
    codeUnit? (c :: rest) = none := by
  unfold codeUnit?
  split
  · next heq =>
      cases heq
      exact absurd rfl hc
  · rfl

/-- A character that is written with its code is read with its code. -/
theorem unit?_control {c : Char} (hc : c.toNat < 0x20) (rest : Text) :
    unit? ('\\' :: 'u' :: '0' :: '0' :: hexDigit (c.toNat / 16) :: hexDigit c.toNat :: rest) =
      some (c, rest) := by
  have hcode : codeUnit? ('\\' :: 'u' :: '0' :: '0' :: hexDigit (c.toNat / 16) ::
      hexDigit c.toNat :: rest) = some (c.toNat, rest) := by
    rw [codeUnit?, hex4?_hexDigit hc]
    rfl
  have hhigh : isHighSurrogate c.toNat = false := by
    simp only [isHighSurrogate, Bool.and_eq_false_iff, decide_eq_false_iff_not]
    omega
  have hlow : isLowSurrogate c.toNat = false := by
    simp only [isLowSurrogate, Bool.and_eq_false_iff, decide_eq_false_iff_not]
    omega
  rw [unit?, hcode]
  dsimp only
  rw [hhigh, hlow]
  simp only [Bool.false_eq_true, if_false, Char.ofNat_toNat]

/-- A character that stands for itself is read as itself. -/
theorem unit?_plain {c : Char} (hq : c ≠ '"') (hb : c ≠ '\\') (hc : ¬ c.toNat < 0x20)
    (rest : Text) : unit? (c :: rest) = some (c, rest) := by
  have hplain : (c == '"' || c == '\\' || decide (c.toNat < 0x20)) = false := by
    simp [hq, hb, hc]
  rw [unit?, codeUnit?_of_ne_backslash hb]
  simp only [hplain, Bool.false_eq_true, if_false]
  exact fun d u heq _ => hb heq

/-- The reader takes back one character as it was written. -/
theorem unit?_escape (c : Char) (rest : Text) : unit? (escape c ++ rest) = some (c, rest) := by
  unfold escape
  iterate 7
    split
    · next hc =>
        rw [beq_iff_eq.1 hc]
        rfl
  split
  · next hc => exact unit?_control hc rest
  · next hq hb _ _ _ _ _ hc => exact unit?_plain (by simpa using hq) (by simpa using hb) hc rest

/-- A character stands for itself, or a backslash is written in front. -/
theorem escape_cases (c : Char) : escape c = [c] ∨ '\\' ∈ escape c := by
  unfold escape
  iterate 8
    split
    · exact .inr List.mem_cons_self
  exact .inl rfl

/-! ## Whole texts -/

theorem decode?_of_unit? {body rest : Text} {c : Char} (h : unit? body = some (c, rest)) :
    decode? body = (decode? rest).map (c :: ·) := by
  have hne : body.isEmpty = false := by
    cases body with
    | nil => cases h
    | cons d t => rfl
  rw [decode?, hne, if_neg Bool.false_ne_true]
  split
  · next hnone =>
      rw [h] at hnone
      cases hnone
  · next hsome =>
      rw [h] at hsome
      cases hsome
      rfl

theorem decode?_flatMap_escape (t : Text) : decode? (t.flatMap escape) = some t := by
  induction t with
  | nil =>
      rw [List.flatMap_nil, decode?]
      rfl
  | cons c t ih =>
      rw [List.flatMap_cons, decode?_of_unit? (unit?_escape c _), ih]
      rfl

/-- Where no backslash was written, nothing was escaped. -/
theorem flatMap_escape_of_not_mem {t : Text} (h : '\\' ∉ t.flatMap escape) :
    t.flatMap escape = t := by
  induction t with
  | nil => rfl
  | cons c t ih =>
      rw [List.flatMap_cons, List.mem_append, not_or] at h
      rw [List.flatMap_cons, ih h.2, (escape_cases c).resolve_right h.1]
      rfl

theorem body_quoted (body : Text) : Quoted.body ('"' :: (body ++ ['"'])) = body := by
  rw [Quoted.body, List.drop_one, List.tail_cons, List.dropLast_concat]

/-- A quoted text stands for the text. -/
theorem text_encode (t : Text) : Quoted.text (encode t) = t := by
  have hbody : Quoted.body (encode t) = t.flatMap escape := body_quoted _
  rw [Quoted.text, hbody, unescape]
  split
  · rw [decode?_flatMap_escape]
    rfl
  · next h => exact flatMap_escape_of_not_mem (by simpa using h)

end Quoted

/-! ## Objects of named values -/

section Objects

variable {α : Type} {kind : α → Kind} {name write : α → Text}

/-- A named value as a member, without space in it. -/
def Entry.named (name : α → Text) (a : α) : Entry α :=
  ⟨.none, .ofName (name a), .none, .bare a⟩

theorem Entry.source_named (a : α) :
    (Entry.named name a).source write = Quoted.encode (name a) ++ ':' :: write a := by
  simp [Entry.named, Entry.source, Item.source, Item.bare, Spaces.none, Key.source_ofName]

/-- An object that is composed is an object that is laid out without space. -/
theorem composeObject_cons (a : α) (as : List α) :
    composeObject ((a :: as).map fun b => (name b, write b)) =
      '\x7b' :: ((Entry.named name a).source write ++
        (entryTailSource write (as.map (Entry.named name)) ++ ['\x7d'])) := by
  rw [composeObject, composeMembers, List.map_map, List.map_map]
  show '\x7b' :: (List.intercalate [','] ((a :: as).map fun b =>
    Quoted.encode (name b) ++ ':' :: write b) ++ ['\x7d']) = _
  rw [intercalate_comma, entryTailSource_eq_flatMap, List.flatMap_map]
  simp only [Entry.source_named, List.append_assoc]

theorem fills_of_mem_named {as : List α} (hfills : ∀ a ∈ as, Fills (kind a) (write a)) :
    ∀ e ∈ as.map (Entry.named name), Fills (kind e.item.value) (write e.item.value) := by
  intro e he
  obtain ⟨a, ha, rfl⟩ := List.mem_map.1 he
  exact hfills a ha

/-- The members of an object that is composed of named values are these values, by their names. -/
theorem members_composeObject {as : List α} (hfills : ∀ a ∈ as, Fills (kind a) (write a)) :
    (members (composeObject (as.map fun a => (name a, write a)))).map
        (fun m => (Quoted.text m.key.raw, m.value.kind, m.value.raw)) =
      as.map fun a => (name a, kind a, write a) := by
  cases as with
  | nil =>
      have hnone : members (composeObject ([].map fun a => (name a, write a))) = [] :=
        members_empty .none []
      rw [hnone]
      rfl
  | cons a as =>
      have hscan : members (composeObject ((a :: as).map fun b => (name b, write b))) =
          entryOccurrences kind write 1 ((a :: as).map (Entry.named name)) := by
        rw [composeObject_cons]
        exact members_layout [] (fills_of_mem_named hfills)
      have hdecoded := congrArg (List.map fun m => (Quoted.text m.1, m.2))
        (map_entryOccurrences kind write 1 ((a :: as).map (Entry.named name)))
      rw [List.map_map, List.map_map, List.map_map] at hdecoded
      rw [hscan]
      refine hdecoded.trans (List.map_congr_left fun b _ => ?_)
      show (Quoted.text (Quoted.encode (name b)), kind b, write b) = _
      rw [Quoted.text_encode]

/-- An object that is composed of values is a value. -/
theorem fills_composeObject {as : List α} (hfills : ∀ a ∈ as, Fills (kind a) (write a)) :
    Fills .container (composeObject (as.map fun a => (name a, write a))) := by
  cases as with
  | nil => exact fills_container rfl rfl passes_nil
  | cons a as =>
      have hentries : ∀ e ∈ (a :: as).map (Entry.named name),
          Fills (kind e.item.value) (write e.item.value) := fills_of_mem_named hfills
      have ha := (Entry.named name a).passes (hentries _ List.mem_cons_self).passes
      have htail : Passes (entryTailSource write (as.map (Entry.named name))) :=
        passes_entryTailSource fun e he => (hentries e (List.mem_cons_of_mem _ he)).passes
      rw [composeObject_cons, ← List.append_assoc]
      exact fills_container rfl rfl (ha.append htail)

end Objects

end DotPath.Json
