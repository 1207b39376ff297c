import DotPath.Proofs.Number.Reading
import DotPath.Proofs.Path.Compile
import DotPath.Proofs.Text.Glob

/-!
# Plain components of a path

A component in which a backslash stands before every character that has a meaning of its own is
read as one plain component, up to the separator behind it or the end of the path. So a path can be
put together from keys that are escaped and from positions, and the components that are read are the
ones it was put together from.

An escaped key stands for itself, unless it consists of digits. Digits are a position, and a
position leads to the member that is named by it. This is the same member if the digits have no zero
in front that could be left out.

## Main results

* `compile_guarded`: a path that is put together from components is read as these components.
* `plainSegment_escapeComponent`: what an escaped key is read as.
-/

namespace DotPath

/-! ## Guarded texts -/

/-- A text with a backslash before every character that has a meaning of its own. -/
inductive Guarded : Text → Prop where
  | nil : Guarded []
  | bare {c : Char} {t : Text} : c ∉ pathMarks → Guarded t → Guarded (c :: t)
  | escaped (c : Char) {t : Text} : Guarded t → Guarded ('\\' :: c :: t)

theorem escapeComponent_cons (c : Char) (key : Text) :
    escapeComponent (c :: key) =
      if c ∈ pathMarks then '\\' :: c :: escapeComponent key else c :: escapeComponent key := by
  rw [escapeComponent, List.flatMap_cons, ← escapeComponent, List.contains_eq_mem]
  by_cases hc : c ∈ pathMarks
  · simp [hc]
  · simp [hc]

theorem guarded_escapeComponent (key : Text) : Guarded (escapeComponent key) := by
  induction key with
  | nil => exact .nil
  | cons c key ih =>
      rw [escapeComponent_cons]
      split
      · exact .escaped c ih
      · next hc => exact .bare hc ih

/-- A character without a meaning of its own is none that a reader of components looks for. -/
theorem of_not_mem_pathMarks {c : Char} (hc : c ∉ pathMarks) :
    (c ≠ '\\' ∧ isSeparator c = false) ∧ (c ≠ '*' ∧ c ≠ '?') ∧
      c ≠ '#' ∧ c ≠ '@' ∧ c ≠ '!' ∧ Json.isOpening c = false := by
  simp only [pathMarks, List.mem_cons, not_or] at hc
  simp [isSeparator, Json.isOpening, hc]

theorem not_mem_pathMarks_of_isDigit {c : Char} (hc : c.isDigit = true) : c ∉ pathMarks := by
  have hnone : pathMarks.all (!·.isDigit) = true := rfl
  intro hmem
  have := List.all_eq_true.1 hnone c hmem
  rw [hc] at this
  cases this

theorem guarded_of_digits {t : Text} (h : t.all Char.isDigit = true) : Guarded t := by
  induction t with
  | nil => exact .nil
  | cons c t ih =>
      rw [List.all_cons, Bool.and_eq_true] at h
      exact .bare (not_mem_pathMarks_of_isDigit h.1) (ih h.2)

namespace Guarded

variable {t tail : Text}

/-- The separator behind a guarded text is the first one that no backslash protects. -/
theorem plainLength_append (h : Guarded t) (htail : ∀ c ∈ tail.head?, isSeparator c = true) :
    plainLength (t ++ tail) = t.length := by
  induction h with
  | nil =>
      cases tail with
      | nil => rfl
      | cons c tail =>
          have hsep := htail c rfl
          have hc : c ≠ '\\' := by
            rintro rfl
            cases hsep
          rw [List.nil_append, plainLength_cons hc, if_pos hsep]
          rfl
  | @bare c t hc _ ih =>
      obtain ⟨⟨hslash, hsep⟩, -⟩ := of_not_mem_pathMarks hc
      rw [List.cons_append, plainLength_cons hslash, hsep, if_neg Bool.false_ne_true, ih,
        List.length_cons]
  | escaped c _ ih =>
      rw [List.cons_append, List.cons_append, plainLength, ih, List.length_cons, List.length_cons]

/-- No star and no question mark is left without a backslash. -/
theorem isPattern_eq_false (h : Guarded t) : Glob.isPattern t = false := by
  rw [Glob.isPattern]
  induction h with
  | nil => rfl
  | @bare c t hc _ ih =>
      obtain ⟨⟨hslash, -⟩, ⟨hstar, hmark⟩, -⟩ := of_not_mem_pathMarks hc
      rw [Glob.tokens_literal hstar hmark fun hc => absurd hc hslash, List.any_cons, ih]
      rfl
  | escaped c _ ih =>
      rw [Glob.tokens, List.any_cons, ih]
      rfl

/-- A guarded text begins with no sign for another kind of component. -/
theorem head_ne {c : Char} (h : Guarded (c :: t)) :
    c ≠ '#' ∧ isSeparator c = false ∧ c ≠ '@' ∧ c ≠ '!' ∧ Json.isOpening c = false := by
  cases h with
  | bare hc _ =>
      obtain ⟨⟨-, hsep⟩, -, hhash, hat, hmark, hopen⟩ := of_not_mem_pathMarks hc
      exact ⟨hhash, hsep, hat, hmark, hopen⟩
  | escaped d _ => decide

/-- A guarded text is read as one plain component, up to the separator behind it. -/
theorem readComponent_append (h : Guarded t) (hne : t ≠ []) (tail : Text)
    (htail : ∀ c ∈ tail.head?, isSeparator c = true) (nested : PathReader)
    (condition : ConditionReader) (k : Nat) :
    readComponent nested condition ⟨k, t ++ tail⟩ =
      .ok (plainSegment t, ⟨k + Text.byteLength t, tail⟩) := by
  have hplain : readPlain ⟨k, t ++ tail⟩ =
      .ok (plainSegment t, ⟨k + Text.byteLength t, tail⟩) := by
    have hlength := h.plainLength_append htail
    have hpos : plainLength (t ++ tail) ≠ 0 := by
      rw [hlength]
      exact fun hzero => hne (List.length_eq_zero_iff.1 hzero)
    rw [readPlain_eq hpos, Place.skip, hlength, List.take_left, List.drop_left]
  obtain ⟨c, rest, rfl⟩ := List.exists_cons_of_ne_nil hne
  obtain ⟨hhash, hsep, hat, hmark, hopen⟩ := h.head_ne
  rw [readComponent_cons (p := ⟨k, c :: rest ++ tail⟩) rfl hhash, hsep, hopen, hplain]
  simp [hat, hmark]

end Guarded

/-! ## Paths that are put together -/

/-- Components with dots between them begin with the first character of the first component. -/
theorem head_intercalate {t : Text} (ht : t ≠ []) (rest : List Text) :
    ∃ c s s', t = c :: s ∧ List.intercalate ['.'] (t :: rest) = c :: s' := by
  obtain ⟨c, s, rfl⟩ := List.exists_cons_of_ne_nil ht
  cases rest with
  | nil => exact ⟨c, s, s, rfl, List.intercalate_singleton⟩
  | cons u rest => exact ⟨c, s, _, rfl, by rw [List.intercalate_cons_cons]; rfl⟩

/-- Guarded components with dots between them are read as these components. -/
theorem readComponents_guarded (nested : PathReader) (condition : ConditionReader) (k : Nat)
    {components : List Text} (hne : components ≠ [])
    (h : ∀ t ∈ components, t ≠ [] ∧ Guarded t) :
    readComponents nested condition ⟨k, List.intercalate ['.'] components⟩ =
      .ok (components.map plainSegment) := by
  induction components generalizing k with
  | nil => exact absurd rfl hne
  | cons t rest ih =>
      obtain ⟨ht, hguarded⟩ := h t List.mem_cons_self
      cases rest with
      | nil =>
          have hread := hguarded.readComponent_append ht [] nofun nested condition k
          rw [List.append_nil] at hread
          rw [List.intercalate_singleton, readComponents_of hread, readRest_nil rfl]
          rfl
      | cons u rest =>
          have hmore := ih (k + Text.byteLength t + 1) (List.cons_ne_nil u rest)
            fun v hv => h v (List.mem_cons_of_mem t hv)
          obtain ⟨hu, huguarded⟩ := h u (by simp)
          obtain ⟨d, s, s', rfl, hs'⟩ := head_intercalate hu rest
          have hread := hguarded.readComponent_append ht ('.' :: d :: s') (by rintro c ⟨⟩; rfl)
            nested condition k
          -- The next component begins with no dot, so that the dot before it is a separator.
          have hdots : ¬ ('.' == '.' && d == '.') = true := by
            intro hdot
            obtain rfl : d = '.' := by simpa using hdot
            cases huguarded.head_ne.2.1
          rw [List.intercalate_cons_cons, hs', List.append_assoc, List.singleton_append,
            readComponents_of hread, readRest_separator (p := ⟨_, '.' :: d :: s'⟩) rfl rfl hdots]
          rw [hs'] at hmore
          rw [show (Place.mk (k + Text.byteLength t) ('.' :: d :: s')).skip 1 =
            ⟨k + Text.byteLength t + 1, d :: s'⟩ from rfl, hmore]
          rfl

/-- The path is the same at every place, at the top and inside another path. -/
theorem readPath_guarded (nested : PathReader) (condition : ConditionReader) (top : Bool) (k : Nat)
    {components : List Text} (hne : components ≠ [])
    (h : ∀ t ∈ components, t ≠ [] ∧ Guarded t) :
    readPath nested condition top ⟨k, List.intercalate ['.'] components⟩ =
      .ok (components.map plainSegment) := by
  have hread := readComponents_guarded nested condition k hne h
  obtain ⟨t, rest, rfl⟩ := List.exists_cons_of_ne_nil hne
  obtain ⟨ht, hguarded⟩ := h t List.mem_cons_self
  obtain ⟨c, s, s', rfl, hs'⟩ := head_intercalate ht rest
  rw [hs'] at hread ⊢
  rw [readPath]
  -- Two dots in front would be a descent, or make the path take the document for a stream.
  split
  · next hnil => cases hnil
  · next u hdots =>
      cases hdots
      cases hguarded.head_ne.2.1
  · exact hread

/-- A guarded text is a path of one component. -/
theorem readPath_plain (nested : PathReader) (condition : ConditionReader) (top : Bool) (k : Nat)
    {t : Text} (hne : t ≠ []) (h : Guarded t) :
    readPath nested condition top ⟨k, t⟩ = .ok [plainSegment t] := by
  have hone : ∀ u ∈ [t], u ≠ [] ∧ Guarded u := by
    intro u hu
    rw [List.mem_singleton.1 hu]
    exact ⟨hne, h⟩
  have hread := readPath_guarded nested condition top k (List.cons_ne_nil t []) hone
  rwa [List.intercalate_singleton] at hread

/-- A path that is put together from guarded components is read as these components. -/
theorem compile_guarded {components : List Text} (hne : components ≠ [])
    (h : ∀ t ∈ components, t ≠ [] ∧ Guarded t) :
    Path.compile (List.intercalate ['.'] components) = .ok (components.map plainSegment) := by
  have hjoined : List.intercalate ['.'] components ≠ [] := by
    obtain ⟨t, rest, rfl⟩ := List.exists_cons_of_ne_nil hne
    obtain ⟨c, s, s', -, hs'⟩ := head_intercalate (h t List.mem_cons_self).1 rest
    rw [hs']
    exact List.cons_ne_nil c s'
  rw [compile_eq_readPath hjoined, Place.start, readPath_guarded _ _ _ _ hne h]

/-! ## Keys -/

theorem unescapeComponent_cons {c : Char} (hc : c ≠ '\\') (t : Text) :
    unescapeComponent (c :: t) = c :: unescapeComponent t := by
  rw [unescapeComponent]
  rintro d rest rfl
  exact absurd rfl hc

/-- Escaping is undone. -/
theorem unescapeComponent_escapeComponent (key : Text) :
    unescapeComponent (escapeComponent key) = key := by
  induction key with
  | nil => rfl
  | cons c key ih =>
      rw [escapeComponent_cons]
      split
      · rw [unescapeComponent, ih]
      · next hc =>
          obtain ⟨⟨hslash, -⟩, -⟩ := of_not_mem_pathMarks hc
          rw [unescapeComponent_cons hslash, ih]

theorem escapeComponent_ne_nil {key : Text} (hne : key ≠ []) : escapeComponent key ≠ [] := by
  intro hnil
  rw [← unescapeComponent_escapeComponent key, hnil] at hne
  exact hne rfl

/-- Digits are written as they are, and a key that is no digits is none when it is escaped. -/
theorem all_isDigit_escapeComponent (key : Text) :
    (escapeComponent key).all Char.isDigit = key.all Char.isDigit := by
  induction key with
  | nil => rfl
  | cons c key ih =>
      rw [escapeComponent_cons, List.all_cons]
      split
      · next hc =>
          have hdigit : c.isDigit = false := by
            by_contra hdigit
            exact not_mem_pathMarks_of_isDigit (Bool.not_eq_false _ ▸ hdigit) hc
          rw [hdigit, List.all_cons]
          rfl
      · rw [List.all_cons, ih]

theorem escapeComponent_of_digits {key : Text} (h : key.all Char.isDigit = true) :
    escapeComponent key = key := by
  induction key with
  | nil => rfl
  | cons c key ih =>
      rw [List.all_cons, Bool.and_eq_true] at h
      rw [escapeComponent_cons, if_neg (not_mem_pathMarks_of_isDigit h.1), ih h.2]

/-- An escaped key stands for itself, but for digits that stand for a position. -/
theorem plainSegment_escapeComponent {key : Text} (hne : key ≠ []) :
    plainSegment (escapeComponent key) =
      if key.all Char.isDigit ∧ Number.natOfDigits key ≤ Number.maxUInt64 then
        .index (Number.natOfDigits key)
      else .field key := by
  rw [plainSegment, all_isDigit_escapeComponent,
    (guarded_escapeComponent key).isPattern_eq_false, unescapeComponent_escapeComponent]
  by_cases hdigits : key.all Char.isDigit = true
  · rw [escapeComponent_of_digits hdigits, Number.uint64?_of_digits hne hdigits]
    by_cases hfits : Number.natOfDigits key ≤ Number.maxUInt64
    · simp [hdigits, hfits]
    · simp [hdigits, hfits]
  · simp [hdigits]

/--
The name of the member that an escaped key leads to in an object. Digits that fit into a machine
word stand for a position, and in an object a position leads to the member that it is written like.
-/
def nameRead (key : Text) : Text :=
  if key.all Char.isDigit ∧ Number.natOfDigits key ≤ Number.maxUInt64 then
    Text.ofNat (Number.natOfDigits key)
  else key

theorem nameRead_of_not_isPadded {key : Text} (hne : key ≠ []) (h : ¬ Number.IsPadded key) :
    nameRead key = key := by
  unfold nameRead
  split
  · next hdigits => exact Number.ofNat_natOfDigits hne hdigits.1 h
  · rfl

/-- A position that fits into a machine word is read back. -/
theorem plainSegment_ofNat {n : Nat} (h : n ≤ Number.maxUInt64) :
    plainSegment (Text.ofNat n) = .index n := by
  rw [plainSegment, if_pos (Number.all_isDigit_ofNat n), Number.uint64?_ofNat h]

end DotPath
