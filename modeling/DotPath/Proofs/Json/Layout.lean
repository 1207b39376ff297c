import DotPath.Json.Layout
import DotPath.Proofs.Json.Closure

/-!
# The compact layout of documents

The compact layout leaves out the space outside strings. On the text of a tree it gives the text of
the same tree without the space between its tokens, `Tree.compact`, and so a document stays a
document.

## Main results

* `compactsTo_source`: the compact layout of the text of a value.
* `minify_source`: the compact layout of a document.
-/

namespace DotPath.Json

/-! ## Values without space -/

namespace Tree

mutual

/-- The value without space between its tokens. -/
def compact : Tree → Tree
  | .scalar kind raw spelled => .scalar kind raw spelled
  | .emptyArray _ => .emptyArray .none
  | .array ⟨_, value, _⟩ rest => .array (.bare value.compact) (compactItems rest)
  | .emptyObject _ => .emptyObject .none
  | .object ⟨_, key, _, ⟨_, value, _⟩⟩ rest =>
    .object ⟨.none, key, .none, .bare value.compact⟩ (compactEntries rest)

/-- Items without space in and around them. -/
def compactItems : List (Item Tree) → List (Item Tree)
  | [] => []
  | ⟨_, value, _⟩ :: rest => .bare value.compact :: compactItems rest

/-- Members without space in and around them. -/
def compactEntries : List (Entry Tree) → List (Entry Tree)
  | [] => []
  | ⟨_, key, _, ⟨_, value, _⟩⟩ :: rest =>
    ⟨.none, key, .none, .bare value.compact⟩ :: compactEntries rest

end

/-- An item without space in and around it. -/
def compactItem (i : Item Tree) : Item Tree :=
  .bare i.value.compact

/-- A member without space in and around it. -/
def compactEntry (e : Entry Tree) : Entry Tree :=
  ⟨.none, e.key, .none, .bare e.item.value.compact⟩

theorem compact_array (first : Item Tree) (rest : List (Item Tree)) :
    (array first rest).compact = .array (compactItem first) (compactItems rest) := by
  rfl

theorem compactItems_cons (i : Item Tree) (rest : List (Item Tree)) :
    compactItems (i :: rest) = compactItem i :: compactItems rest := by
  rfl

theorem compact_object (first : Entry Tree) (rest : List (Entry Tree)) :
    (object first rest).compact = .object (compactEntry first) (compactEntries rest) := by
  rfl

theorem compactEntries_cons (e : Entry Tree) (rest : List (Entry Tree)) :
    compactEntries (e :: rest) = compactEntry e :: compactEntries rest := by
  rfl

end Tree

/-! ## The compact layout -/

/-- Outside strings the first text becomes the second, whatever comes after it. -/
def CompactsTo (s s' : Text) : Prop :=
  ∀ rest, compactFrom .plain (s ++ rest) = s' ++ compactFrom .plain rest

theorem CompactsTo.append {s s' t t' : Text} (hs : CompactsTo s s') (ht : CompactsTo t t') :
    CompactsTo (s ++ t) (s' ++ t') := by
  intro rest
  rw [List.append_assoc, hs, ht, List.append_assoc]

theorem compactsTo_nil : CompactsTo [] [] := fun _ => rfl

/-- Space is left out. -/
theorem compactsTo_spaces (s : Spaces) : CompactsTo s.1 [] := by
  obtain ⟨s, hs⟩ := s
  induction s with
  | nil => exact compactsTo_nil
  | cons c s ih =>
      intro rest
      have hc : isSpace c = true := hs c List.mem_cons_self
      rw [List.cons_append, compactFrom, hc, if_pos rfl]
      exact ih (fun d hd => hs d (List.mem_cons_of_mem c hd)) rest

/-- Every other character outside strings stays. -/
theorem compactsTo_self {s : Text} (h : ∀ c ∈ s, isSpace c = false ∧ c ≠ '"') :
    CompactsTo s s := by
  induction s with
  | nil => exact compactsTo_nil
  | cons c s ih =>
      intro rest
      obtain ⟨hspace, hquote⟩ := h c List.mem_cons_self
      have hs := ih (fun d hd => h d (List.mem_cons_of_mem c hd)) rest
      simp [compactFrom, hspace, hquote, hs]

theorem compactsTo_char {c : Char} (hspace : isSpace c = false) (hquote : c ≠ '"') :
    CompactsTo [c] [c] :=
  compactsTo_self (by simp [hspace, hquote])

private theorem compactFrom_quoted {body : Text} (h : IsRun body) (rest : Text) :
    compactFrom .quoted (body ++ '"' :: rest) = body ++ '"' :: compactFrom .plain rest := by
  induction h with
  | nil => rfl
  | plain hq hb _ ih => simp [compactFrom, hq, hb, ih]
  | escaped c _ ih => simp [compactFrom, ih]

/-- A string stays as it is spelled, space in it included. -/
theorem compactsTo_string {body : Text} (h : IsRun body) :
    CompactsTo ('"' :: (body ++ ['"'])) ('"' :: (body ++ ['"'])) := by
  intro rest
  have hquoted := compactFrom_quoted h rest
  simp [compactFrom, isSpace, hquoted]

private theorem plain_of_isNumeric {c : Char} (h : isNumeric c) : isSpace c = false ∧ c ≠ '"' := by
  constructor
  · refine Bool.eq_false_iff.2 fun hspace => ?_
    rcases eq_of_isSpace hspace with rfl | rfl | rfl | rfl <;> cases h
  · rintro rfl
    cases h

/-- A scalar stays as it is spelled. -/
theorem IsScalar.compactsTo {kind : Kind} {t : Text} (h : IsScalar kind t) : CompactsTo t t := by
  cases h with
  | nullWord => exact compactsTo_self (by simp [isSpace])
  | falseWord => exact compactsTo_self (by simp [isSpace])
  | trueWord => exact compactsTo_self (by simp [isSpace])
  | number hn => exact compactsTo_self fun c hc => plain_of_isNumeric (hn.isNumeral.isNumeric c hc)
  | string hb => exact compactsTo_string hb.isRun

section Parts

open DotPath.Json.Tree

theorem compactsTo_item {i : Item Tree} (h : CompactsTo i.value.source i.value.compact.source) :
    CompactsTo (i.source source) ((compactItem i).source source) := by
  have hitem := (compactsTo_spaces i.before).append (h.append (compactsTo_spaces i.after))
  simpa [Item.source, compactItem, Item.bare, Spaces.none] using hitem

theorem compactsTo_entry {e : Entry Tree}
    (h : CompactsTo e.item.value.source e.item.value.compact.source) :
    CompactsTo (e.source source) ((compactEntry e).source source) := by
  have hcolon := compactsTo_char (c := ':') rfl (by decide)
  have hvalue := (compactsTo_spaces e.gap).append (hcolon.append (compactsTo_item h))
  have hkey := (compactsTo_string e.key.spelled.isRun).append hvalue
  have hentry := (compactsTo_spaces e.before).append hkey
  simpa [Entry.source, Item.source, compactItem, compactEntry, Item.bare, Spaces.none,
    Key.source] using hentry

theorem compactsTo_tailSource {items : List (Item Tree)}
    (h : ∀ i ∈ items, CompactsTo i.value.source i.value.compact.source) :
    CompactsTo (tailSource source items) (tailSource source (compactItems items)) := by
  induction items with
  | nil => exact compactsTo_nil
  | cons i items ih =>
      have hcomma := compactsTo_char (c := ',') rfl (by decide)
      have hi := compactsTo_item (h i List.mem_cons_self)
      have hrest := ih fun j hj => h j (List.mem_cons_of_mem i hj)
      exact hcomma.append (hi.append hrest)

theorem compactsTo_entryTailSource {entries : List (Entry Tree)}
    (h : ∀ e ∈ entries, CompactsTo e.item.value.source e.item.value.compact.source) :
    CompactsTo (entryTailSource source entries)
      (entryTailSource source (compactEntries entries)) := by
  induction entries with
  | nil => exact compactsTo_nil
  | cons e entries ih =>
      have hcomma := compactsTo_char (c := ',') rfl (by decide)
      have he := compactsTo_entry (h e List.mem_cons_self)
      have hrest := ih fun f hf => h f (List.mem_cons_of_mem e hf)
      exact hcomma.append (he.append hrest)

/-- Brackets stay, and what is between them is compacted. -/
theorem CompactsTo.enclose {s s' : Text} {o c : Char} (h : CompactsTo s s')
    (ho : isSpace o = false ∧ o ≠ '"') (hc : isSpace c = false ∧ c ≠ '"') :
    CompactsTo (o :: (s ++ [c])) (o :: (s' ++ [c])) :=
  (compactsTo_char ho.1 ho.2).append (h.append (compactsTo_char hc.1 hc.2))

/-- The compact layout of the text of a value is the text of the value without space. -/
theorem compactsTo_source (t : Tree) : CompactsTo t.source t.compact.source := by
  induction t with
  | scalar kind raw spelled => exact spelled.compactsTo
  | emptyArray inside => exact (compactsTo_spaces inside).enclose (by decide) (by decide)
  | emptyObject inside => exact (compactsTo_spaces inside).enclose (by decide) (by decide)
  | array first rest hfirst hrest =>
      have hinside := (compactsTo_item hfirst).append (compactsTo_tailSource hrest)
      rw [compact_array, source_array, source_array, itemsSource_eq, itemsSource_eq,
        ← List.append_assoc, ← List.append_assoc]
      exact hinside.enclose (by decide) (by decide)
  | object first rest hfirst hrest =>
      have hinside := (compactsTo_entry hfirst).append (compactsTo_entryTailSource hrest)
      rw [compact_object, source_object, source_object, entriesSource_eq, entriesSource_eq,
        ← List.append_assoc, ← List.append_assoc]
      exact hinside.enclose (by decide) (by decide)

end Parts

theorem compactFrom_source (t : Tree) : compactFrom .plain t.source = t.compact.source := by
  have hsource := compactsTo_source t []
  rwa [List.append_nil, compactFrom, List.append_nil] at hsource

theorem document?_source (d : Document) :
    document? d.source = some ⟨d.root.kind, Text.byteLength d.before.1, d.root.source⟩ := by
  have hwell : wellFormed none d.source = true := isDocument_iff.1 ⟨d, rfl⟩
  rw [document?, hwell, if_pos rfl, d.firstValue?_source]

/-- The compact layout of a document is its root without space. -/
theorem minify_source (d : Document) : minify d.source = d.root.compact.source := by
  rw [minify, document?_source]
  exact compactFrom_source d.root

theorem isDocument_minify {t : Text} (h : IsDocument t) : IsDocument (minify t) := by
  obtain ⟨d, rfl⟩ := h
  rw [minify_source]
  exact IsValue.isDocument ⟨d.root.compact, rfl⟩

end DotPath.Json
