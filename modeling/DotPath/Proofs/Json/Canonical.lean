import DotPath.Proofs.Json.Layout
import DotPath.Proofs.Json.LeftOpen

/-!
# The compact layout is canonical

The grammar is unambiguous: a text is written from one tree only, if space is not counted. What the
scans find in the text of a value determines it, from the outside in. So a document and its compact
layout, which is the text of the same tree without space, have the same tokens, and documents with
the same tokens have the same compact layout. The tokens are those of the tree, as they are spelled.

## Main definitions

* `Tree.tokens`: the tokens of a value, in order.

## Main results

* `Tree.compact_eq_of_source_eq`: a text has one tree but for space.
* `Tree.flatten_tokens`: the compact layout is the tokens, one after the other.
* `minify_canonical`: what the compact layout keeps, what it leaves out, and when two are the same.
-/

namespace DotPath.Json

/-! ## A text has one tree -/

/-- Lists whose elements agree in one respect agree in another, if any two elements do. -/
theorem map_eq_map_of {α β γ δ : Type} {f : α → γ} {f' : β → γ} {g : α → δ} {g' : β → δ}
    {l : List α} {l' : List β} (h : l.map f = l'.map f')
    (hfg : ∀ a ∈ l, ∀ b, f a = f' b → g a = g' b) : l.map g = l'.map g' := by
  induction l generalizing l' with
  | nil => rw [List.map_eq_nil_iff.1 h.symm, List.map_nil, List.map_nil]
  | cons a l ih =>
      cases l' with
      | nil => cases h
      | cons b l' =>
          rw [List.map_cons, List.map_cons, List.cons.injEq] at h
          rw [List.map_cons, List.map_cons, hfg a List.mem_cons_self b h.1,
            ih h.2 fun c hc => hfg c (List.mem_cons_of_mem a hc)]

theorem Key.eq_of_source_eq {k l : Key} (h : k.source = l.source) : k = l := by
  obtain ⟨body, spelled⟩ := k
  obtain ⟨body', spelled'⟩ := l
  obtain rfl : body = body' := List.append_cancel_right (List.cons.inj h).2
  rfl

namespace Tree

/-- Induction on values: what holds of a value follows from what holds of its parts. -/
theorem induct_parts {motive : Tree → Prop}
    (parts : ∀ t : Tree, (∀ u ∈ t.elements, motive u) → (∀ e ∈ t.entries, motive e.2) → motive t)
    (t : Tree) : motive t := by
  induction t with
  | scalar kind raw spelled => exact parts _ nofun nofun
  | emptyArray inside => exact parts _ nofun nofun
  | emptyObject inside => exact parts _ nofun nofun
  | array first rest hfirst hrest =>
      refine parts _ (fun u hu => ?_) nofun
      rcases List.mem_cons.1 hu with rfl | hu
      · exact hfirst
      · obtain ⟨i, hi, rfl⟩ := List.mem_map.1 hu
        exact hrest i hi
  | object first rest hfirst hrest =>
      refine parts _ nofun fun e he => ?_
      rcases List.mem_cons.1 he with rfl | he
      · exact hfirst
      · obtain ⟨f, hf, rfl⟩ := List.mem_map.1 he
        exact hrest f hf

/-! ### Values without space and their parts -/

theorem compactItems_eq (items : List (Item Tree)) :
    compactItems items = items.map compactItem := by
  induction items with
  | nil => rfl
  | cons i items ih => rw [compactItems_cons, ih, List.map_cons]

theorem compactEntries_eq (entries : List (Entry Tree)) :
    compactEntries entries = entries.map compactEntry := by
  induction entries with
  | nil => rfl
  | cons e entries ih => rw [compactEntries_cons, ih, List.map_cons]

variable {t u : Tree}

theorem isArray_of_isObject (h : t.isObject = true) : t.isArray = false := by
  cases t with
  | emptyArray | array => cases h
  | _ => rfl

theorem elements_eq_nil (h : t.isArray = false) : t.elements = [] := by
  cases t with
  | array => cases h
  | _ => rfl

theorem entries_eq_nil (h : t.isObject = false) : t.entries = [] := by
  cases t with
  | object => cases h
  | _ => rfl

/-- Without space, an array is what its elements make it. -/
theorem compact_of_isArray (h : t.isArray = true) :
    t.compact = ofItems (t.elements.map fun u => .bare u.compact) := by
  cases t with
  | emptyArray inside => rfl
  | array first rest =>
      rw [compact_array, compactItems_eq, elements, List.map_cons, ofItems, List.map_map]
      rfl
  | _ => cases h

/-- Without space, an object is what its members make it. -/
theorem compact_of_isObject (h : t.isObject = true) :
    t.compact = ofEntries (t.entries.map fun e => bareEntry (e.1, e.2.compact)) := by
  cases t with
  | emptyObject inside => rfl
  | object first rest =>
      rw [compact_object, compactEntries_eq, entries, List.map_cons, List.map_cons, ofEntries,
        List.map_map]
      rfl
  | _ => cases h

/-- Without space, a value that is no container is the same. -/
theorem compact_of_scalar (harray : t.isArray = false) (hobject : t.isObject = false) :
    t.compact = t := by
  cases t with
  | scalar kind raw spelled => rfl
  | emptyArray | array => cases harray
  | emptyObject | object => cases hobject

theorem isArray_compact (t : Tree) : t.compact.isArray = t.isArray := by
  cases t <;> rfl

theorem isObject_compact (t : Tree) : t.compact.isObject = t.isObject := by
  cases t <;> rfl

theorem elements_compact (t : Tree) : t.compact.elements = t.elements.map compact := by
  cases ha : t.isArray with
  | true =>
      rw [compact_of_isArray ha, elements_ofItems, List.map_map]
      rfl
  | false =>
      rw [elements_eq_nil ha, elements_eq_nil (t.isArray_compact.trans ha), List.map_nil]

theorem entries_compact (t : Tree) :
    t.compact.entries = t.entries.map fun e => (e.1, e.2.compact) := by
  cases ho : t.isObject with
  | true =>
      rw [compact_of_isObject ho, entries_ofEntries, List.map_map]
      rfl
  | false =>
      rw [entries_eq_nil ho, entries_eq_nil (t.isObject_compact.trans ho), List.map_nil]

/-- Space is taken out once. -/
theorem compact_compact (t : Tree) : t.compact.compact = t.compact := by
  induction t using induct_parts with
  | parts t helements hentries =>
      cases ha : t.isArray with
      | true =>
          rw [compact_of_isArray (t.isArray_compact.trans ha), elements_compact,
            compact_of_isArray ha, List.map_map]
          exact congrArg ofItems (List.map_congr_left fun u hu =>
            congrArg Item.bare (helements u hu))
      | false =>
          cases ho : t.isObject with
          | true =>
              rw [compact_of_isObject (t.isObject_compact.trans ho), entries_compact,
                compact_of_isObject ho, List.map_map]
              exact congrArg ofEntries (List.map_congr_left fun e he =>
                congrArg (fun u => bareEntry (e.1, u)) (hentries e he))
          | false => rw [compact_of_scalar ha ho, compact_of_scalar ha ho]

/-! ### What the text of a value says of it -/

/-- A value that is no container is its kind and its text. -/
theorem eq_of_scalar (harray : t.isArray = false) (hobject : t.isObject = false)
    (harray' : u.isArray = false) (hobject' : u.isObject = false) (hkind : t.kind = u.kind)
    (hsource : t.source = u.source) : t = u := by
  cases t with
  | scalar kind raw spelled =>
      cases u with
      | scalar kind' raw' spelled' =>
          obtain rfl : kind = kind' := hkind
          obtain rfl : raw = raw' := hsource
          rfl
      | emptyArray inside => cases harray'
      | array first rest => cases harray'
      | emptyObject inside => cases hobject'
      | object first rest => cases hobject'
  | emptyArray inside => cases harray
  | array first rest => cases harray
  | emptyObject inside => cases hobject
  | object first rest => cases hobject

theorem kind_eq_of_source_eq (h : t.source = u.source) : t.kind = u.kind := by
  have hfirst := t.firstValue?_source
  rw [h, u.firstValue?_source, Option.some.injEq, Occurrence.mk.injEq] at hfirst
  exact hfirst.1.symm

/-- A text is written from one tree only, if space is not counted. -/
theorem compact_eq_of_source_eq (h : t.source = u.source) : t.compact = u.compact := by
  induction t using induct_parts generalizing u with
  | parts t helements hentries =>
      have harray : u.isArray = t.isArray := by
        rw [← opensArray_source, ← opensArray_source, h]
      have hobject : u.isObject = t.isObject := by
        rw [← opensObject_source, ← opensObject_source, h]
      -- The scans find the same parts in the same text, so the parts of `t` and `u` pair up.
      cases ha : t.isArray with
      | true =>
          have hscan := t.elements_source
          rw [h, u.elements_source] at hscan
          have heq : t.elements.map (fun u => Item.bare u.compact) =
              u.elements.map fun u => Item.bare u.compact :=
            map_eq_map_of hscan.symm fun a hmem b hab =>
              congrArg Item.bare (helements a hmem (Prod.mk.inj hab).2)
          rw [compact_of_isArray ha, compact_of_isArray (harray.trans ha), heq]
      | false =>
          cases ho : t.isObject with
          | true =>
              have hscan := t.entries_source
              rw [h, u.entries_source] at hscan
              have heq : t.entries.map (fun e => bareEntry (e.1, e.2.compact)) =
                  u.entries.map fun e => bareEntry (e.1, e.2.compact) := by
                refine map_eq_map_of hscan.symm fun a hmem b hab => ?_
                obtain ⟨hkey, hvalue⟩ := Prod.mk.inj hab
                rw [Key.eq_of_source_eq hkey, hentries a hmem (Prod.mk.inj hvalue).2]
              rw [compact_of_isObject ho, compact_of_isObject (hobject.trans ho), heq]
          | false =>
              rw [eq_of_scalar ha ho (harray.trans ha) (hobject.trans ho)
                (kind_eq_of_source_eq h) h]

/-! ## Tokens -/

mutual

/-- The tokens of a value as they are spelled, in order. -/
def tokens : Tree → List Text
  | .scalar _ raw _ => [raw]
  | .emptyArray _ => [['['], [']']]
  | .array ⟨_, value, _⟩ rest => ['['] :: (tokens value ++ (itemsTokens rest ++ [[']']]))
  | .emptyObject _ => [['\x7b'], ['\x7d']]
  | .object ⟨_, key, _, ⟨_, value, _⟩⟩ rest =>
    ['\x7b'] :: key.source :: [':'] :: (tokens value ++ (entriesTokens rest ++ [['\x7d']]))

/-- The tokens of the items after the first, commas included. -/
def itemsTokens : List (Item Tree) → List Text
  | [] => []
  | ⟨_, value, _⟩ :: rest => [','] :: (tokens value ++ itemsTokens rest)

/-- The tokens of the members after the first, commas included. -/
def entriesTokens : List (Entry Tree) → List Text
  | [] => []
  | ⟨_, key, _, ⟨_, value, _⟩⟩ :: rest =>
    [','] :: key.source :: [':'] :: (tokens value ++ entriesTokens rest)

end

theorem tokens_array (first : Item Tree) (rest : List (Item Tree)) :
    (array first rest).tokens =
      ['['] :: (first.value.tokens ++ (itemsTokens rest ++ [[']']])) := by
  rfl

theorem tokens_object (first : Entry Tree) (rest : List (Entry Tree)) :
    (object first rest).tokens = ['\x7b'] :: first.key.source :: [':'] ::
      (first.item.value.tokens ++ (entriesTokens rest ++ [['\x7d']])) := by
  rfl

theorem flatten_itemsTokens {items : List (Item Tree)}
    (h : ∀ i ∈ items, i.value.tokens.flatten = i.value.compact.source) :
    (itemsTokens items).flatten = itemsSource (compactItems items) := by
  induction items with
  | nil => rfl
  | cons i items ih =>
      have hi := h i List.mem_cons_self
      have hrest := ih fun j hj => h j (List.mem_cons_of_mem i hj)
      rw [compactItems_cons, itemsSource_cons]
      simp [itemsTokens, hi, hrest, compactItem, Item.source, Item.bare, Spaces.none]

theorem flatten_entriesTokens {entries : List (Entry Tree)}
    (h : ∀ e ∈ entries, e.item.value.tokens.flatten = e.item.value.compact.source) :
    (entriesTokens entries).flatten = entriesSource (compactEntries entries) := by
  induction entries with
  | nil => rfl
  | cons e entries ih =>
      have he := h e List.mem_cons_self
      have hrest := ih fun f hf => h f (List.mem_cons_of_mem e hf)
      rw [compactEntries_cons, entriesSource_cons]
      simp [entriesTokens, he, hrest, compactEntry, Entry.source, Item.source, Item.bare,
        Spaces.none]

/-- Without space, a value is written as its tokens, one after the other. -/
theorem flatten_tokens (t : Tree) : t.tokens.flatten = t.compact.source := by
  induction t with
  | scalar kind raw spelled => simp [tokens, compact, source]
  | emptyArray inside => rfl
  | emptyObject inside => rfl
  | array first rest hfirst hrest =>
      rw [compact_array, source_array, tokens_array, ← flatten_itemsTokens hrest]
      simp [hfirst, compactItem, Item.source, Item.bare, Spaces.none]
  | object first rest hfirst hrest =>
      rw [compact_object, source_object, tokens_object, ← flatten_entriesTokens hrest]
      simp [hfirst, compactEntry, Entry.source, Item.source, Item.bare, Spaces.none]

theorem itemsTokens_compactItems {items : List (Item Tree)}
    (h : ∀ i ∈ items, i.value.compact.tokens = i.value.tokens) :
    itemsTokens (compactItems items) = itemsTokens items := by
  induction items with
  | nil => rfl
  | cons i items ih =>
      have hi := h i List.mem_cons_self
      have hrest := ih fun j hj => h j (List.mem_cons_of_mem i hj)
      rw [compactItems_cons, itemsTokens, itemsTokens, hrest]
      simp [compactItem, Item.bare, hi]

theorem entriesTokens_compactEntries {entries : List (Entry Tree)}
    (h : ∀ e ∈ entries, e.item.value.compact.tokens = e.item.value.tokens) :
    entriesTokens (compactEntries entries) = entriesTokens entries := by
  induction entries with
  | nil => rfl
  | cons e entries ih =>
      have he := h e List.mem_cons_self
      have hrest := ih fun f hf => h f (List.mem_cons_of_mem e hf)
      rw [compactEntries_cons, entriesTokens, entriesTokens, hrest]
      simp [compactEntry, Item.bare, he]

/-- Space is no token. -/
theorem tokens_compact (t : Tree) : t.compact.tokens = t.tokens := by
  induction t with
  | scalar kind raw spelled => rfl
  | emptyArray inside => rfl
  | emptyObject inside => rfl
  | array first rest hfirst hrest =>
      rw [compact_array, tokens_array, tokens_array, itemsTokens_compactItems hrest]
      simp [compactItem, Item.bare, hfirst]
  | object first rest hfirst hrest =>
      rw [compact_object, tokens_object, tokens_object, entriesTokens_compactEntries hrest]
      simp [compactEntry, Item.bare, hfirst]

/-- Without space, a value and its text determine each other. -/
theorem source_compact_inj : t.compact.source = u.compact.source ↔ t.compact = u.compact := by
  refine ⟨fun h => ?_, congrArg source⟩
  rw [← t.compact_compact, ← u.compact_compact, compact_eq_of_source_eq h]

/-- Values with the same tokens are the same but for space. -/
theorem tokens_inj : t.tokens = u.tokens ↔ t.compact = u.compact := by
  constructor
  · intro h
    rw [← source_compact_inj, ← flatten_tokens, ← flatten_tokens, h]
  · intro h
    rw [← t.tokens_compact, ← u.tokens_compact, h]

end Tree

/-! ## The compact layout -/

/-- Space that is left in the compact layout of a text stands in a string. -/
theorem modeAfter_of_space_compactFrom {mode : Mode} {t u v : Text} {c : Char}
    (h : compactFrom mode t = u ++ c :: v) (hc : isSpace c = true) : modeAfter mode u ≠ .plain := by
  induction t generalizing mode u with
  | nil => simp [compactFrom] at h
  | cons d t ih =>
      -- A character that stays is the first of `u`, or the space itself if `u` is empty.
      have stays : ∀ {mode' : Mode}, (mode = .plain → isSpace d = false) →
          mode.next d = mode' → d :: compactFrom mode' t = u ++ c :: v →
            modeAfter mode u ≠ .plain := by
        intro mode' hplain hnext heq
        cases u with
        | nil =>
            obtain ⟨rfl, -⟩ := List.cons.inj heq
            intro hmode
            rw [hplain hmode] at hc
            cases hc
        | cons e u =>
            obtain ⟨rfl, hrest⟩ := List.cons.inj heq
            rw [modeAfter_cons, hnext]
            exact ih hrest
      cases mode with
      | escaped => exact stays Mode.noConfusion rfl h
      | quoted => exact stays Mode.noConfusion rfl h
      | plain =>
          rw [compactFrom] at h
          split at h
          · exact ih h
          · next hspace => exact stays (fun _ => Bool.eq_false_iff.2 hspace) rfl h

theorem minify_of_not_isDocument {t : Text} (h : ¬ IsDocument t) : minify t = t := by
  rw [isDocument_iff, Bool.not_eq_true] at h
  rw [minify, document?, h]
  rfl

theorem minify_minify (t : Text) : minify (minify t) = minify t := by
  by_cases h : IsDocument t
  · obtain ⟨d, rfl⟩ := h
    have hbare : d.root.compact.source = Document.source ⟨.none, d.root.compact, .none⟩ := by
      simp [Document.source, Spaces.none]
    rw [minify_source, hbare, minify_source, Tree.compact_compact, ← hbare]
  · rw [minify_of_not_isDocument h, minify_of_not_isDocument h]

/--
The well-formed texts are the texts of documents. The compact layout of a document is well-formed,
and any document that is written like that has the tree of the first one but for space, with every
scalar and key as it is spelled there. Space in it stands in strings only. Two documents have the
same compact layout exactly if they have the same tokens, as they are spelled. And whatever a text
is, its compact layout is compact.
-/
theorem minify_canonical :
    (∀ t, wellFormed none t = true ↔ ∃ d : Document, d.source = t) ∧
    (∀ d : Document, wellFormed none (minify d.source) = true ∧
      (∀ d' : Document, d'.source = minify d.source → d'.root.compact = d.root.compact) ∧
      ∀ u c v, minify d.source = u ++ c :: v → isSpace c = true → modeAfter .plain u ≠ .plain) ∧
    (∀ d e : Document, minify d.source = minify e.source ↔ d.root.tokens = e.root.tokens) ∧
    ∀ t, minify (minify t) = minify t := by
  have htokens : ∀ d e : Document,
      minify d.source = minify e.source ↔ d.root.tokens = e.root.tokens := by
    intro d e
    rw [minify_source, minify_source, Tree.source_compact_inj, Tree.tokens_inj]
  refine ⟨fun t => isDocument_iff.symm, fun d => ⟨?_, fun d' hd' => ?_, fun u c v h hc => ?_⟩,
    htokens, minify_minify⟩
  · exact isDocument_iff.1 (isDocument_minify ⟨d, rfl⟩)
  · rw [← Tree.tokens_inj, ← htokens, hd', minify_minify]
  · rw [minify, document?_source] at h
    exact modeAfter_of_space_compactFrom h hc

/-- A key with an escaped quote and space in it, in a document with space around its tokens. -/
def spaced : Text :=
  " \x7b\"a\\\" b\" : [ 1 ,true ] \x7d\n".toList

def spacedCompact : Text :=
  "\x7b\"a\\\" b\":[1,true]\x7d".toList

theorem minify_canonical_of_spaced :
    wellFormed none spaced = true ∧ minify spaced = spacedCompact ∧
      wellFormed none spacedCompact = true ∧ minify spacedCompact = spacedCompact := by
  have hwell : wellFormed none spaced = true := by decide +kernel
  have hminify : minify spaced = spacedCompact := by decide +kernel
  obtain ⟨hdocuments, hlayout, -, hcompact⟩ := minify_canonical
  obtain ⟨d, hd⟩ := (hdocuments spaced).1 hwell
  have hwell' := (hlayout d).1
  have hsame := hcompact spaced
  rw [hd, hminify] at hwell'
  rw [hminify] at hsame
  exact ⟨hwell, hminify, hwell', hsame⟩

end DotPath.Json
