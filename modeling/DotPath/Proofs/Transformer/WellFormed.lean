import DotPath.Environment
import DotPath.Proofs.Evaluator.WellFormed
import DotPath.Proofs.Json.Arranged

/-!
# Transformers keep documents well formed

The text that a built-in transformer makes of a document is a document, whatever its argument says.
A transformer copies parts of the document as they are spelled, quotes texts, and writes numbers,
and it puts these together by the composing functions; so there is one lemma for every way of
putting together, and one for every way of taking apart.

Left out are the two transformers that follow paths which the argument gives: a literal in such a
path may be any text. The layout in lines is at the mercy of the texts that its argument puts in
front of the lines, which have to be space.

## Main results

* `trimBlank_source`: cutting off blanks around a document leaves its root.
* `KeepsDocuments`, with one lemma for each transformer or family of transformers.
* `keepsDocument_of_mem_all`: the built-in transformers, one by one.
-/

namespace DotPath

open Json

/-! ## Taking selections apart -/

namespace Selection

theorem isValue_document {t : Text} (h : IsDocument t) : IsValue (document t).raw := by
  obtain ⟨v, hv, hvalue⟩ := h.firstValue?
  rw [document, hv]
  exact hvalue

variable {s : Selection}

/-- The elements of a value, and a value that stands for itself, are values. -/
theorem isValue_of_mem_array (h : IsValue s.raw) {e : Selection} (he : e ∈ s.array) :
    IsValue e.raw := by
  rw [array] at he
  split at he
  · cases he
  · split at he
    · rw [List.mem_singleton.1 he]
      exact h
    · obtain ⟨v, hv, rfl⟩ := List.mem_map.1 he
      rw [raw_derivedFrom]
      exact isValue_of_mem_elements h hv

/-- Leaving out members only leaves members. -/
private theorem mem_of_mem_kept {α : Type} {named kept : List (Text × α)} {m : Text × α}
    (hm : m ∈ named.foldl
      (fun kept m => if kept.any (·.1 == m.1) then kept else kept ++ [m]) kept) :
    m ∈ kept ∨ m ∈ named := by
  induction named generalizing kept with
  | nil => exact .inl hm
  | cons n named ih =>
      rcases ih hm with hkept | hnamed
      · dsimp only at hkept
        split at hkept
        · exact .inl hkept
        · rcases List.mem_append.1 hkept with hkept | hn
          · exact .inl hkept
          · exact .inr (List.mem_cons.2 (.inl (List.mem_singleton.1 hn)))
      · exact .inr (List.mem_cons_of_mem n hnamed)

/-- The members of a value have values. -/
theorem isValue_of_mem_members (h : IsValue s.raw) {m : Text × Selection} (hm : m ∈ s.members) :
    IsValue m.2.raw := by
  rw [members] at hm
  split at hm
  · cases hm
  · rcases mem_of_mem_kept hm with hnone | hm
    · cases hnone
    · obtain ⟨n, hn, rfl⟩ := List.mem_map.1 hm
      rw [raw_derivedFrom]
      exact (Json.isValue_of_mem_members h hn).2

theorem isValue_of_member? (h : IsValue s.raw) {name : Text} {v : Selection}
    (hv : s.member? name = some v) : IsValue v.raw := by
  obtain ⟨init, rest, heq, -⟩ := List.lookup_eq_some_iff.1 hv
  exact isValue_of_mem_members h (m := (name, v)) (by rw [heq]; simp)

end Selection

/-! ## Blanks around documents -/

/-- Every space is a blank. -/
theorem isBlank_of_isSpace {c : Char} (h : isSpace c) : Text.isBlank c := by
  rcases eq_of_isSpace h with rfl | rfl | rfl | rfl <;> rfl

theorem isBlank_of_isDigit {c : Char} (h : c.isDigit) : Text.isBlank c = false := by
  have hrange : 48 ≤ c.toNat ∧ c.toNat ≤ 57 := by
    simpa [Char.isDigit, UInt32.le_iff_toNat_le] using h
  simp only [Text.isBlank]
  grind

/-- A value begins with a character that is no blank. -/
theorem Json.Tree.head_source (t : Tree) : ∃ c s, t.source = c :: s ∧ Text.isBlank c = false := by
  have hmarks : ∀ c ∈ firstMarks, Text.isBlank c = false := by
    simp [firstMarks, Text.isBlank]
  obtain ⟨c, s, hsource, hc⟩ := t.fills.first
  exact ⟨c, s, hsource, hc.elim (hmarks c) isBlank_of_isDigit⟩

/-- A value ends with a character that is no blank. -/
theorem Json.Tree.last_source (t : Tree) :
    ∃ s c, t.source = s ++ [c] ∧ Text.isBlank c = false := by
  have hmarks : ∀ c ∈ lastMarks, Text.isBlank c = false := by
    simp [lastMarks, Text.isBlank]
  obtain ⟨s, c, hsource, hc⟩ := t.fills.final
  exact ⟨s, c, hsource, hc.elim (hmarks c) isBlank_of_isDigit⟩

/-- Cutting off blanks at both ends of a document leaves its root. -/
theorem trimBlank_source (d : Document) : Text.trimBlank d.source = d.root.source := by
  obtain ⟨c, s, hhead, hc⟩ := d.root.head_source
  obtain ⟨s', e, hlast, he⟩ := d.root.last_source
  have hfront : d.source.dropWhile Text.isBlank = d.root.source ++ d.after.1 := by
    have hbefore : ∀ b ∈ d.before.1, Text.isBlank b := fun b hb =>
      isBlank_of_isSpace (d.before.2 b hb)
    rw [Document.source, List.dropWhile_append_of_pos hbefore, hhead, List.cons_append,
      List.dropWhile_cons_of_neg (by simp [hc])]
  have hback : ∀ b ∈ d.after.1.reverse, Text.isBlank b := fun b hb =>
    isBlank_of_isSpace (d.after.2 b (List.mem_reverse.1 hb))
  rw [Text.trimBlank, Text.trim, hfront, List.reverse_append,
    List.dropWhile_append_of_pos hback, hlast, List.reverse_append, List.reverse_singleton,
    List.singleton_append, List.dropWhile_cons_of_neg (by simp [he]), List.reverse_cons,
    List.reverse_reverse]

/-! ## Merged members -/

namespace Json

variable {α : Type}

theorem mem_of_mem_setMember {key : Text} {value : α} {members : List (Text × α)}
    {m : Text × α} (hm : m ∈ setMember key value members) :
    m.2 = value ∨ m.2 ∈ members.map (·.2) := by
  induction members with
  | nil =>
      rw [List.mem_singleton.1 hm]
      exact .inl rfl
  | cons n members ih =>
      rw [setMember] at hm
      split at hm
      · rcases List.mem_cons.1 hm with rfl | hm
        · exact .inl rfl
        · exact .inr (List.mem_cons_of_mem _ (List.mem_map_of_mem hm))
      · rcases List.mem_cons.1 hm with rfl | hm
        · exact .inr List.mem_cons_self
        · exact (ih hm).imp_right (List.mem_cons_of_mem _)

/-- The values of merged members are among those of the members. -/
theorem mem_of_mem_mergeMembers {members : List (Text × α)} {m : Text × α}
    (hm : m ∈ mergeMembers members) : m.2 ∈ members.map (·.2) := by
  have hfold : ∀ merged, m ∈ members.foldl
      (fun merged member => setMember member.1 member.2 merged) merged →
        m.2 ∈ merged.map (·.2) ∨ m.2 ∈ members.map (·.2) := by
    clear hm
    induction members with
    | nil => exact fun merged hm => .inl (List.mem_map_of_mem hm)
    | cons n members ih =>
        intro merged hm
        rcases ih _ hm with hset | hrest
        · obtain ⟨o, ho, heq⟩ := List.mem_map.1 hset
          rw [← heq]
          rcases mem_of_mem_setMember ho with hvalue | hmem
          · exact .inr (by simp [hvalue])
          · exact .inl hmem
        · exact .inr (List.mem_cons_of_mem _ hrest)
  rcases hfold [] hm with hnone | hmem
  · cases hnone
  · exact hmem

end Json

/-! ## Transformers -/

namespace Transformer

/-- With this argument a transformer maps documents to documents. -/
def KeepsDocument (f : Transformer) (argument : Text) : Prop :=
  ∀ follow json, IsDocument json → IsDocument (f follow json argument)

/-- A transformer maps documents to documents, whatever its argument. -/
def KeepsDocuments (f : Transformer) : Prop :=
  ∀ argument, f.KeepsDocument argument

theorem keepsDocuments_withArgument {f : Text → Text → Text}
    (h : ∀ json argument, IsDocument json → IsDocument (f json argument)) :
    KeepsDocuments (.withArgument f) :=
  fun argument _ json => h json argument

theorem keepsDocuments_withoutArgument {f : Text → Text}
    (h : ∀ json, IsDocument json → IsDocument (f json)) : KeepsDocuments (.withoutArgument f) :=
  fun _ _ json => h json

theorem isDocument_bool (b : Bool) :
    IsDocument (if b then ['t', 'r', 'u', 'e'] else ['f', 'a', 'l', 's', 'e']) := by
  cases b with
  | true => exact IsScalar.trueWord.isDocument
  | false => exact IsScalar.falseWord.isDocument

/-! ### Strings -/

/-- A string stays a string, whatever becomes of its text. -/
theorem isDocument_mapString (f : Text → Text) {json : Text} (h : IsDocument json) :
    IsDocument (mapString f json) := by
  rw [mapString]
  split
  · exact isDocument_quoted _
  · exact h

theorem keepsDocuments_mapString (f : Text → Text) :
    KeepsDocuments (.withoutArgument (mapString f)) :=
  keepsDocuments_withoutArgument fun _ => isDocument_mapString f

theorem keepsDocuments_replaceBy (f : Text → Text → Text → Text) :
    KeepsDocuments (replaceBy f) := by
  refine keepsDocuments_withArgument fun json argument h => ?_
  dsimp only
  split
  · exact h
  · split
    · exact h
    · exact isDocument_mapString _ h

theorem keepsDocuments_insertText : KeepsDocuments insertText := by
  refine keepsDocuments_withArgument fun json argument h => ?_
  dsimp only
  split
  · exact h
  · exact isDocument_mapString _ h

theorem keepsDocuments_padBy (place : Text → Text → Text) : KeepsDocuments (padBy place) := by
  refine keepsDocuments_withArgument fun json argument h => ?_
  split
  · exact h
  · split
    · exact h
    · exact isDocument_mapString _ h

theorem keepsDocuments_wordCount : KeepsDocuments wordCount := by
  refine keepsDocuments_withoutArgument fun json h => ?_
  dsimp only
  split
  · exact isDocument_ofNat _
  · exact h

/-! ### Arrays -/

theorem keepsDocuments_filterElements : KeepsDocuments filterElements := by
  intro argument follow json h
  rw [filterElements]
  split
  · exact h
  · dsimp only
    split
    · exact h
    · refine isDocument_composeArray fun t ht => ?_
      obtain ⟨e, he, rfl⟩ := List.mem_map.1 ht
      have hmem := List.mem_of_mem_filter he
      exact (Selection.isValue_of_mem_array (Selection.isValue_document h) hmem).isDocument

theorem isDocument_rawOrNull {o : Option Selection} (h : ∀ s ∈ o, IsValue s.raw) :
    IsDocument (rawOrNull o) := by
  cases o with
  | none => exact IsScalar.nullWord.isDocument
  | some s => exact (h s rfl).isDocument

theorem keepsDocuments_firstElement : KeepsDocuments firstElement := by
  refine keepsDocuments_withoutArgument fun json h => ?_
  dsimp only
  split
  · refine isDocument_rawOrNull fun s hs => ?_
    exact Selection.isValue_of_mem_array (Selection.isValue_document h) (List.mem_of_head? hs)
  · exact h

theorem keepsDocuments_lastElement : KeepsDocuments lastElement := by
  refine keepsDocuments_withoutArgument fun json h => ?_
  dsimp only
  split
  · refine isDocument_rawOrNull fun s hs => ?_
    exact Selection.isValue_of_mem_array (Selection.isValue_document h) (List.mem_of_getLast? hs)
  · exact h

theorem keepsDocuments_elementCount : KeepsDocuments elementCount :=
  keepsDocuments_withoutArgument fun _ _ => isDocument_ofNat _

theorem isDocument_computedText (x : Float) : IsDocument (Number.computedText x) := by
  obtain ⟨kind, h⟩ := Number.isScalar_computedText x
  exact h.isDocument

/-- A computed number is written as a document, and so is the lack of one. -/
theorem isDocument_computedOrNull (x : Option Float) : IsDocument (computedOrNull x) := by
  cases x with
  | none => exact IsScalar.nullWord.isDocument
  | some x => exact isDocument_computedText x

theorem keepsDocuments_convert : KeepsDocuments convert := by
  refine keepsDocuments_withArgument fun json argument h => ?_
  have hraw := (Selection.isValue_document h).isDocument
  dsimp only
  split
  · exact h
  · split
    · exact h
    · split
      · split
        · exact hraw
        · exact isDocument_quoted _
      · split
        · split
          · exact isDocument_ofNat 1
          · exact isDocument_ofNat 0
          · exact isDocument_computedOrNull _
        · split
          · exact isDocument_bool _
          · exact h

/-! ### Objects -/

/-- Objects may become any documents. -/
theorem isDocument_mapObjects {f : Selection → Text} (hf : ∀ s, IsValue s.raw → IsDocument (f s))
    {json : Text} (h : IsDocument json) : IsDocument (mapObjects f json) := by
  have hvalue := Selection.isValue_document h
  rw [mapObjects]
  split
  · exact hf _ hvalue
  · split
    · refine isDocument_composeArray fun t ht => ?_
      obtain ⟨e, he, rfl⟩ := List.mem_map.1 ht
      have helement := Selection.isValue_of_mem_array hvalue he
      split
      · exact hf e helement
      · exact helement.isDocument
    · exact h

theorem isValue_of_mem_picked {pick : Option (List Text)} {object : Selection}
    (h : IsValue object.raw) {m : Text × Selection} (hm : m ∈ picked pick object) :
    IsValue m.2.raw := by
  cases pick with
  | none => exact Selection.isValue_of_mem_members h hm
  | some names =>
      obtain ⟨name, -, hname⟩ := List.mem_filterMap.1 hm
      obtain ⟨v, hv, rfl⟩ := Option.map_eq_some_iff.1 hname
      exact Selection.isValue_of_member? h hv

theorem keepsDocuments_projectMembers : KeepsDocuments projectMembers := by
  refine keepsDocuments_withArgument fun json argument h => ?_
  dsimp only
  split
  · exact h
  · refine isDocument_mapObjects (fun s hs => isDocument_composeObject fun m hm => ?_) h
    obtain ⟨n, hn, rfl⟩ := List.mem_map.1 hm
    exact (isValue_of_mem_picked hs hn).isDocument

theorem isDocument_withDefaults (defaults : List (Text × Value)) {object : Selection}
    (h : IsValue object.raw) : IsDocument (withDefaults defaults object) := by
  rw [withDefaults]
  refine isDocument_composeObject fun m hm => ?_
  rcases List.mem_append.1 hm with hfilled | hadded
  · obtain ⟨⟨name, v⟩, hv, rfl⟩ := List.mem_map.1 hfilled
    have hv := (Selection.isValue_of_mem_members h hv).isDocument
    cases hlookup : defaults.lookup name with
    | none => simpa [hlookup] using hv
    | some default =>
        cases hnull : v.kind == .null with
        | true => simpa [hlookup, hnull] using default.isValue_encode.isDocument
        | false => simpa [hlookup, hnull] using hv
  · obtain ⟨n, -, rfl⟩ := List.mem_map.1 hadded
    exact n.2.isValue_encode.isDocument

theorem keepsDocuments_fillDefaults : KeepsDocuments fillDefaults := by
  refine keepsDocuments_withArgument fun json argument h => ?_
  split
  · exact h
  · exact isDocument_mapObjects (fun s hs => isDocument_withDefaults _ hs) h

/-! ### Layout and shape -/

/-- The texts that an argument gives for the beginning of lines are space. -/
def SpacesLines (argument : Text) : Prop :=
  ∀ indent margin sortKeys, Argument.fields?
      ["indent".toList, "prefix".toList, "sortKeys".toList] argument =
        some [indent, margin, sortKeys] →
    ∀ v t, indent = some v ∨ margin = some v → Argument.text? v = some t → ∀ c ∈ t, isSpace c

/-- A missing text is that of the standard layout, and so is space as well. -/
private theorem isSpace_of_decodeD {default t : Text} {field : Option Occurrence}
    (hdefault : ∀ c ∈ default, isSpace c)
    (hfield : ∀ v u, field = some v → Argument.text? v = some u → ∀ c ∈ u, isSpace c)
    (h : Argument.decodeD default Argument.text? field = some t) : ∀ c ∈ t, isSpace c := by
  cases field with
  | none =>
      cases h
      exact hdefault
  | some v => exact hfield v t rfl h

theorem keepsDocument_prettyPrint {argument : Text} (h : SpacesLines argument) :
    KeepsDocument prettyPrint argument := by
  intro follow json hjson
  rw [prettyPrint, withArgument]
  dsimp only
  split
  · next options hoptions =>
      refine isDocument_pretty ?_ hjson
      simp only [Option.bind_eq_bind, Option.bind_eq_some_iff] at hoptions
      obtain ⟨fields, hfields, hoptions⟩ := hoptions
      split at hoptions
      · next indent margin sortKeys =>
          obtain ⟨i, hi, m, hm, k, hk, hoptions⟩ : ∃ i, Argument.decodeD
              LineOptions.standard.indent Argument.text? indent = some i ∧ ∃ m,
                Argument.decodeD LineOptions.standard.margin Argument.text? margin = some m ∧
                  ∃ k, Argument.decodeD LineOptions.standard.sortKeys Argument.bool? sortKeys =
                    some k ∧ some (LineOptions.mk i m k) = some options := by
            simpa only [Option.bind_eq_some_iff, Option.pure_def] using hoptions
          cases hoptions
          have hlines := h indent margin sortKeys hfields
          have hindent := isSpace_of_decodeD (List.all_eq_true.1 rfl)
            (fun v u hv => hlines v u (.inl hv)) hi
          have hmargin := isSpace_of_decodeD (List.all_eq_true.1 rfl)
            (fun v u hv => hlines v u (.inr hv)) hm
          exact ⟨hindent, hmargin⟩
      · cases hoptions
  · exact hjson

theorem keepsDocuments_validity : KeepsDocuments validity :=
  keepsDocuments_withoutArgument fun _ _ => isDocument_bool _

/-- Members as they are spelled have keys and values. -/
theorem isValue_of_mem_spelledMembers {json : Text} (h : IsDocument json) {m : Text × Text}
    (hm : m ∈ spelledMembers json) : IsKey m.1 ∧ IsValue m.2 := by
  obtain ⟨n, hn, rfl⟩ := List.mem_map.1 hm
  exact isValue_of_mem_members (Selection.isValue_document h) hn

theorem keepsDocuments_reverseItems : KeepsDocuments reverseItems := by
  refine keepsDocuments_withoutArgument fun json h => ?_
  dsimp only
  split
  · refine isDocument_composeArray fun t ht => ?_
    obtain ⟨e, he, rfl⟩ := List.mem_map.1 ht
    have hmem := List.mem_reverse.1 he
    exact (Selection.isValue_of_mem_array (Selection.isValue_document h) hmem).isDocument
  · split
    · refine isDocument_composeMembers fun m hm => ?_
      obtain ⟨hkey, hvalue⟩ := isValue_of_mem_spelledMembers h (List.mem_reverse.1 hm)
      exact ⟨hkey, hvalue.isDocument⟩
    · exact h

/-- However many levels of arrays are opened, what is found are values. -/
theorem isValue_of_mem_flattened (depth : Nat) {array : Text} (h : IsValue array) :
    ∀ t ∈ flattened depth array, IsValue t := by
  induction depth generalizing array with
  | zero =>
      intro t ht
      obtain ⟨v, hv, rfl⟩ := List.mem_map.1 ht
      exact isValue_of_mem_elements h hv
  | succ depth ih =>
      intro t ht
      obtain ⟨v, hv, ht⟩ := List.mem_flatMap.1 ht
      have hvalue := isValue_of_mem_elements h hv
      split at ht
      · exact ih hvalue t ht
      · rw [List.mem_singleton.1 ht]
        exact hvalue

theorem keepsDocuments_flattenArray : KeepsDocuments flattenArray := by
  refine keepsDocuments_withArgument fun json argument h => ?_
  dsimp only
  split
  · exact h
  · split
    · refine isDocument_composeArray fun t ht => ?_
      exact (isValue_of_mem_flattened _ (Selection.isValue_document h) t ht).isDocument
    · exact h

theorem isValue_of_mem_objectMembers {array : Selection} (h : IsValue array.raw)
    {m : Text × Text} (hm : m ∈ objectMembers array) : IsKey m.1 ∧ IsValue m.2 := by
  obtain ⟨o, ho, hm⟩ := List.mem_flatMap.1 hm
  have hobject := Selection.isValue_of_mem_array h (List.mem_of_mem_filter ho)
  exact isValue_of_mem_spelledMembers hobject.isDocument hm

theorem keepsDocuments_joinObjects : KeepsDocuments joinObjects := by
  refine keepsDocuments_withArgument fun json argument h => ?_
  have hvalue := Selection.isValue_document h
  dsimp only
  split
  · exact h
  · split
    · exact h
    · split
      · refine isDocument_composeMembers fun m hm => ?_
        obtain ⟨hkey, hmember⟩ := isValue_of_mem_objectMembers hvalue hm
        exact ⟨hkey, hmember.isDocument⟩
      · refine isDocument_composeObject fun m hm => ?_
        have hmem := mem_of_mem_mergeMembers hm
        rw [List.map_map] at hmem
        obtain ⟨n, hn, heq⟩ := List.mem_map.1 hmem
        rw [← heq]
        exact (isValue_of_mem_objectMembers hvalue hn).2.isDocument

/-- A key on its own is a string. -/
theorem isDocument_of_isKey {t : Text} (h : IsKey t) : IsDocument t := by
  obtain ⟨key, rfl⟩ := h
  exact (IsScalar.string key.spelled).isDocument

theorem keepsDocuments_keyList : KeepsDocuments keyList := by
  refine keepsDocuments_withoutArgument fun json h => isDocument_composeArray fun t ht => ?_
  obtain ⟨m, hm, rfl⟩ := List.mem_map.1 ht
  exact isDocument_of_isKey (isValue_of_mem_spelledMembers h hm).1

theorem keepsDocuments_valueList : KeepsDocuments valueList := by
  refine keepsDocuments_withoutArgument fun json h => ?_
  dsimp only
  split
  · exact (Selection.isValue_document h).isDocument
  · refine isDocument_composeArray fun t ht => ?_
    obtain ⟨m, hm, rfl⟩ := List.mem_map.1 ht
    exact (isValue_of_mem_spelledMembers h hm).2.isDocument

theorem isValue_of_mem_columns {json : Text} (h : IsDocument json) {column : Text × List Text}
    (hcolumn : column ∈ columns json) : IsKey column.1 ∧ ∀ t ∈ column.2, IsValue t := by
  obtain ⟨⟨key, v⟩, hm, heq⟩ := List.mem_filterMap.1 hcolumn
  obtain ⟨hkey, hvalue⟩ := isValue_of_mem_spelledMembers h hm
  dsimp only at heq
  split at heq
  · cases heq
    refine ⟨hkey, fun t ht => ?_⟩
    obtain ⟨v, hv, rfl⟩ := List.mem_map.1 ht
    exact isValue_of_mem_elements hvalue hv
  · cases heq

theorem keepsDocuments_groupColumns : KeepsDocuments groupColumns := by
  refine keepsDocuments_withoutArgument fun json h => ?_
  dsimp only
  split
  · refine isDocument_composeArray fun t ht => ?_
    obtain ⟨i, -, rfl⟩ := List.mem_map.1 ht
    refine isDocument_composeMembers fun m hm => ?_
    obtain ⟨column, hcolumn, hcell⟩ := List.mem_filterMap.1 hm
    obtain ⟨hkey, hvalues⟩ := isValue_of_mem_columns h hcolumn
    obtain ⟨t, ht, rfl⟩ := Option.map_eq_some_iff.1 hcell
    exact ⟨hkey, (hvalues t (List.mem_of_getElem? ht)).isDocument⟩
  · exact h

/-- Only a well-formed text is taken out of its quotes. -/
theorem keepsDocuments_fromStringLiteral : KeepsDocuments fromStringLiteral := by
  refine keepsDocuments_withoutArgument fun json h => ?_
  dsimp only
  split
  · next hvalid =>
      obtain ⟨-, hvalid⟩ := Bool.and_eq_true_iff.1 hvalid
      obtain ⟨d, hd, -⟩ := wellFormed_iff.1 hvalid
      rw [← hd, trimBlank_source]
      exact IsValue.isDocument ⟨d.root, rfl⟩
  · exact h

end Transformer

/-- A transformer that makes a document selects its root. -/
theorem Evaluator.shows_step_transform {ev : Evaluator} (hon : ev.options.transformers = true)
    {name : Text} {f : Text → Text → Text} (hfind : ev.transformer? name = some f)
    {cur : Selection} {argument : Option Text} {d : Document}
    (hd : f cur.raw (argument.getD []) = d.source) (source : Text) :
    (ev.step cur (.transform name argument source)).Shows d.root := by
  have hshows : (Selection.ofText d.source).Agrees (some d.root) := by
    rw [Selection.ofText, d.firstValue?_source]
    exact ⟨rfl, rfl⟩
  rw [step, applyTransformer, if_pos hon, hfind]
  dsimp only
  rw [hd]
  exact hshows.derivedFrom cur

/-! ## Built-in transformers -/

namespace Builtin

open Transformer

/--
An argument that leaves documents well formed: any, except for the transformers that follow paths of
the argument, and for the layout in lines only one whose lines begin with space.
-/
def Keeps (b : Builtin) (argument : Text) : Prop :=
  b.name ≠ "search".toList ∧ b.name ≠ "pluck".toList ∧
    (b.name = "pretty".toList → SpacesLines argument)

/-- The built-in transformers, one by one. -/
theorem keepsDocument_of_mem_all {b : Builtin} (hb : b ∈ all) {argument : Text}
    (h : b.Keeps argument) : b.transformer.KeepsDocument argument := by
  obtain ⟨hsearch, hpluck, hlines⟩ := h
  simp only [all, List.mem_cons, List.not_mem_nil, or_false] at hb
  rcases hb with rfl | rfl | rfl | rfl | rfl | rfl | rfl | rfl | rfl | rfl | rfl | rfl | rfl | rfl |
    rfl | rfl | rfl | rfl | rfl | rfl | rfl | rfl | rfl | rfl | rfl | rfl | rfl | rfl | rfl | rfl |
    rfl | rfl | rfl | rfl | rfl | rfl | rfl | rfl | rfl | rfl | rfl
  · exact keepsDocument_prettyPrint (hlines rfl)
  · exact keepsDocuments_withoutArgument (fun _ => isDocument_minify) argument
  · exact keepsDocuments_validity argument
  · exact keepsDocuments_withoutArgument (fun _ h => h) argument
  · exact keepsDocuments_reverseItems argument
  · exact keepsDocuments_flattenArray argument
  · exact keepsDocuments_joinObjects argument
  · exact keepsDocuments_keyList argument
  · exact keepsDocuments_valueList argument
  · exact keepsDocuments_groupColumns argument
  · exact absurd rfl hsearch
  · exact keepsDocuments_withoutArgument (fun _ _ => isDocument_quoted _) argument
  · exact keepsDocuments_fromStringLiteral argument
  · exact keepsDocuments_mapString Text.toUpper argument
  · exact keepsDocuments_mapString Text.toLower argument
  · exact keepsDocuments_mapString (Text.titleFrom true) argument
  · exact keepsDocuments_mapString (Text.joinWords ['_']) argument
  · exact keepsDocuments_mapString Text.camelCase argument
  · exact keepsDocuments_mapString (Text.joinWords ['-']) argument
  · exact keepsDocuments_mapString Text.trimBlank argument
  · exact keepsDocuments_mapString List.reverse argument
  · exact keepsDocuments_replaceBy Text.replaceFirst argument
  · exact keepsDocuments_replaceBy Text.replaceAll argument
  · exact keepsDocuments_mapString (fun t => (Text.octets t).flatMap Text.hexOctet) argument
  · exact keepsDocuments_mapString (fun t => (Text.octets t).flatMap Text.binaryOctet) argument
  · exact keepsDocuments_insertText argument
  · exact keepsDocuments_wordCount argument
  · exact keepsDocuments_padBy (fun filling t => filling ++ t) argument
  · exact keepsDocuments_padBy (fun filling t => t ++ filling) argument
  · exact keepsDocuments_projectMembers argument
  · exact keepsDocuments_fillDefaults argument
  · exact keepsDocuments_filterElements argument
  · exact absurd rfl hpluck
  · exact keepsDocuments_firstElement argument
  · exact keepsDocuments_lastElement argument
  · exact keepsDocuments_elementCount argument
  · exact keepsDocuments_withoutArgument (fun _ _ => isDocument_computedText _) argument
  · exact keepsDocuments_withoutArgument (fun _ _ => isDocument_computedOrNull _) argument
  · exact keepsDocuments_withoutArgument (fun _ _ => isDocument_computedOrNull _) argument
  · exact keepsDocuments_withoutArgument (fun _ _ => isDocument_computedOrNull _) argument
  · exact keepsDocuments_convert argument

end Builtin

end DotPath
