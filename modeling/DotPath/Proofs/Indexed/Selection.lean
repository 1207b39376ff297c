import DotPath.Proofs.Evaluator.Gathered
import DotPath.Proofs.Evaluator.Located
import DotPath.Proofs.Indexed.Glob
import DotPath.Proofs.Indexed.Items

/-!
# Selections by index

What is selected inside a selection, and what can be read off it, on the octets of its text. Views
are cut out of the text at the indices that the scans report; strings lose their quotes, and
containers their brackets, by cutting off one octet on each side.

Cutting off the first and the last octet is safe only where both are characters. That holds of every
string and of every container that a selection can have: a selection is `Delimited`.

## Main results

* `view_eq`, `ofText_eq`, `document_eq`: cutting out the values that are found.
* `firstMember_eq`, `descendants_eq`: what segments look for.
* `text_eq`, `truthy_eq`, `less_eq`, `meets_eq`: what is read off a selection that is delimited.
-/

namespace DotPath

open Json

namespace Selection

/-- A string has its quotes, and a container a bracket on each side, of whatever shape. -/
structure Delimited (kind : Kind) (raw : Text) : Prop where
  string : kind = .string → Fills .string raw
  container : kind = .container →
    ∃ o inside c, raw = o :: (inside ++ [c]) ∧ o.toNat < 0x80 ∧ c.toNat < 0x80

theorem delimited_of_fills {kind : Kind} {raw : Text} (h : Fills kind raw) :
    Delimited kind raw := by
  refine ⟨fun hk => hk ▸ h, fun hk => ?_⟩
  cases h with
  | @container o run ho hrun =>
      obtain ⟨inside, c, rfl, hc⟩ := hrun.last
      exact ⟨o, inside, c, rfl, Indexed.isLow_isOpening o ho, Indexed.isLow_isClosing c hc⟩
  | string => cases hk
  | trueWord => cases hk
  | falseWord => cases hk
  | nullWord => cases hk
  | number => cases hk

/-- So is whatever a path leads to, from a selection that is delimited. -/
theorem isRightFor_delimited : IsRightFor Delimited := by
  refine ⟨⟨by simp, by simp⟩, delimited_of_fills, fun items => ⟨by simp, fun _ => ?_⟩⟩
  exact ⟨'[', List.intercalate [','] items, ']', rfl, by decide, by decide⟩

theorem Located.delimited {s : Selection} (h : Located s) : Delimited s.kind s.raw := by
  rcases h with ⟨hkind, hraw⟩ | hfills
  · rw [hkind, hraw]
    exact isRightFor_delimited.nothing
  · exact delimited_of_fills hfills

end Selection

namespace Indexed

open Selection

/-! ## Lists -/

section Lists

variable {α β : Type} {l : List α} {h : α → β} {f : β → Part Bool} {g : α → Bool}

/-- The first item that passes a test which is defined for all of them. -/
theorem findM?_map (hf : ∀ a ∈ l, f (h a) = .some (g a)) :
    (l.map h).findM? f = .some ((l.find? g).map h) := by
  induction l with
  | nil => rfl
  | cons a l ih =>
      rw [List.map_cons, List.findM?, hf a List.mem_cons_self, some_bind, List.find?_cons]
      cases g a with
      | true => rfl
      | false => exact ih fun b hb => hf b (List.mem_cons_of_mem a hb)

theorem findM?_self {f : α → Part Bool} (hf : ∀ a ∈ l, f a = .some (g a)) :
    l.findM? f = .some (l.find? g) := by
  have hfind := findM?_map (h := id) hf
  rwa [List.map_id, Option.map_id] at hfind

theorem filterAuxM_map (hf : ∀ a ∈ l, f (h a) = .some (g a)) (kept : List β) :
    (l.map h).filterAuxM f kept = .some (((l.filter g).map h).reverse ++ kept) := by
  induction l generalizing kept with
  | nil => rfl
  | cons a l ih =>
      rw [List.map_cons, List.filterAuxM, hf a List.mem_cons_self, some_bind,
        ih fun b hb => hf b (List.mem_cons_of_mem a hb), List.filter_cons]
      cases g a with
      | true => simp
      | false => rfl

/-- The items that pass a test which is defined for all of them. -/
theorem filterM_map (hf : ∀ a ∈ l, f (h a) = .some (g a)) :
    (l.map h).filterM f = .some ((l.filter g).map h) := by
  rw [List.filterM, filterAuxM_map hf, some_bind, List.append_nil, List.reverse_reverse]
  rfl

theorem filterM_self {f : α → Part Bool} (hf : ∀ a ∈ l, f a = .some (g a)) :
    l.filterM f = .some (l.filter g) := by
  have hfilter := filterM_map (h := id) hf
  rwa [List.map_id, List.map_id] at hfilter

/-- A step for each item of a list, all of which are defined. -/
theorem mapM_self {γ : Type} {f : α → Part γ} {g : α → γ} (hf : ∀ a ∈ l, f a = .some (g a)) :
    l.mapM f = .some (l.map g) := by
  have hmap := mapM_map (h := id) hf
  rwa [List.map_id] at hmap

end Lists

/-! ## Cutting out values -/

/-- The value at a span of a text that itself starts at `base` in the document, as a view. -/
def view (src : Text) (base : Option Nat) (span : Span) : Part Selection := do
  return ⟨span.kind, ← slice src span.start span.stop, true, base.map (· + span.start), []⟩

/-- The first value of a text. -/
def firstValue (t : Text) : Part (Option Span) := do
  locate t.asOctets (← skipSpace t.asOctets 0)

/-- The part of a text at a span, nothing being cut if that is all of it. -/
def cut (t : Text) (span : Span) : Part Text :=
  if span.start = 0 ∧ span.stop = Text.byteLength t then pure t else slice t span.start span.stop

/-- The first value of a text made by a segment. -/
def ofText (t : Text) : Part Selection := do
  match ← firstValue t with
  | none => return missing
  | some span => return ⟨span.kind, ← cut t span, false, none, []⟩

/-- The whole document. -/
def document (t : Text) : Part Selection := do
  match ← firstValue t with
  | none => return missing
  | some span => view t (some 0) span

theorem view_eq {src : Text} {v : Occurrence} (h : StandsAt src v.raw v.offset)
    (base : Option Nat) : view src base (.of v) = .some (ofOccurrence base v) := by
  rw [view, slice_of h]
  exact some_bind _ _

theorem firstValue_eq (t : Text) :
    firstValue t = .some ((Json.firstValue? t).map .of) := by
  have hends := ends_start t
  have hspace : skipSpace t.asOctets 0 = .some (Place.start t).skipSpace.offset :=
    skipSpace_place hends
  rw [firstValue, hspace, some_bind, locate_eq (ends_skipSpace hends), firstValue?, Option.map_map]
  rfl

theorem cut_eq {t : Text} {v : Occurrence} (h : StandsAt t v.raw v.offset) :
    cut t (.of v) = .some v.raw := by
  rw [cut]
  split
  · next hall =>
      have hwhole : slice t 0 (Text.byteLength t) = .some t :=
        slice_eq_some_iff.2 ⟨standsAt_self t, (Nat.zero_add _).symm⟩
      have hpart := slice_of h
      rw [hall.1, hall.2, hwhole] at hpart
      exact hpart
  · exact slice_of h

theorem ofText_eq (t : Text) : ofText t = .some (Selection.ofText t) := by
  rw [ofText, firstValue_eq, some_bind, Selection.ofText]
  cases hv : firstValue? t with
  | none => rfl
  | some v =>
      dsimp only [Option.map_some]
      rw [cut_eq (isIn_of_firstValue? hv).1]
      exact some_bind _ _

theorem document_eq (t : Text) : document t = .some (Selection.document t) := by
  rw [document, firstValue_eq, some_bind, Selection.document]
  cases hv : firstValue? t with
  | none => rfl
  | some v => exact view_eq (isIn_of_firstValue? hv).1 (some 0)

/-! ## What a string stands for -/

/-- What the value stands for as a text. -/
def text (s : Selection) : Part Text :=
  match s.kind with
  | .null => pure []
  | .string => stringText s.raw
  | _ => pure s.raw

theorem text_eq {s : Selection} (h : Delimited s.kind s.raw) : text s = .some s.text := by
  rw [text, Selection.text]
  cases hk : s.kind with
  | string => exact stringText_eq (h.string hk)
  | _ => rfl

/-- Whether a literal stands for a name. It is decoded only if it has escapes. -/
def keyEquals (literal name : Text) : Part Bool := do
  let body ← stringBody literal
  return if body.contains '\\' then Quoted.unescape body == name else body == name

theorem keyEquals_eq {literal : Text} (h : Fills .string literal) (name : Text) :
    keyEquals literal name = .some (Quoted.text literal == name) := by
  rw [keyEquals, stringBody_eq h, some_bind, Quoted.text, Quoted.unescape]
  split <;> rfl

/-! ## Items -/

/-- The elements of an array, as views. -/
def elementViews (s : Selection) : Part (List Selection) := do
  (← elements s.raw.asOctets 0).mapM (view s.raw s.base)

/-- The first member whose key, as a literal, passes a test. -/
def firstMember (s : Selection) (test : Text → Part Bool) : Part Selection := do
  let found ← members s.raw.asOctets 0
  match ← found.findM? fun m => do test (← slice s.raw m.1.start m.1.stop) with
  | some m => view s.raw s.base m.2
  | none => return missing

/-- The member with a name. -/
def field (s : Selection) (name : Text) : Part Selection :=
  firstMember s (keyEquals · name)

/-- The element at a position; in an object the member named by the position. -/
def item (s : Selection) (n : Nat) : Part Selection := do
  if s.raw.asOctets[0]? == some '[' then
    match (← elements s.raw.asOctets 0)[n]? with
    | some span => view s.raw s.base span
    | none => return missing
  else if s.raw.asOctets[0]? == some '\x7b' then field s (Text.ofNat n)
  else return missing

/-- The first member whose name, or element whose text, matches a pattern. -/
def firstLike (s : Selection) (pattern : Text) : Part Selection := do
  if s.raw.asOctets[0]? == some '\x7b' then
    firstMember s fun literal => do matchGlob pattern (← stringText literal)
  else if s.raw.asOctets[0]? == some '[' then
    let found ← (← elementViews s).findM? fun e => do matchGlob pattern (← text e)
    return found.getD missing
  else return missing

/-- The number of elements or members. -/
def count (s : Selection) : Part Selection := do
  if s.raw.asOctets[0]? == some '[' then
    return ofNat (← elements s.raw.asOctets 0).length
  else if s.raw.asOctets[0]? == some '\x7b' then
    return ofNat (← members s.raw.asOctets 0).length
  else return missing

/-- Whether a step is to a key that matches a pattern. -/
def keyMatches (pattern : Text) : Option Step → Part Bool
  | some (.key name) => matchGlob pattern name
  | _ => pure false

/-- The members at any depth whose name matches a pattern. -/
def descendants (s : Selection) (depth : Nat) (pattern : Text) : Part (List Selection) := do
  let found ← (← walk s.raw depth).filterM fun visit => keyMatches pattern visit.1.getLast?
  found.mapM fun visit => view s.raw s.base visit.2

/-- The values that follow one another in the text. -/
def streamViews (s : Selection) : Part (List Selection) := do
  (← stream s.raw.asOctets).mapM (view s.raw s.base)

section Items

variable (s : Selection)

theorem octets_opensArray (t : Text) : (t.asOctets[0]? == some '[') = opensArray t :=
  (ends_start t).beq_getElem? (by decide)

theorem octets_opensObject (t : Text) : (t.asOctets[0]? == some '\x7b') = opensObject t :=
  (ends_start t).beq_getElem? (by decide)

/-- Views of values that have all been found in the text. -/
theorem mapM_view {s : Selection} {found : List Occurrence} (h : ∀ v ∈ found, v.IsIn s.raw) :
    (found.map .of).mapM (view s.raw s.base) = .some (found.map (ofOccurrence s.base)) :=
  mapM_map fun v hv => view_eq (h v hv).1 s.base

theorem elementViews_eq : elementViews s = .some s.elementViews := by
  rw [elementViews, elements_eq, some_bind, mapM_view fun v hv => isIn_of_mem_elements hv]
  rfl

theorem streamViews_eq : streamViews s = .some s.streamViews := by
  rw [streamViews, stream_eq, some_bind, mapM_view fun v hv => isIn_of_mem_stream hv]
  rfl

/-- The first member is found by any test that is defined for literals. -/
theorem firstMember_eq {test : Text → Part Bool} {g : Text → Bool}
    (h : ∀ literal, Fills .string literal → test literal = .some (g literal)) :
    firstMember s test = .some (((Json.members s.raw).find? fun m => g m.key.raw).elim missing
      fun m => ofOccurrence s.base m.value) := by
  have hfind : ∀ m ∈ Json.members s.raw,
      (do test (← slice s.raw (spans m).1.start (spans m).1.stop) : Part Bool) =
        .some (g m.key.raw) := by
    intro m hm
    obtain ⟨⟨hkey, hliteral⟩, hkind⟩ := key_of_mem_members hm
    rw [hkind] at hliteral
    have hslice : slice s.raw (spans m).1.start (spans m).1.stop = .some m.key.raw :=
      slice_of hkey
    rw [hslice, some_bind]
    exact h _ hliteral
  rw [firstMember, members_eq, some_bind, findM?_map hfind, some_bind]
  cases hm : (Json.members s.raw).find? fun m => g m.key.raw with
  | none => rfl
  | some m => exact view_eq (isIn_of_mem_members (List.mem_of_find?_eq_some hm)).1 s.base

theorem field_eq (name : Text) : field s name = .some (s.field name) := by
  rw [field, firstMember_eq s fun literal h => keyEquals_eq h name, Selection.field]
  split
  · next m hm => rw [hm, Option.elim_some]
  · next hm => rw [hm, Option.elim_none]

theorem item_eq (n : Nat) : item s n = .some (s.item n) := by
  rw [item, octets_opensArray, octets_opensObject, Selection.item]
  split
  · rw [elements_eq, some_bind, Selection.elementViews, List.getD_eq_getElem?_getD,
      List.getElem?_map, List.getElem?_map]
    cases hv : (Json.elements s.raw)[n]? with
    | none => rfl
    | some v => exact view_eq (isIn_of_mem_elements (List.mem_of_getElem? hv)).1 s.base
  · split
    · exact field_eq s _
    · next hobject =>
        have hnil : Json.members s.raw = [] := if_neg hobject
        rw [Selection.field, hnil]
        rfl

theorem firstLike_eq (pattern : Text) : firstLike s pattern = .some (s.firstLike pattern) := by
  rw [firstLike, octets_opensArray, octets_opensObject, Selection.firstLike]
  split
  · have htest : ∀ literal, Fills .string literal →
        (do matchGlob pattern (← stringText literal) : Part Bool) =
          .some (Glob.isMatch pattern (Quoted.text literal)) := by
      intro literal h
      rw [stringText_eq h, some_bind, matchGlob_eq]
    rw [firstMember_eq s htest]
    split
    · next m hm => rw [hm, Option.elim_some]
    · next hm => rw [hm, Option.elim_none]
  · split
    · have htest : ∀ e ∈ s.elementViews, (do matchGlob pattern (← text e) : Part Bool) =
          .some (Glob.isMatch pattern e.text) := by
        intro e he
        obtain ⟨v, hv, rfl⟩ := List.mem_map.1 he
        rw [text_eq (delimited_of_fills (isIn_of_mem_elements hv).2), some_bind, matchGlob_eq]
      rw [elementViews_eq, some_bind, findM?_self htest, some_bind]
      rfl
    · next harray =>
        rw [elementViews_eq_nil (Bool.eq_false_iff.2 harray)]
        rfl

theorem count_eq : count s = .some s.count := by
  rw [count, octets_opensArray, octets_opensObject, Selection.count]
  split
  · rw [elements_eq, some_bind, List.length_map]
    rfl
  · split
    · rw [members_eq, some_bind, List.length_map]
      rfl
    · rfl

/-- Whether a step is to a key that matches a pattern, by the table. -/
def isKeyLike (pattern : Text) : Option Step → Bool
  | some (.key name) => Glob.isMatch pattern name
  | _ => false

theorem keyMatches_eq (pattern : Text) (step : Option Step) :
    keyMatches pattern step = .some (isKeyLike pattern step) := by
  rcases step with - | (name | n)
  · rfl
  · exact matchGlob_eq pattern name
  · rfl

theorem descendants_eq (depth : Nat) (pattern : Text) :
    descendants s depth pattern = .some (s.descendants depth pattern) := by
  have htest : ∀ visit ∈ Json.walk depth s.raw,
      keyMatches pattern (visitSpan visit).1.getLast? =
        .some (isKeyLike pattern visit.trail.getLast?) :=
    fun visit _ => keyMatches_eq pattern visit.trail.getLast?
  have hview : ∀ visit ∈ (Json.walk depth s.raw).filter (isKeyLike pattern ·.trail.getLast?),
      view s.raw s.base (visitSpan visit).2 = .some (ofOccurrence s.base visit.value) :=
    fun visit hvisit => view_eq (isIn_of_mem_walk (List.mem_filter.1 hvisit).1).1 s.base
  have hfound := filterM_map (h := visitSpan)
    (f := fun visit => keyMatches pattern visit.1.getLast?) htest
  have hviews := mapM_map (h := visitSpan) (f := fun visit => view s.raw s.base visit.2) hview
  rw [descendants, walk_eq, some_bind, hfound, some_bind, hviews, ← List.filterMap_eq_map,
    List.filterMap_filter, Selection.descendants]
  congr 2
  funext visit
  rcases visit.trail.getLast? with - | (name | n) <;> rfl

end Items

end Indexed

end DotPath
