import DotPath.Json.Compose
import DotPath.Json.Items
import DotPath.Proofs.Json.Place

/-!
# What the scans for items find

The scans for elements and members go over the text of a container and report what they find, with
offsets. They stop without a word where the text is malformed. On the text of a container that is
laid out item by item they find exactly those items, in order and at the right offsets; and in any
text at all, what they report is a value and stands where they say.

The layout is generic in how an item is written. Its values need only be texts that the scan for
extents takes for a value, so the results cover the containers of the strict grammar and also arrays
that are put together from values of unknown origin.

## Main results

* `elements_layout`, `members_layout`: exactly the items that are laid out are found.
* `elements_composeArray`: the elements of an array that has been composed.
* `isIn_of_mem_elements`, `isIn_of_mem_members`: whatever is found stands in the text.
-/

namespace DotPath.Json

/-! ## Slots -/

section Slots

variable {closing : Char} {k : Nat} {t : Text}

/-- The first item may begin at any character that does not close the container. -/
theorem slot?_first (before : Spaces)
    (ht : ∃ c s, t = c :: s ∧ isSpace c = false ∧ c ≠ closing) :
    slot? closing true ⟨k, before.1 ++ t⟩ = some ⟨k + Text.byteLength before.1, t⟩ := by
  obtain ⟨c, s, rfl, hc, hne⟩ := ht
  have hskip := Place.skipSpace_append k before (lacks_cons (t := s) hc)
  simp [slot?, hskip, hne]

/-- Every other item begins behind a comma. -/
theorem slot?_comma (gap before : Spaces) (hne : ',' ≠ closing) (ht : Lacks isSpace t) :
    slot? closing false ⟨k, gap.1 ++ ',' :: (before.1 ++ t)⟩ =
      some ⟨k + Text.byteLength gap.1 + 1 + Text.byteLength before.1, t⟩ := by
  have hskip := Place.skipSpace_append k gap (t := ',' :: (before.1 ++ t)) (lacks_cons rfl)
  have hcomma := Place.expect?_cons (k + Text.byteLength gap.1) ',' (before.1 ++ t)
  have hsize : (',' : Char).utf8Size = 1 := rfl
  have hnext := Place.skipSpace_append (k + Text.byteLength gap.1 + 1) before ht
  rw [hsize] at hcomma
  simp [slot?, hskip, hne, hcomma, hnext]

/-- No item begins at the closing bracket. -/
theorem slot?_close (gap : Spaces) (first : Bool) (hc : isSpace closing = false) :
    slot? closing first ⟨k, gap.1 ++ closing :: t⟩ = none := by
  have hskip := Place.skipSpace_append k gap (lacks_cons (t := t) hc)
  simp [slot?, hskip]

end Slots

theorem elements_cons (t : Text) : elements ('[' :: t) = elementsFrom true ⟨1, t⟩ := by
  rfl

theorem members_cons (t : Text) : members ('\x7b' :: t) = membersFrom true ⟨1, t⟩ := by
  rfl

theorem elementsFrom_of_slot {first : Bool} {p q next : Place} {v : Occurrence}
    (hs : slot? ']' first p = some q) (hv : q.value? = some (v, next)) :
    elementsFrom first p = v :: elementsFrom false next := by
  rw [elementsFrom]
  split
  · next h => rw [hs] at h; cases h
  · next h =>
      rw [hs] at h
      cases h
      split
      · next h => rw [hv] at h; cases h
      · next h => rw [hv] at h; cases h; rfl

theorem elementsFrom_of_no_slot {first : Bool} {p : Place} (hs : slot? ']' first p = none) :
    elementsFrom first p = [] := by
  rw [elementsFrom]
  split
  · rfl
  · next h => rw [hs] at h; cases h

theorem elementsFrom_of_no_value {first : Bool} {p q : Place} (hs : slot? ']' first p = some q)
    (hv : q.value? = none) : elementsFrom first p = [] := by
  rw [elementsFrom]
  split
  · rfl
  · next h =>
      rw [hs] at h
      cases h
      split
      · rfl
      · next h => rw [hv] at h; cases h

theorem membersFrom_of_slot {first : Bool} {p q next : Place} {m : Member}
    (hs : slot? '\x7d' first p = some q) (hm : member? q = some (m, next)) :
    membersFrom first p = m :: membersFrom false next := by
  rw [membersFrom]
  split
  · next h => rw [hs] at h; cases h
  · next h =>
      rw [hs] at h
      cases h
      split
      · next h => rw [hm] at h; cases h
      · next h => rw [hm] at h; cases h; rfl

theorem membersFrom_of_no_slot {first : Bool} {p : Place} (hs : slot? '\x7d' first p = none) :
    membersFrom first p = [] := by
  rw [membersFrom]
  split
  · rfl
  · next h => rw [hs] at h; cases h

theorem membersFrom_of_no_member {first : Bool} {p q : Place}
    (hs : slot? '\x7d' first p = some q) (hm : member? q = none) : membersFrom first p = [] := by
  rw [membersFrom]
  split
  · rfl
  · next h =>
      rw [hs] at h
      cases h
      split
      · rfl
      · next h => rw [hm] at h; cases h

/-! ## Containers that are laid out -/

section Layout

variable {α : Type} (kind : α → Kind) (write : α → Text)

/-- The items behind the first one, each with the comma in front of it. -/
def tailSource : List (Item α) → Text
  | [] => []
  | i :: rest => ',' :: (i.source write ++ tailSource rest)

/-- The members behind the first one, each with the comma in front of it. -/
def entryTailSource : List (Entry α) → Text
  | [] => []
  | e :: rest => ',' :: (e.source write ++ entryTailSource rest)

theorem tailSource_eq_flatMap (items : List (Item α)) :
    tailSource write items = items.flatMap fun i => ',' :: i.source write := by
  induction items with
  | nil => rfl
  | cons i items ih => rw [tailSource, List.flatMap_cons, ih, List.cons_append]

theorem entryTailSource_eq_flatMap (entries : List (Entry α)) :
    entryTailSource write entries = entries.flatMap fun e => ',' :: e.source write := by
  induction entries with
  | nil => rfl
  | cons e entries ih => rw [entryTailSource, List.flatMap_cons, ih, List.cons_append]

/-- Of texts with commas between them, all but the first have a comma in front. -/
theorem intercalate_comma (a : α) (as : List α) :
    List.intercalate [','] ((a :: as).map write) =
      write a ++ as.flatMap fun b => ',' :: write b := by
  induction as generalizing a with
  | nil => simp [List.intercalate]
  | cons b as ih =>
      have hb := ih b
      simp only [List.map_cons, List.intercalate, List.intersperse, List.flatten_cons,
        List.singleton_append] at hb ⊢
      rw [hb, List.flatMap_cons, List.cons_append]

/-- The values of items that are laid out from offset `k` on, with a comma between them. -/
def itemOccurrences (k : Nat) : List (Item α) → List Occurrence
  | [] => []
  | i :: rest =>
    ⟨kind i.value, k + Text.byteLength i.before.1, write i.value⟩ ::
      itemOccurrences (k + Text.byteLength (i.source write) + 1) rest

/-- The key and the value of a member that is laid out from offset `k` on. -/
def Entry.occurrence (k : Nat) (e : Entry α) : Member :=
  let key := k + Text.byteLength e.before.1
  let colon := key + Text.byteLength e.key.source + Text.byteLength e.gap.1
  ⟨⟨.string, key, e.key.source⟩,
    ⟨kind e.item.value, colon + 1 + Text.byteLength e.item.before.1, write e.item.value⟩⟩

/-- The members that are laid out from offset `k` on, with a comma between them. -/
def entryOccurrences (k : Nat) : List (Entry α) → List Member
  | [] => []
  | e :: rest =>
    e.occurrence kind write k :: entryOccurrences (k + Text.byteLength (e.source write) + 1) rest

variable {kind write}

private theorem delimited_tailSource (items : List (Item α)) (rest : Text) :
    Delimited (tailSource write items ++ ']' :: rest) := by
  cases items with
  | nil => exact lacks_cons rfl
  | cons i items => exact lacks_cons rfl

private theorem delimited_entryTailSource (entries : List (Entry α)) (rest : Text) :
    Delimited (entryTailSource write entries ++ '\x7d' :: rest) := by
  cases entries with
  | nil => exact lacks_cons rfl
  | cons e entries => exact lacks_cons rfl

/-- Any items behind a value: they are found behind their commas, and the bracket ends the scan. -/
theorem elementsFrom_tailSource {items : List (Item α)} (rest : Text)
    (hfills : ∀ i ∈ items, Fills (kind i.value) (write i.value)) (k : Nat) (after : Spaces) :
    elementsFrom false ⟨k, after.1 ++ (tailSource write items ++ ']' :: rest)⟩ =
      itemOccurrences kind write (k + Text.byteLength after.1 + 1) items := by
  induction items generalizing k after with
  | nil => exact elementsFrom_of_no_slot (slot?_close after false rfl)
  | cons i items ih =>
      have hi := hfills i List.mem_cons_self
      have hdelim : Delimited (i.after.1 ++ (tailSource write items ++ ']' :: rest)) :=
        i.after.delimited (delimited_tailSource items rest)
      have hspace := hi.lacks_space (i.after.1 ++ (tailSource write items ++ ']' :: rest))
      have hslot := slot?_comma (k := k) after i.before (by decide : ',' ≠ ']') hspace
      have hvalue := Place.value?_append
        (k + Text.byteLength after.1 + 1 + Text.byteLength i.before.1) hi hdelim
      simp only [tailSource, Item.source, List.cons_append, List.append_assoc]
      rw [elementsFrom_of_slot hslot hvalue,
        ih (fun j hj => hfills j (List.mem_cons_of_mem i hj)), itemOccurrences, Item.source]
      simp only [Text.byteLength_append, Nat.add_assoc]

/-- The elements of an array that is laid out are its items, whatever comes after it. -/
theorem elements_layout {first : Item α} {items : List (Item α)} (rest : Text)
    (hfills : ∀ i ∈ first :: items, Fills (kind i.value) (write i.value)) :
    elements ('[' :: (first.source write ++ (tailSource write items ++ ']' :: rest))) =
      itemOccurrences kind write 1 (first :: items) := by
  have hi := hfills first List.mem_cons_self
  have hdelim : Delimited (first.after.1 ++ (tailSource write items ++ ']' :: rest)) :=
    first.after.delimited (delimited_tailSource items rest)
  have hhead : ∃ c s, write first.value ++ (first.after.1 ++ (tailSource write items ++
      ']' :: rest)) = c :: s ∧ isSpace c = false ∧ c ≠ ']' := by
    obtain ⟨c, s, hsource, hc, hclose, -⟩ := hi.head
    refine ⟨c, _, by rw [hsource]; rfl, hc, ?_⟩
    rintro rfl
    cases hclose
  have hvalue := Place.value?_append (1 + Text.byteLength first.before.1) hi hdelim
  have hslot := slot?_first (k := 1) first.before hhead
  have htail := elementsFrom_tailSource rest (fun j hj => hfills j (List.mem_cons_of_mem first hj))
    (1 + Text.byteLength first.before.1 + Text.byteLength (write first.value)) first.after
  simp only [Item.source, List.append_assoc]
  rw [elements_cons, elementsFrom_of_slot hslot hvalue, htail, itemOccurrences, Item.source]
  simp only [Text.byteLength_append, Nat.add_assoc]

theorem elements_empty (inside : Spaces) (rest : Text) :
    elements ('[' :: (inside.1 ++ ']' :: rest)) = [] := by
  rw [elements_cons]
  exact elementsFrom_of_no_slot (slot?_close inside true rfl)

/-- A member that is laid out is read whole. -/
theorem member?_append {e : Entry α} {rest : Text} (k : Nat)
    (he : Fills (kind e.item.value) (write e.item.value)) (hr : Delimited rest) :
    member? ⟨k, e.key.source ++ (e.gap.1 ++ ':' :: (e.item.before.1 ++
      (write e.item.value ++ rest)))⟩ =
        some (⟨⟨.string, k, e.key.source⟩,
          ⟨kind e.item.value, k + Text.byteLength e.key.source + Text.byteLength e.gap.1 + 1 +
            Text.byteLength e.item.before.1, write e.item.value⟩⟩,
          ⟨k + Text.byteLength e.key.source + Text.byteLength e.gap.1 + 1 +
            Text.byteLength e.item.before.1 + Text.byteLength (write e.item.value), rest⟩) := by
  have hkey := Place.literal?_append k (.string e.key.spelled.isRun)
    (e.gap.1 ++ ':' :: (e.item.before.1 ++ (write e.item.value ++ rest)))
  have hgap := Place.skipSpace_append (k + Text.byteLength e.key.source) e.gap
    (t := ':' :: (e.item.before.1 ++ (write e.item.value ++ rest))) (lacks_cons rfl)
  have hcolon := Place.expect?_cons (k + Text.byteLength e.key.source + Text.byteLength e.gap.1)
    ':' (e.item.before.1 ++ (write e.item.value ++ rest))
  have hbefore := Place.skipSpace_append
    (k + Text.byteLength e.key.source + Text.byteLength e.gap.1 + 1) e.item.before
    (he.lacks_space rest)
  have hvalue := Place.value?_append (k + Text.byteLength e.key.source +
    Text.byteLength e.gap.1 + 1 + Text.byteLength e.item.before.1) he hr
  have hsize : (':' : Char).utf8Size = 1 := rfl
  rw [hsize] at hcolon
  simp only [member?, Key.source] at hkey hgap hcolon hbefore hvalue ⊢
  simp only [hkey, hgap, hcolon, hbefore, hvalue, Option.bind_eq_bind, Option.bind_some,
    Option.pure_def]

/-- Any members behind a value: they are found behind their commas. -/
theorem membersFrom_entryTailSource {entries : List (Entry α)} (rest : Text)
    (hfills : ∀ e ∈ entries, Fills (kind e.item.value) (write e.item.value)) (k : Nat)
    (after : Spaces) :
    membersFrom false ⟨k, after.1 ++ (entryTailSource write entries ++ '\x7d' :: rest)⟩ =
      entryOccurrences kind write (k + Text.byteLength after.1 + 1) entries := by
  induction entries generalizing k after with
  | nil => exact membersFrom_of_no_slot (slot?_close after false rfl)
  | cons e entries ih =>
      have he := hfills e List.mem_cons_self
      have hdelim : Delimited (e.item.after.1 ++ (entryTailSource write entries ++
          '\x7d' :: rest)) :=
        e.item.after.delimited (delimited_entryTailSource entries rest)
      have hmember := member?_append
        (k + Text.byteLength after.1 + 1 + Text.byteLength e.before.1) he hdelim
      have hslot := slot?_comma (k := k) (t := e.key.source ++ (e.gap.1 ++
        ':' :: (e.item.before.1 ++ (write e.item.value ++ (e.item.after.1 ++
          (entryTailSource write entries ++ '\x7d' :: rest)))))) after e.before
        (by decide : ',' ≠ '\x7d') (lacks_cons rfl)
      simp only [entryTailSource, Entry.source, Item.source, List.cons_append, List.append_assoc]
      rw [membersFrom_of_slot hslot hmember,
        ih (fun j hj => hfills j (List.mem_cons_of_mem e hj)), entryOccurrences, Entry.source,
        Entry.occurrence, Item.source]
      have hsize : (':' : Char).utf8Size = 1 := rfl
      simp only [Text.byteLength_append, Text.byteLength_cons, hsize, Nat.add_assoc,
        Nat.add_left_comm]

/-- The members of an object that is laid out are its entries, whatever comes after it. -/
theorem members_layout {first : Entry α} {entries : List (Entry α)} (rest : Text)
    (hfills : ∀ e ∈ first :: entries, Fills (kind e.item.value) (write e.item.value)) :
    members ('\x7b' :: (first.source write ++ (entryTailSource write entries ++ '\x7d' :: rest))) =
      entryOccurrences kind write 1 (first :: entries) := by
  have he := hfills first List.mem_cons_self
  have hdelim : Delimited (first.item.after.1 ++ (entryTailSource write entries ++
      '\x7d' :: rest)) :=
    first.item.after.delimited (delimited_entryTailSource entries rest)
  have hmember := member?_append (1 + Text.byteLength first.before.1) he hdelim
  have hslot := slot?_first (k := 1) (t := first.key.source ++ (first.gap.1 ++
    ':' :: (first.item.before.1 ++ (write first.item.value ++ (first.item.after.1 ++
      (entryTailSource write entries ++ '\x7d' :: rest)))))) first.before
    ⟨'"', _, rfl, rfl, (by decide : '"' ≠ '\x7d')⟩
  have htail := membersFrom_entryTailSource rest
    (fun j hj => hfills j (List.mem_cons_of_mem first hj))
    (1 + Text.byteLength first.before.1 + Text.byteLength first.key.source +
      Text.byteLength first.gap.1 + 1 + Text.byteLength first.item.before.1 +
      Text.byteLength (write first.item.value)) first.item.after
  have hsize : (':' : Char).utf8Size = 1 := rfl
  simp only [Entry.source, Item.source, List.append_assoc, List.cons_append]
  rw [members_cons, membersFrom_of_slot hslot hmember, htail, entryOccurrences, Entry.source,
    Entry.occurrence, Item.source]
  simp only [Text.byteLength_append, Text.byteLength_cons, hsize, Nat.add_assoc,
    Nat.add_left_comm]

theorem members_empty (inside : Spaces) (rest : Text) :
    members ('\x7b' :: (inside.1 ++ '\x7d' :: rest)) = [] := by
  rw [members_cons]
  exact membersFrom_of_no_slot (slot?_close inside true rfl)

/-- The occurrences of items carry their kinds and texts, in order. -/
theorem map_itemOccurrences (kind : α → Kind) (write : α → Text) (k : Nat)
    (items : List (Item α)) :
    (itemOccurrences kind write k items).map (fun v => (v.kind, v.raw)) =
      items.map fun i => (kind i.value, write i.value) := by
  induction items generalizing k with
  | nil => rfl
  | cons i items ih => rw [itemOccurrences, List.map_cons, List.map_cons, ih]

/-- The occurrences of members carry their keys, kinds and texts, in order. -/
theorem map_entryOccurrences (kind : α → Kind) (write : α → Text) (k : Nat)
    (entries : List (Entry α)) :
    (entryOccurrences kind write k entries).map (fun m => (m.key.raw, m.value.kind, m.value.raw)) =
      entries.map fun e => (e.key.source, kind e.item.value, write e.item.value) := by
  induction entries generalizing k with
  | nil => rfl
  | cons e entries ih => rw [entryOccurrences, List.map_cons, List.map_cons, ih]; rfl

/-- An item without space around it. -/
def Item.bare (a : α) : Item α :=
  ⟨.none, a, .none⟩

/-- An array that is composed is an array that is laid out without space. -/
theorem composeArray_cons (a : α) (as : List α) :
    composeArray ((a :: as).map write) =
      '[' :: ((Item.bare a).source write ++ (tailSource write (as.map Item.bare) ++ [']'])) := by
  rw [composeArray, intercalate_comma, tailSource_eq_flatMap, List.flatMap_map]
  simp [Item.source, Item.bare, Spaces.none]

/-- The elements of an array that is composed of values are those values. -/
theorem elements_composeArray {as : List α} (hfills : ∀ a ∈ as, Fills (kind a) (write a)) :
    (elements (composeArray (as.map write))).map (fun v => (v.kind, v.raw)) =
      as.map fun a => (kind a, write a) := by
  cases as with
  | nil =>
      have := elements_empty .none []
      rw [show elements (composeArray ([].map write)) = [] from this]
      rfl
  | cons a as =>
      have hbare : ∀ i ∈ Item.bare a :: as.map Item.bare, Fills (kind i.value) (write i.value) := by
        intro i hi
        rcases List.mem_cons.1 hi with rfl | hi
        · exact hfills a List.mem_cons_self
        · obtain ⟨b, hb, rfl⟩ := List.mem_map.1 hi
          exact hfills b (List.mem_cons_of_mem a hb)
      rw [composeArray_cons, elements_layout [] hbare, map_itemOccurrences, List.map_cons,
        List.map_cons, List.map_map]
      rfl

end Layout

/-! ## Whatever is found stands in the text -/

/-- A value that has been found in a text: it stands there, and it is a value. -/
def Occurrence.IsIn (v : Occurrence) (t : Text) : Prop :=
  StandsAt t v.raw v.offset ∧ Fills v.kind v.raw

theorem isIn_of_value? {t : Text} {p q : Place} {v : Occurrence} (hp : p.LiesIn t)
    (hv : p.value? = some (v, q)) : v.IsIn t :=
  ⟨(hp.value? hv).1, (Place.eq_of_value? hv).1⟩

theorem liesIn_of_slot? {t : Text} {closing : Char} {first : Bool} {p q : Place}
    (h : p.LiesIn t) (hq : slot? closing first p = some q) : q.LiesIn t := by
  have hs := h.skipSpace
  simp only [slot?] at hq
  split at hq
  · cases hq
  · split at hq
    · cases hq
    · split at hq
      · cases hq
        exact hs
      · simp only [Option.map_eq_some_iff] at hq
        obtain ⟨r, hr, rfl⟩ := hq
        exact (hs.expect? hr).skipSpace

theorem isIn_of_mem_elementsFrom {t : Text} {first : Bool} {p : Place} {v : Occurrence}
    (hp : p.LiesIn t) (hv : v ∈ elementsFrom first p) : v.IsIn t := by
  fun_induction elementsFrom first p with
  | case1 => cases hv
  | case2 => cases hv
  | case3 first p q hs w next hw ih =>
      have hq := liesIn_of_slot? hp hs
      rcases List.mem_cons.1 hv with rfl | hv
      · exact isIn_of_value? hq hw
      · exact ih (hq.value? hw).2 hv

/-- An element that is found stands in the text at its offset, and is a value. -/
theorem isIn_of_mem_elements {t : Text} {v : Occurrence} (hv : v ∈ elements t) : v.IsIn t := by
  unfold elements at hv
  split at hv
  · exact isIn_of_mem_elementsFrom ((Place.start_liesIn t).skip 1) hv
  · cases hv

theorem isIn_of_member? {t : Text} {p q : Place} {m : Member} (h : p.LiesIn t)
    (hm : member? p = some (m, q)) : m.value.IsIn t ∧ q.LiesIn t := by
  simp only [member?, Option.bind_eq_bind, Option.pure_def, Option.bind_eq_some_iff,
    Option.some.injEq, Prod.mk.injEq, Prod.exists] at hm
  obtain ⟨key, a, ha, b, hb, value, c, hc, rfl, rfl⟩ := hm
  have hspace := ((h.literal? ha).2.skipSpace.expect? hb).skipSpace
  exact ⟨isIn_of_value? hspace hc, (hspace.value? hc).2⟩

theorem isIn_of_mem_membersFrom {t : Text} {first : Bool} {p : Place} {m : Member}
    (hp : p.LiesIn t) (hm : m ∈ membersFrom first p) : m.value.IsIn t := by
  fun_induction membersFrom first p with
  | case1 => cases hm
  | case2 => cases hm
  | case3 first p q hs n next hn ih =>
      obtain ⟨hvalue, hnext⟩ := isIn_of_member? (liesIn_of_slot? hp hs) hn
      rcases List.mem_cons.1 hm with rfl | hm
      · exact hvalue
      · exact ih hnext hm

/-- The value of a member that is found stands in the text at its offset, and is a value. -/
theorem isIn_of_mem_membersAt {t : Text} {p : Place} {m : Member} (hp : p.LiesIn t)
    (hm : m ∈ membersAt p) : m.value.IsIn t := by
  unfold membersAt at hm
  split at hm
  · exact isIn_of_mem_membersFrom (hp.skip 1) hm
  · cases hm

theorem isIn_of_mem_members {t : Text} {m : Member} (hm : m ∈ members t) : m.value.IsIn t :=
  isIn_of_mem_membersAt (Place.start_liesIn t) hm

/-- The first value of a text, where it is written behind space. -/
theorem Fills.firstValue?_append {kind : Kind} {raw : Text} (h : Fills kind raw) (before : Spaces)
    {rest : Text} (hr : Delimited rest) :
    firstValue? (before.1 ++ (raw ++ rest)) = some ⟨kind, Text.byteLength before.1, raw⟩ := by
  have hskip := Place.skipSpace_append 0 before (h.lacks_space rest)
  have hvalue := Place.value?_append (0 + Text.byteLength before.1) h hr
  rw [firstValue?, Place.start, hskip, hvalue, Option.map_some, Nat.zero_add]

theorem Fills.firstValue? {kind : Kind} {raw : Text} (h : Fills kind raw) :
    firstValue? raw = some ⟨kind, 0, raw⟩ := by
  have hfirst := h.firstValue?_append .none (lacks_nil extendsNumber)
  simpa [Spaces.none] using hfirst

/-- The first value of a text stands in it at its offset. -/
theorem isIn_of_firstValue? {t : Text} {v : Occurrence} (hv : firstValue? t = some v) :
    v.IsIn t := by
  simp only [firstValue?, Option.map_eq_some_iff, Prod.exists, exists_and_right,
    exists_eq_right] at hv
  obtain ⟨q, hq⟩ := hv
  exact isIn_of_value? (Place.start_liesIn t).skipSpace hq

end DotPath.Json
