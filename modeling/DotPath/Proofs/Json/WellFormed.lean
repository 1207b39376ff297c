import DotPath.Proofs.Json.Extent
import DotPath.Proofs.Json.Token

/-!
# The check for well-formed texts decides the grammar

`Octets.wellFormed limit` works through octets with two loops and a stack of open brackets. The
grammar knows neither: a document is a tree, and it is written in characters. The file proves that
the loops accept exactly the octets of documents whose trees are no higher than the limit.

Each loop is first taken apart into the steps it can make, once as equations on a text that is laid
out token by token, once as inversions of a run that succeeds. Everything after that is induction:
on the tree for completeness, on the length of the text for soundness. The stack enters through one
number only, its height, which together with the height of the tree must fit the limit.

## Main results

* `Tree.expectValue_append`: the loop passes over a value that fits.
* `tree_of_expectValue`: what the loop passes over is a value that fits.
* `wellFormed_iff`: the two together, for whole documents.
-/

namespace DotPath.Json

/-! ## Limits and brackets -/

/-- A height is within a limit, if there is one. -/
def Fits (limit : Option Nat) (n : Nat) : Prop :=
  ∀ d ∈ limit, n ≤ d

theorem Fits.mono {limit : Option Nat} {m n : Nat} (h : Fits limit n) (hmn : m ≤ n) :
    Fits limit m := by
  intro d hd
  exact Nat.le_trans hmn (h d hd)

theorem fits_add_max {limit : Option Nat} {k m n : Nat} :
    Fits limit (k + max m n) ↔ Fits limit (k + m) ∧ Fits limit (k + n) := by
  constructor
  · intro h
    exact ⟨h.mono (by omega), h.mono (by omega)⟩
  · intro h d hd
    have hm := h.1 d hd
    have hn := h.2 d hd
    omega

theorem hasRoom_iff {limit : Option Nat} {height : Nat} :
    hasRoom limit height = true ↔ Fits limit (height + 1) := by
  cases limit with
  | none => simp [hasRoom, Fits]
  | some d =>
      simp only [hasRoom, Fits, Option.all_some, Option.mem_some_iff, forall_eq', decide_eq_true_eq]
      exact Nat.lt_iff_add_one_le

/-- The character that opens a bracket. -/
def Bracket.opening : Bracket → Char
  | .array => '['
  | .object => '\x7b'

theorem Bracket.ofOpening?_opening (b : Bracket) : ofOpening? b.opening = some b := by
  cases b <;> rfl

theorem Bracket.eq_opening_of_ofOpening? {c : Char} {b : Bracket} (h : ofOpening? c = some b) :
    c = b.opening := by
  unfold ofOpening? at h
  split at h
  · next hc =>
      cases h
      exact beq_iff_eq.1 hc
  · split at h
    · next hc =>
        cases h
        exact beq_iff_eq.1 hc
    · cases h

theorem Bracket.isSpace_opening (b : Bracket) : isSpace b.opening = false := by
  cases b <;> rfl

theorem Bracket.isSpace_closing (b : Bracket) : isSpace b.closing = false := by
  cases b <;> rfl

theorem Bracket.closing_ne_comma (b : Bracket) : b.closing ≠ ',' := by
  cases b <;> decide

/-! ## The steps of the two loops -/

section Steps

variable {limit : Option Nat} {stack : List Bracket} {t rest : Text}

/-- A scalar is passed over. -/
theorem expectValue_scalar {kind : Kind} {raw : Text} (h : IsScalar kind raw) (lead : Spaces)
    (hr : Delimited rest) :
    expectValue limit stack (lead.1 ++ (raw.asOctets ++ rest)) = expectNext limit stack rest := by
  have hafter := h.afterScalar?_append hr
  obtain ⟨c, s, hraw, hc, harr, hobj⟩ := h.asOctets.head
  rw [hraw] at hafter ⊢
  have hdrop : (lead.1 ++ (c :: s ++ rest)).dropWhile isSpace = c :: (s ++ rest) :=
    dropWhile_spaces lead (lacks_cons hc)
  have hopen : Bracket.ofOpening? c = none := by
    simp [Bracket.ofOpening?, harr, hobj]
  rw [List.cons_append] at hafter
  rw [expectValue]
  split
  · next h => rw [hdrop] at h; cases h
  · next d u h =>
      rw [hdrop] at h
      cases h
      split
      · next h => rw [hopen] at h; cases h
      · split
        · next h => rw [hafter] at h; cases h
        · next h => rw [hafter] at h; cases h; rfl

/-- An empty container is passed over as a whole, whatever the stack holds. -/
theorem expectValue_empty (b : Bracket) (lead inside : Spaces) :
    expectValue limit stack (lead.1 ++ b.opening :: (inside.1 ++ b.closing :: rest)) =
      expectNext limit stack rest := by
  have hdrop := dropWhile_spaces lead
    (lacks_cons (p := isSpace) (t := inside.1 ++ b.closing :: rest) b.isSpace_opening)
  have hinside := dropWhile_spaces inside (lacks_cons (t := rest) b.isSpace_closing)
  rw [expectValue]
  split
  · next h => rw [hdrop] at h; cases h
  · next c u h =>
      rw [hdrop] at h
      cases h
      split
      · next b' hb =>
          rw [b.ofOpening?_opening] at hb
          cases hb
          split
          · next h => rw [hinside] at h; cases h
          · next d inner h =>
              rw [hinside] at h
              cases h
              rw [if_pos (beq_self_eq_true _)]
      · next h => rw [b.ofOpening?_opening] at h; cases h

/-- A container that is not empty goes onto the stack, where there is room for it. -/
theorem expectValue_open {b : Bracket} {item : Text} (lead inside : Spaces)
    (hroom : Fits limit (stack.length + 1)) (hitem : itemStart? b t = some item)
    (ht : ∃ c s, t = c :: s ∧ isSpace c = false ∧ c ≠ b.closing) :
    expectValue limit stack (lead.1 ++ b.opening :: (inside.1 ++ t)) =
      expectValue limit (b :: stack) item := by
  obtain ⟨c, s, rfl, hspace, hc⟩ := ht
  have hdrop := dropWhile_spaces lead
    (lacks_cons (p := isSpace) (t := inside.1 ++ c :: s) b.isSpace_opening)
  have hinside := dropWhile_spaces inside (lacks_cons (t := s) hspace)
  rw [expectValue]
  split
  · next h => rw [hdrop] at h; cases h
  · next h =>
      rw [hdrop] at h
      cases h
      split
      · next b' hb =>
          rw [b.ofOpening?_opening] at hb
          cases hb
          split
          · next h => rw [hinside] at h; cases h
          · next h =>
              rw [hinside] at h
              cases h
              rw [if_neg (by simpa using hc), if_pos (hasRoom_iff.2 hroom)]
              split
              · next h => rw [hitem] at h; cases h
              · next h => rw [hitem] at h; cases h; rfl
      · next h => rw [b.ofOpening?_opening] at h; cases h

/-- A comma asks for one more item of the innermost container. -/
theorem expectNext_comma {b : Bracket} {item : Text} (gap inside : Spaces)
    (ht : Lacks isSpace t) (hitem : itemStart? b t = some item) :
    expectNext limit (b :: stack) (gap.1 ++ ',' :: (inside.1 ++ t)) =
      expectValue limit (b :: stack) item := by
  have hdrop := dropWhile_spaces gap
    (lacks_cons (p := isSpace) (c := ',') (t := inside.1 ++ t) rfl)
  have hinside := dropWhile_spaces inside ht
  rw [expectNext]
  split
  · next h => rw [hdrop] at h; cases h
  · next h =>
      rw [hdrop] at h
      cases h
      rw [if_pos (beq_self_eq_true _)]
      split
      · next h => rw [hinside, hitem] at h; cases h
      · next h => rw [hinside, hitem] at h; cases h; rfl

/-- A closing bracket takes the innermost container off the stack. -/
theorem expectNext_close (b : Bracket) (gap : Spaces) :
    expectNext limit (b :: stack) (gap.1 ++ b.closing :: rest) = expectNext limit stack rest := by
  have hdrop := dropWhile_spaces gap (lacks_cons (t := rest) b.isSpace_closing)
  rw [expectNext]
  split
  · next h => rw [hdrop] at h; cases h
  · next h =>
      rw [hdrop] at h
      cases h
      rw [if_neg (by simpa using b.closing_ne_comma), if_pos (beq_self_eq_true _)]

/-- A value that is passed over is a scalar, an empty container, or one that goes on. -/
theorem expectValue_cases (h : expectValue limit stack t = true) (hoctets : t.IsOctets) :
    (∃ (lead : Spaces) (kind : Kind) (raw rest : Text), IsScalar kind raw ∧
      t = lead.1 ++ (raw.asOctets ++ rest) ∧ expectNext limit stack rest = true) ∨
    (∃ (b : Bracket) (lead inside : Spaces) (rest : Text),
      t = lead.1 ++ b.opening :: (inside.1 ++ b.closing :: rest) ∧
      expectNext limit stack rest = true) ∨
    (∃ (b : Bracket) (lead inside : Spaces) (u item : Text),
      t = lead.1 ++ b.opening :: (inside.1 ++ u) ∧ Fits limit (stack.length + 1) ∧
      itemStart? b u = some item ∧ expectValue limit (b :: stack) item = true) := by
  obtain ⟨lead, ht, -⟩ := exists_spaces t
  rw [expectValue] at h
  split at h
  · cases h
  · next c u hdrop =>
      rw [hdrop] at ht
      split at h
      · next b hb =>
          obtain rfl := Bracket.eq_opening_of_ofOpening? hb
          obtain ⟨inside, hu, -⟩ := exists_spaces u
          split at h
          · cases h
          · next d inner hdrop' =>
              rw [hdrop'] at hu
              split at h
              · next hd =>
                  rw [beq_iff_eq] at hd
                  subst hd
                  exact .inr (.inl ⟨b, lead, inside, inner, by rw [ht, hu], h⟩)
              · split at h
                · next hroom =>
                    split at h
                    · cases h
                    · next item hitem =>
                        exact .inr (.inr ⟨b, lead, inside, d :: inner, item, by rw [ht, hu],
                          hasRoom_iff.1 hroom, hitem, h⟩)
                · cases h
      · split at h
        · cases h
        · next after hafter =>
            have hrest : Text.IsOctets (c :: u) := by
              intro d hd
              rw [ht] at hoctets
              exact hoctets d (List.mem_append_right _ hd)
            obtain ⟨kind, raw, hraw, heq⟩ := isScalar_of_afterScalar? hafter hrest
            exact .inl ⟨lead, kind, raw, after, hraw, by rw [ht, heq], h⟩

/-- Inside a container, a value is followed by a comma or by the closing bracket. -/
theorem expectNext_cases {b : Bracket} (h : expectNext limit (b :: stack) t = true) :
    (∃ (gap inside : Spaces) (u item : Text), t = gap.1 ++ ',' :: (inside.1 ++ u) ∧
      itemStart? b u = some item ∧ expectValue limit (b :: stack) item = true) ∨
    (∃ (gap : Spaces) (rest : Text), t = gap.1 ++ b.closing :: rest ∧
      expectNext limit stack rest = true) := by
  obtain ⟨gap, ht, -⟩ := exists_spaces t
  rw [expectNext] at h
  split at h
  · cases h
  · next c u hdrop =>
      rw [hdrop] at ht
      split at h
      · next hc =>
          rw [beq_iff_eq] at hc
          subst hc
          obtain ⟨inside, hu, -⟩ := exists_spaces u
          split at h
          · cases h
          · next item hitem => exact .inl ⟨gap, inside, _, item, by rw [ht, ← hu], hitem, h⟩
      · split at h
        · next hc =>
            rw [beq_iff_eq] at hc
            subst hc
            exact .inr ⟨gap, u, ht, h⟩
        · cases h

end Steps

/-! ## Every document is accepted -/

section Complete

variable {limit : Option Nat}

/-! ### Trees in octets -/

@[simp] theorem asOctets_spaces (s : Spaces) : Text.asOctets s.1 = s.1 := by
  refine Text.asOctets_of_ascii fun c hc => ?_
  rcases eq_of_isSpace (s.2 c hc) with rfl | rfl | rfl | rfl <;> decide

theorem Item.asOctets_source (i : Item Tree) :
    (i.source Tree.source).asOctets = i.before.1 ++ (i.value.source.asOctets ++ i.after.1) := by
  simp [source]

theorem Entry.asOctets_source (e : Entry Tree) :
    (e.source Tree.source).asOctets = e.before.1 ++ (e.key.source.asOctets ++
      (e.gap.1 ++ ':' :: (e.item.source Tree.source).asOctets)) := by
  simp [source]

namespace Tree

theorem asOctets_array (first : Item Tree) (rest : List (Item Tree)) :
    (array first rest).source.asOctets =
      '[' :: ((first.source source).asOctets ++ ((itemsSource rest).asOctets ++ [']'])) := by
  simp [source_array]

theorem asOctets_itemsSource_cons (i : Item Tree) (rest : List (Item Tree)) :
    (itemsSource (i :: rest)).asOctets =
      ',' :: ((i.source source).asOctets ++ (itemsSource rest).asOctets) := by
  simp [itemsSource_cons]

theorem asOctets_object (first : Entry Tree) (rest : List (Entry Tree)) :
    (object first rest).source.asOctets = '\x7b' ::
      ((first.source source).asOctets ++ ((entriesSource rest).asOctets ++ ['\x7d'])) := by
  simp [source_object]

theorem asOctets_entriesSource_cons (e : Entry Tree) (rest : List (Entry Tree)) :
    (entriesSource (e :: rest)).asOctets =
      ',' :: ((e.source source).asOctets ++ (entriesSource rest).asOctets) := by
  simp [entriesSource_cons]

end Tree

/-- An empty container is written in ASCII. -/
theorem Bracket.asOctets_empty (b : Bracket) (inside : Spaces) :
    Text.asOctets (b.opening :: (inside.1 ++ [b.closing])) =
      b.opening :: (inside.1 ++ [b.closing]) := by
  cases b <;> simp [opening, closing]

/-- A value starts with an octet that is no space and closes nothing. -/
theorem Tree.asOctets_head (v : Tree) :
    ∃ c s, v.source.asOctets = c :: s ∧ isSpace c = false ∧ isClosing c = false := by
  cases v with
  | scalar kind raw h =>
      obtain ⟨c, s, hraw, hspace, hclosing, -⟩ := h.asOctets.fills.head
      exact ⟨c, s, hraw, hspace, hclosing⟩
  | emptyArray inside => exact ⟨_, _, Bracket.asOctets_empty .array inside, rfl, rfl⟩
  | array first rest => exact ⟨_, _, asOctets_array first rest, rfl, rfl⟩
  | emptyObject inside => exact ⟨_, _, Bracket.asOctets_empty .object inside, rfl, rfl⟩
  | object first rest => exact ⟨_, _, asOctets_object first rest, rfl, rfl⟩

theorem Tree.lacks_space (v : Tree) (rest : Text) : Lacks isSpace (v.source.asOctets ++ rest) := by
  obtain ⟨c, s, hsource, hc, -⟩ := v.asOctets_head
  rw [hsource]
  exact lacks_cons hc

/-! ### Values -/

/-- The loop passes over a value wherever its height fits on top of the stack. -/
def Tree.Passed (limit : Option Nat) (v : Tree) : Prop :=
  ∀ (stack : List Bracket) (lead : Spaces) (rest : Text), Delimited rest →
    Fits limit (stack.length + v.height) →
      expectValue limit stack (lead.1 ++ (v.source.asOctets ++ rest)) =
        expectNext limit stack rest

private theorem delimited_itemsSource (items : List (Item Tree)) (rest : Text) :
    Delimited ((Tree.itemsSource items).asOctets ++ ']' :: rest) := by
  cases items with
  | nil => exact lacks_cons rfl
  | cons i items =>
      rw [Tree.asOctets_itemsSource_cons]
      exact lacks_cons rfl

private theorem delimited_entriesSource (entries : List (Entry Tree)) (rest : Text) :
    Delimited ((Tree.entriesSource entries).asOctets ++ '\x7d' :: rest) := by
  cases entries with
  | nil => exact lacks_cons rfl
  | cons e entries =>
      rw [Tree.asOctets_entriesSource_cons]
      exact lacks_cons rfl

private theorem expectNext_items {stack : List Bracket} {rest : Text} (after : Spaces)
    {items : List (Item Tree)} (hpass : ∀ i ∈ items, i.value.Passed limit)
    (hfit : Fits limit (stack.length + 1 + Tree.itemsHeight items)) :
    expectNext limit (.array :: stack)
        (after.1 ++ ((Tree.itemsSource items).asOctets ++ ']' :: rest)) =
      expectNext limit stack rest := by
  induction items generalizing after with
  | nil => exact expectNext_close .array after
  | cons i items ih =>
      rw [Tree.itemsHeight, fits_add_max] at hfit
      let tail := i.after.1 ++ ((Tree.itemsSource items).asOctets ++ ']' :: rest)
      have hspace : Lacks isSpace (i.value.source.asOctets ++ tail) := i.value.lacks_space tail
      have hvalue := hpass i List.mem_cons_self (.array :: stack) .none tail
        (i.after.delimited (delimited_itemsSource items rest)) hfit.1
      have hnext := ih i.after (fun j hj => hpass j (List.mem_cons_of_mem i hj)) hfit.2
      rw [Tree.asOctets_itemsSource_cons, Item.asOctets_source]
      simp only [List.cons_append, List.append_assoc]
      rw [expectNext_comma (b := .array) after i.before hspace rfl, ← hnext]
      exact hvalue

private theorem expectNext_entries {stack : List Bracket} {rest : Text} (after : Spaces)
    {entries : List (Entry Tree)} (hpass : ∀ e ∈ entries, e.item.value.Passed limit)
    (hfit : Fits limit (stack.length + 1 + Tree.entriesHeight entries)) :
    expectNext limit (.object :: stack)
        (after.1 ++ ((Tree.entriesSource entries).asOctets ++ '\x7d' :: rest)) =
      expectNext limit stack rest := by
  induction entries generalizing after with
  | nil => exact expectNext_close .object after
  | cons e entries ih =>
      rw [Tree.entriesHeight, fits_add_max] at hfit
      let tail := e.item.after.1 ++ ((Tree.entriesSource entries).asOctets ++ '\x7d' :: rest)
      have hkey := afterKey?_append e.key e.gap
        (e.item.before.1 ++ (e.item.value.source.asOctets ++ tail))
      have hspace : Lacks isSpace (e.key.source.asOctets ++ (e.gap.1 ++ ':' ::
          (e.item.before.1 ++ (e.item.value.source.asOctets ++ tail)))) := by
        rw [Key.source, asOctets_quoted]
        exact lacks_cons rfl
      have hvalue := hpass e List.mem_cons_self (.object :: stack) e.item.before tail
        (e.item.after.delimited (delimited_entriesSource entries rest)) hfit.1
      have hnext := ih e.item.after (fun j hj => hpass j (List.mem_cons_of_mem e hj)) hfit.2
      rw [Tree.asOctets_entriesSource_cons, Entry.asOctets_source, Item.asOctets_source]
      simp only [List.cons_append, List.append_assoc]
      rw [expectNext_comma (b := .object) after e.before hspace hkey, ← hnext]
      exact hvalue

/-- A value is passed over, if it fits on top of the stack. -/
theorem Tree.expectValue_append (v : Tree) : v.Passed limit := by
  induction v with
  | scalar kind raw h =>
      intro stack lead rest hr _
      exact expectValue_scalar h lead hr
  | emptyArray inside =>
      intro stack lead rest _ _
      have hsource := Bracket.asOctets_empty .array inside
      rw [Bracket.opening, Bracket.closing] at hsource
      rw [source, hsource, List.cons_append, List.append_assoc]
      exact expectValue_empty .array lead inside
  | emptyObject inside =>
      intro stack lead rest _ _
      have hsource := Bracket.asOctets_empty .object inside
      rw [Bracket.opening, Bracket.closing] at hsource
      rw [source, hsource, List.cons_append, List.append_assoc]
      exact expectValue_empty .object lead inside
  | array first items hfirst hitems =>
      intro stack lead rest _ hfit
      rw [height, Nat.add_comm _ 1, ← Nat.add_assoc, fits_add_max] at hfit
      let tail := first.after.1 ++ ((itemsSource items).asOctets ++ ']' :: rest)
      have hhead : ∃ c s, first.value.source.asOctets ++ tail = c :: s ∧ isSpace c = false ∧
          c ≠ ']' := by
        obtain ⟨c, s, hsource, hc, hclose⟩ := first.value.asOctets_head
        refine ⟨c, s ++ tail, by rw [hsource]; rfl, hc, ?_⟩
        rintro rfl
        cases hclose
      have hroom : Fits limit (stack.length + 1) := hfit.1.mono (Nat.le_add_right _ _)
      have hvalue := hfirst (.array :: stack) .none tail
        (first.after.delimited (delimited_itemsSource items rest)) hfit.1
      rw [asOctets_array, Item.asOctets_source, ← expectNext_items first.after hitems hfit.2]
      simp only [List.cons_append, List.append_assoc]
      exact (expectValue_open (b := .array) lead first.before hroom rfl hhead).trans hvalue
  | object first entries hfirst hentries =>
      intro stack lead rest _ hfit
      rw [height, Nat.add_comm _ 1, ← Nat.add_assoc, fits_add_max] at hfit
      let tail := first.item.after.1 ++ ((entriesSource entries).asOctets ++ '\x7d' :: rest)
      have hkey : itemStart? .object (first.key.source.asOctets ++ (first.gap.1 ++ ':' ::
          (first.item.before.1 ++ (first.item.value.source.asOctets ++ tail)))) =
            some (first.item.before.1 ++ (first.item.value.source.asOctets ++ tail)) :=
        afterKey?_append first.key first.gap _
      have hhead : ∃ c s, first.key.source.asOctets ++ (first.gap.1 ++ ':' ::
          (first.item.before.1 ++ (first.item.value.source.asOctets ++ tail))) = c :: s ∧
            isSpace c = false ∧ c ≠ '\x7d' := by
        rw [Key.source, asOctets_quoted]
        exact ⟨'"', _, rfl, rfl, by decide⟩
      have hroom : Fits limit (stack.length + 1) := hfit.1.mono (Nat.le_add_right _ _)
      have hvalue := hfirst (.object :: stack) first.item.before tail
        (first.item.after.delimited (delimited_entriesSource entries rest)) hfit.1
      rw [asOctets_object, Entry.asOctets_source, Item.asOctets_source,
        ← expectNext_entries first.item.after hentries hfit.2]
      simp only [List.cons_append, List.append_assoc]
      exact (expectValue_open (b := .object) lead first.before hroom hkey hhead).trans hvalue

/-- The octets of a document are accepted, if its value fits the limit. -/
theorem Document.expectValue_asOctets (d : Document) (hfit : Fits limit d.root.height) :
    expectValue limit [] d.source.asOctets = true := by
  have hdelim : Delimited d.after.1 := by
    have := d.after.delimited (lacks_nil extendsNumber)
    rwa [List.append_nil] at this
  have hroot := d.root.expectValue_append [] d.before d.after.1 hdelim
    (by rwa [List.length_nil, Nat.zero_add])
  have hend : expectNext limit [] d.after.1 = true := by
    rw [expectNext]
    exact List.all_eq_true.2 d.after.2
  rw [Document.source, Text.asOctets_append, Text.asOctets_append, asOctets_spaces,
    asOctets_spaces, hroot, hend]

end Complete

/-! ## Only documents are accepted -/

/-- Spaces behind spaces. -/
def Spaces.append (s s' : Spaces) : Spaces :=
  ⟨s.1 ++ s'.1, fun c hc => (List.mem_append.1 hc).elim (s.2 c) (s'.2 c)⟩

section Sound

variable {limit : Option Nat}

private theorem tail_of_eq {t lead v tail : Text} (h : t = lead ++ (v ++ tail))
    (ht : t.IsOctets) : tail.IsOctets ∧ tail.length ≤ t.length := by
  subst h
  constructor
  · intro c hc
    exact ht c (List.mem_append_right _ (List.mem_append_right _ hc))
  · simp only [List.length_append]
    omega

private theorem tail_of_eq_cons {t lead inside u : Text} {c : Char}
    (h : t = lead ++ c :: (inside ++ u)) (ht : t.IsOctets) :
    u.IsOctets ∧ u.length < t.length := by
  have happend : t = (lead ++ [c]) ++ (inside ++ u) := by
    rw [h, List.append_assoc, List.singleton_append]
  refine ⟨(tail_of_eq happend ht).1, ?_⟩
  rw [h]
  simp only [List.length_append, List.length_cons]
  omega

mutual

/-- What the loop takes for a value is one, and it fits on top of the stack. -/
theorem tree_of_expectValue {stack : List Bracket} {t : Text}
    (h : expectValue limit stack t = true) (hoctets : t.IsOctets)
    (hfit : Fits limit stack.length) :
    ∃ (lead : Spaces) (v : Tree) (rest : Text), t = lead.1 ++ (v.source.asOctets ++ rest) ∧
      Fits limit (stack.length + v.height) ∧ expectNext limit stack rest = true := by
  rcases expectValue_cases h hoctets with ⟨lead, kind, raw, rest, hraw, ht, hrest⟩ |
    ⟨b, lead, inside, rest, ht, hrest⟩ | ⟨b, lead, inside, u, item, ht, hroom, hitem, hvalue⟩
  · exact ⟨lead, .scalar kind raw hraw, rest, ht, hfit, hrest⟩
  · have hsource := b.asOctets_empty inside
    cases b with
    | array =>
        refine ⟨lead, .emptyArray inside, rest, ?_, hfit, hrest⟩
        rw [Bracket.opening, Bracket.closing] at hsource
        simp [ht, Tree.source, hsource, Bracket.opening, Bracket.closing]
    | object =>
        refine ⟨lead, .emptyObject inside, rest, ?_, hfit, hrest⟩
        rw [Bracket.opening, Bracket.closing] at hsource
        simp [ht, Tree.source, hsource, Bracket.opening, Bracket.closing]
  · obtain ⟨huoctets, hu⟩ := tail_of_eq_cons ht hoctets
    cases b with
    | array =>
        cases hitem
        obtain ⟨before, v, tail, hu', hv, htail⟩ := tree_of_expectValue hvalue huoctets hroom
        obtain ⟨htoctets, _⟩ := tail_of_eq hu' huoctets
        obtain ⟨after, items, rest, rfl, hitems, hrest⟩ :=
          items_of_expectNext htail htoctets hroom
        refine ⟨lead, .array ⟨inside.append before, v, after⟩ items, rest, ?_, ?_, hrest⟩
        · simp [ht, hu', Tree.asOctets_array, Item.asOctets_source, Spaces.append, Bracket.opening]
        · rw [Tree.height, Nat.add_comm _ 1, ← Nat.add_assoc, fits_add_max]
          exact ⟨hv, hitems⟩
    | object =>
        obtain ⟨key, gap, hu'⟩ := exists_key_of_afterKey? hitem huoctets
        have : item.length ≤ u.length := length_of_itemStart? hitem
        have hioctets : item.IsOctets := fun c hc =>
          (tail_of_eq hu' huoctets).1 c (List.mem_cons_of_mem _ hc)
        obtain ⟨before, v, tail, hitem', hv, htail⟩ := tree_of_expectValue hvalue hioctets hroom
        obtain ⟨htoctets, _⟩ := tail_of_eq hitem' hioctets
        obtain ⟨after, entries, rest, rfl, hentries, hrest⟩ :=
          entries_of_expectNext htail htoctets hroom
        refine ⟨lead, .object ⟨inside, key, gap, ⟨before, v, after⟩⟩ entries, rest, ?_, ?_, hrest⟩
        · simp [ht, hu', hitem', Tree.asOctets_object, Entry.asOctets_source, Item.asOctets_source,
            Bracket.opening]
        · rw [Tree.height, Nat.add_comm _ 1, ← Nat.add_assoc, fits_add_max]
          exact ⟨hv, hentries⟩
termination_by t.length
decreasing_by
  all_goals omega

/-- What follows a value of an array: more items, and the closing bracket. -/
theorem items_of_expectNext {stack : List Bracket} {t : Text}
    (h : expectNext limit (.array :: stack) t = true) (hoctets : t.IsOctets)
    (hfit : Fits limit (stack.length + 1)) :
    ∃ (after : Spaces) (items : List (Item Tree)) (rest : Text),
      t = after.1 ++ ((Tree.itemsSource items).asOctets ++ ']' :: rest) ∧
      Fits limit (stack.length + 1 + Tree.itemsHeight items) ∧
      expectNext limit stack rest = true := by
  rcases expectNext_cases h with ⟨gap, inside, u, item, ht, hitem, hvalue⟩ | ⟨gap, rest, ht, hrest⟩
  · obtain ⟨huoctets, hu⟩ := tail_of_eq_cons ht hoctets
    cases hitem
    obtain ⟨before, v, tail, hu', hv, htail⟩ := tree_of_expectValue hvalue huoctets hfit
    obtain ⟨htoctets, _⟩ := tail_of_eq hu' huoctets
    obtain ⟨after, items, rest, rfl, hitems, hrest⟩ := items_of_expectNext htail htoctets hfit
    refine ⟨gap, ⟨inside.append before, v, after⟩ :: items, rest, ?_, ?_, hrest⟩
    · simp [ht, hu', Tree.asOctets_itemsSource_cons, Item.asOctets_source, Spaces.append]
    · rw [Tree.itemsHeight, fits_add_max]
      exact ⟨hv, hitems⟩
  · exact ⟨gap, [], rest, ht, hfit, hrest⟩
termination_by t.length
decreasing_by
  all_goals omega

/-- What follows a value of an object: more members, and the closing bracket. -/
theorem entries_of_expectNext {stack : List Bracket} {t : Text}
    (h : expectNext limit (.object :: stack) t = true) (hoctets : t.IsOctets)
    (hfit : Fits limit (stack.length + 1)) :
    ∃ (after : Spaces) (entries : List (Entry Tree)) (rest : Text),
      t = after.1 ++ ((Tree.entriesSource entries).asOctets ++ '\x7d' :: rest) ∧
      Fits limit (stack.length + 1 + Tree.entriesHeight entries) ∧
      expectNext limit stack rest = true := by
  rcases expectNext_cases h with ⟨gap, inside, u, item, ht, hitem, hvalue⟩ | ⟨gap, rest, ht, hrest⟩
  · obtain ⟨huoctets, hu⟩ := tail_of_eq_cons ht hoctets
    obtain ⟨key, colon, hu'⟩ := exists_key_of_afterKey? hitem huoctets
    have : item.length ≤ u.length := length_of_itemStart? hitem
    have hioctets : item.IsOctets := fun c hc =>
      (tail_of_eq hu' huoctets).1 c (List.mem_cons_of_mem _ hc)
    obtain ⟨before, v, tail, hitem', hv, htail⟩ := tree_of_expectValue hvalue hioctets hfit
    obtain ⟨htoctets, _⟩ := tail_of_eq hitem' hioctets
    obtain ⟨after, entries, rest, rfl, hentries, hrest⟩ :=
      entries_of_expectNext htail htoctets hfit
    refine ⟨gap, ⟨inside, key, colon, ⟨before, v, after⟩⟩ :: entries, rest, ?_, ?_, hrest⟩
    · simp [ht, hu', hitem', Tree.asOctets_entriesSource_cons, Entry.asOctets_source,
        Item.asOctets_source]
    · rw [Tree.entriesHeight, fits_add_max]
      exact ⟨hv, hentries⟩
  · exact ⟨gap, [], rest, ht, hfit, hrest⟩
termination_by t.length
decreasing_by
  all_goals omega

end

/-- Octets are accepted exactly when they are those of a document that fits the limit. -/
theorem expectValue_iff {t : Text} (hoctets : t.IsOctets) :
    expectValue limit [] t = true ↔
      ∃ d : Document, d.source.asOctets = t ∧ Fits limit d.root.height := by
  constructor
  · intro h
    have hzero : Fits limit 0 := fun _ _ => Nat.zero_le _
    obtain ⟨before, root, rest, rfl, hfit, hrest⟩ := tree_of_expectValue h hoctets hzero
    rw [expectNext, List.all_eq_true] at hrest
    refine ⟨⟨before, root, ⟨rest, hrest⟩⟩, ?_, ?_⟩
    · rw [Document.source, Text.asOctets_append, Text.asOctets_append, asOctets_spaces]
      rw [asOctets_spaces ⟨rest, hrest⟩]
    · rwa [List.length_nil, Nat.zero_add] at hfit
  · rintro ⟨d, rfl, hfit⟩
    exact d.expectValue_asOctets hfit

/-- A text is accepted exactly when it is written as a document that fits the limit. -/
theorem wellFormed_iff {t : Text} :
    wellFormed limit t = true ↔ ∃ d : Document, d.source = t ∧ Fits limit d.root.height := by
  rw [wellFormed, Octets.wellFormed, expectValue_iff (Text.isOctets_ofOctets _)]
  constructor
  · rintro ⟨d, hd, hfit⟩
    exact ⟨d, Text.asOctets_injective hd, hfit⟩
  · rintro ⟨d, rfl, hfit⟩
    exact ⟨d, rfl, hfit⟩

end Sound

end DotPath.Json
