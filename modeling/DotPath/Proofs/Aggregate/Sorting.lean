import Mathlib.Data.Int.Order.Basic
import Mathlib.Order.Lattice
import DotPath.Aggregate
import DotPath.Proofs.StableSort
import DotPath.Proofs.Text.Order

/-!
# Sorting by a field

Two keys with numbers are compared by these, and any other two by their texts. Either comparison on
its own is linear up to ties, but the two together need not be: of two numbers and a key without
one, the numbers can go one way by their values while their texts, with the third text between them,
go the other way. The comparison orders the keys exactly if none of them clash like this.

The sort is any one that is stable. It promises an order where the comparison orders the keys, and
so the elements are sorted unless some clash. What clashes can still have an order, if keys that
compare equal stand in the right places, but the sort need not find it. Where three elements precede
each other in a circle, by the keys and among equal keys by the position, there is none to be found.

## Main definitions

* `Clash`, `HasClash`: two numbers and a key without one that the comparison takes in a circle.

## Main results

* `clash_of_circle`: every circle is a clash.
* `orders_iff_not_hasClash`: the comparison orders keys that do not clash.
* `sortBy_sorts`: what every stable sort gives, and where it can give nothing that is sorted.
* `sortBy_eq_byInsertion`: elements that do not clash are sorted in one way only.
-/

namespace DotPath.Aggregate

/-! ## Comparisons of keys -/

/-- Without two numbers, the texts are compared. -/
theorem compareKeys_of_text {k l : SortKey} (h : k.number = none ∨ l.number = none) :
    compareKeys k l = Text.order k.text l.text := by
  unfold compareKeys
  split
  · next hk hl => simp [hk, hl] at h
  · rfl

instance : Std.OrientedCmp compareKeys where
  eq_swap {k l} := by
    by_cases htext : k.number = none ∨ l.number = none
    · rw [compareKeys_of_text htext, compareKeys_of_text htext.symm]
      exact Std.OrientedCmp.eq_swap
    · push Not at htext
      obtain ⟨x, hx⟩ := Option.ne_none_iff_exists'.1 htext.1
      obtain ⟨y, hy⟩ := Option.ne_none_iff_exists'.1 htext.2
      have hnan : (Binary64.isNaN y || Binary64.isNaN x) =
          (Binary64.isNaN x || Binary64.isNaN y) :=
        Bool.or_comm _ _
      have hrank : compare (Binary64.rank x) (Binary64.rank y) =
          (compare (Binary64.rank y) (Binary64.rank x)).swap :=
        Std.OrientedCmp.eq_swap
      simp only [compareKeys, hx, hy, Binary64.compare?, hnan]
      split
      · rfl
      · exact hrank

instance : Std.OrientedCmp byKey where
  eq_swap {a b} := by
    rw [byKey, byKey]
    exact Std.OrientedCmp.eq_swap

/-! ## Clashes -/

/--
Two keys with numbers and one without, none of which is greater than the next in a circle. They are
not all equal.
-/
structure Clash (a b c : SortKey) : Prop where
  isNumber : a.number.isSome ∧ b.number.isSome
  isText : c.number = none
  circle : (compareKeys a b).isLE ∧ (compareKeys b c).isLE ∧ (compareKeys c a).isLE
  isStrict : ¬ (compareKeys a b = .eq ∧ compareKeys b c = .eq ∧ compareKeys c a = .eq)

section Circle

variable {a b c : (SortKey × Selection) × Nat}

/-- Two keys compare as their images in a linear order. -/
def ComparesBy {α : Type} [LinearOrder α] (f : SortKey → α) (k l : SortKey) : Prop :=
  (compareKeys k l = .lt ↔ f k < f l) ∧ (compareKeys k l = .eq ↔ f k = f l)

theorem ComparesBy.le {α : Type} [LinearOrder α] {f : SortKey → α}
    (hf : ComparesBy f a.1.1 b.1.1) (h : Precedes byKey a b) :
    f a.1.1 ≤ f b.1.1 ∧ (f a.1.1 = f b.1.1 → a.2 < b.2) := by
  rw [Precedes, byKey, hf.1, hf.2] at h
  rcases h with hlt | ⟨heq, hpos⟩
  · exact ⟨le_of_lt hlt, fun heq => absurd heq (ne_of_lt hlt)⟩
  · exact ⟨le_of_eq heq, fun _ => hpos⟩

/-- Keys that all compare as their images in a linear order go in no circle. -/
theorem not_circle {α : Type} [LinearOrder α] {f : SortKey → α}
    (hab : ComparesBy f a.1.1 b.1.1) (hbc : ComparesBy f b.1.1 c.1.1)
    (hca : ComparesBy f c.1.1 a.1.1) :
    ¬ (Precedes byKey a b ∧ Precedes byKey b c ∧ Precedes byKey c a) := by
  rintro ⟨h₁, h₂, h₃⟩
  obtain ⟨hle₁, hpos₁⟩ := hab.le h₁
  obtain ⟨hle₂, hpos₂⟩ := hbc.le h₂
  obtain ⟨hle₃, hpos₃⟩ := hca.le h₃
  -- The images are all the same, so that the positions would have to go in a circle.
  have := hpos₁ (le_antisymm hle₁ (hle₂.trans hle₃))
  have := hpos₂ (le_antisymm hle₂ (hle₃.trans hle₁))
  have := hpos₃ (le_antisymm hle₃ (hle₁.trans hle₂))
  omega

theorem comparesBy_text {k l : SortKey} (h : k.number = none ∨ l.number = none) :
    ComparesBy SortKey.text k l := by
  rw [ComparesBy, compareKeys_of_text h]
  exact ⟨Text.order_eq_lt_iff, Text.order_eq_eq_iff⟩

/-- The number of a key, if it has one, is finite. -/
def IsFiniteKey (k : SortKey) : Prop :=
  ∀ x ∈ k.number, Binary64.isFinite x = true

theorem isFiniteKey_sortKey (s : Selection) : IsFiniteKey (sortKey s) :=
  fun _ hx => (Option.mem_filter_iff.1 hx).2

/-- Where a key stands among the keys with numbers. -/
def rankOf (k : SortKey) : Int :=
  k.number.elim 0 Binary64.rank

theorem comparesBy_rank {k l : SortKey} (hk : IsFiniteKey k) (hl : IsFiniteKey l)
    (hknum : k.number.isSome) (hlnum : l.number.isSome) : ComparesBy rankOf k l := by
  obtain ⟨x, hx⟩ := Option.isSome_iff_exists.1 hknum
  obtain ⟨y, hy⟩ := Option.isSome_iff_exists.1 hlnum
  have notNaN : ∀ {z : Float}, Binary64.isFinite z = true → Binary64.isNaN z = false := by
    intro z hz
    rw [Binary64.isFinite, decide_eq_true_eq] at hz
    rw [Binary64.isNaN, decide_eq_false_iff_not]
    omega
  have hcompare : compareKeys k l = compare (rankOf k) (rankOf l) := by
    rw [compareKeys, hx, hy]
    simp [Binary64.compare?, notNaN (hk x hx), notNaN (hl y hy), rankOf, hx, hy]
  rw [ComparesBy, hcompare]
  exact ⟨compare_lt_iff_lt, compare_eq_iff_eq⟩

/-- Two numbers that stand in a circle next to each other are the only ones in it. -/
theorem clash_of_isSome (ha : IsFiniteKey a.1.1) (hb : IsFiniteKey b.1.1) (hc : IsFiniteKey c.1.1)
    (hnumbers : a.1.1.number.isSome ∧ b.1.1.number.isSome)
    (h : Precedes byKey a b ∧ Precedes byKey b c ∧ Precedes byKey c a) :
    Clash a.1.1 b.1.1 c.1.1 := by
  refine ⟨hnumbers, ?_, ⟨h.1.isLE, h.2.1.isLE, h.2.2.isLE⟩, ?_⟩
  · by_contra hnone
    have hcnumber : c.1.1.number.isSome := Option.isSome_iff_ne_none.2 hnone
    exact not_circle (comparesBy_rank ha hb hnumbers.1 hnumbers.2)
      (comparesBy_rank hb hc hnumbers.2 hcnumber) (comparesBy_rank hc ha hcnumber hnumbers.1) h
  · rintro ⟨hab, hbc, hca⟩
    have position : ∀ {p q : (SortKey × Selection) × Nat}, Precedes byKey p q →
        compareKeys p.1.1 q.1.1 = .eq → p.2 < q.2 := by
      rintro p q (hlt | ⟨-, hpos⟩) heq
      · cases hlt.symm.trans heq
      · exact hpos
    have := position h.1 hab
    have := position h.2.1 hbc
    have := position h.2.2 hca
    omega

/-- Every circle is a clash: texts alone are in a linear order, and so are numbers alone. -/
theorem clash_of_circle (ha : IsFiniteKey a.1.1) (hb : IsFiniteKey b.1.1) (hc : IsFiniteKey c.1.1)
    (h : Precedes byKey a b ∧ Precedes byKey b c ∧ Precedes byKey c a) :
    Clash a.1.1 b.1.1 c.1.1 ∨ Clash b.1.1 c.1.1 a.1.1 ∨ Clash c.1.1 a.1.1 b.1.1 := by
  have hbca : Precedes byKey b c ∧ Precedes byKey c a ∧ Precedes byKey a b := ⟨h.2.1, h.2.2, h.1⟩
  have hcab : Precedes byKey c a ∧ Precedes byKey a b ∧ Precedes byKey b c := ⟨h.2.2, h.1, h.2.1⟩
  have one : ∀ {k l : SortKey}, ¬ (k.number.isSome ∧ l.number.isSome) →
      k.number = none ∨ l.number = none := by
    intro k l hkl
    simpa [or_iff_not_imp_left, ← Option.isSome_iff_ne_none] using hkl
  by_cases hab : a.1.1.number.isSome ∧ b.1.1.number.isSome
  · exact .inl (clash_of_isSome ha hb hc hab h)
  · by_cases hbc : b.1.1.number.isSome ∧ c.1.1.number.isSome
    · exact .inr (.inl (clash_of_isSome hb hc ha hbc hbca))
    · by_cases hca : c.1.1.number.isSome ∧ a.1.1.number.isSome
      · exact .inr (.inr (clash_of_isSome hc ha hb hca hcab))
      · exact absurd h (not_circle (comparesBy_text (one hab)) (comparesBy_text (one hbc))
          (comparesBy_text (one hca)))

end Circle

/-- Some of the elements have keys that clash. -/
def HasClash (keyed : List (SortKey × Selection)) : Prop :=
  ∃ a ∈ keyed, ∃ b ∈ keyed, ∃ c ∈ keyed, Clash a.1 b.1 c.1

/-- The comparison orders the elements exactly if no keys clash. -/
theorem orders_iff_not_hasClash {keyed : List (SortKey × Selection)}
    (hfinite : ∀ k ∈ keyed, IsFiniteKey k.1) : Orders byKey keyed ↔ ¬ HasClash keyed := by
  constructor
  · rintro h ⟨a, ha, b, hb, c, hc, hclash⟩
    obtain ⟨hab, hbc, hca⟩ := hclash.circle
    have eq_of : ∀ {k l : SortKey}, (compareKeys k l).isLE → (compareKeys l k).isLE →
        compareKeys k l = .eq :=
      fun hkl hlk => Std.OrientedCmp.isLE_antisymm hkl hlk
    exact hclash.isStrict ⟨eq_of hab (h b hb c hc a ha hbc hca),
      eq_of hbc (h c hc a ha b hb hca hab), eq_of hca (h a ha b hb c hc hab hbc)⟩
  · intro h
    by_contra hnot
    obtain ⟨a, ha, b, hb, c, hc, hcircle⟩ := exists_circle_of_not_orders hnot
    rcases clash_of_circle (hfinite a ha) (hfinite b hb) (hfinite c hc) hcircle with
      hclash | hclash | hclash
    · exact h ⟨a, ha, b, hb, c, hc, hclash⟩
    · exact h ⟨b, hb, c, hc, a, ha, hclash⟩
    · exact h ⟨c, hc, a, ha, b, hb, hclash⟩

/-! ## The sort -/

section Results

variable {sort : Sorting (SortKey × Selection)}

theorem isFiniteKey_of_mem_keyed {env : Environment} {json path field : Text}
    {k : SortKey × Selection} (hk : k ∈ keyed env json path field) : IsFiniteKey k.1 := by
  obtain ⟨e, -, rfl⟩ := List.mem_map.1 hk
  exact isFiniteKey_sortKey _

theorem map_snd_keyed (env : Environment) (json path field : Text) :
    (keyed env json path field).map (·.2) = elements env json path := by
  rw [keyed, List.map_map]
  exact List.map_id _

/--
Whatever a stable sort gives is a permutation of the elements. Unless keys clash it gives them
sorted by the keys, with elements of equal keys in their order. Such an order exists exactly if no
three elements precede each other in a circle.
-/
theorem sortBy_sorts (hsort : sort.IsStable) (env : Environment) (json path field : Text) :
    (∀ result, sortBy sort env json path field = some result →
        result.Perm (elements env json path)) ∧
      (¬ HasClash (keyed env json path field) →
        ∃ sorted, IsStableSort byKey (keyed env json path field) sorted ∧
          sortBy sort env json path field = some (sorted.map (·.2))) ∧
      ((∃ sorted, IsStableSort byKey (keyed env json path field) sorted) ↔
        ¬ HasCircle byKey (keyed env json path field).zipIdx) := by
  refine ⟨?_, ?_, exists_isStableSort_iff⟩
  · intro result hresult
    obtain ⟨sorted, hsorted, rfl⟩ := Option.map_eq_some_iff.1 hresult
    rw [← map_snd_keyed env json path field]
    exact (hsort.perm hsorted).map _
  · intro h
    obtain ⟨sorted, hsorted, hstable⟩ := hsort.sorts
      ((orders_iff_not_hasClash fun _ => isFiniteKey_of_mem_keyed).2 h)
    exact ⟨sorted, hstable, by rw [sortBy, hsorted]; rfl⟩

/-- Records with a number, a text or nothing under a name. -/
def records : Text :=
  ("\x7b\"d\":[\x7b\"n\":10\x7d,\x7b\"n\":\"b\"\x7d,\x7b\"n\":9\x7d," ++
    "\x7b\x7d,\x7b\"n\":1e1\x7d]\x7d").toList

theorem sortBy_sorts_records :
    (Sorting.byInsertion : Sorting (SortKey × Selection)).IsStable ∧
      ¬ HasClash (keyed .initial records "d".toList "n".toList) ∧
      (sortBy .byInsertion .initial records "d".toList "n".toList).map (·.map (·.raw)) =
        some ["\x7b\x7d".toList, "\x7b\"n\":9\x7d".toList, "\x7b\"n\":10\x7d".toList,
          "\x7b\"n\":1e1\x7d".toList, "\x7b\"n\":\"b\"\x7d".toList] ∧
      ∃ sorted, IsStableSort byKey (keyed .initial records "d".toList "n".toList) sorted ∧
        sortBy .byInsertion .initial records "d".toList "n".toList = some (sorted.map (·.2)) := by
  have hclash : ¬ HasClash (keyed .initial records "d".toList "n".toList) :=
    (orders_iff_not_hasClash fun _ => isFiniteKey_of_mem_keyed).1 (by decide +kernel)
  exact ⟨Sorting.isStable_byInsertion, hclash, by decide +kernel,
    (sortBy_sorts Sorting.isStable_byInsertion .initial records _ _).2.1 hclash⟩

/-- Elements that do not clash are sorted as by insertion. -/
theorem sortBy_eq_byInsertion (hsort : sort.IsStable) {env : Environment} {json path field : Text}
    (h : ¬ HasClash (keyed env json path field)) :
    sortBy sort env json path field = sortBy .byInsertion env json path field := by
  rw [sortBy, hsort.eq_byInsertion
    ((orders_iff_not_hasClash fun _ => isFiniteKey_of_mem_keyed).2 h)]
  rfl

end Results

/-- Two numbers, and between their texts a text that writes none. -/
def clashing : Text :=
  "[10,\"1a\",9]".toList

/-- By its value 9 comes before 10, but it is left behind it; and no sort can give a right order. -/
theorem sortBy_leaves_clash :
    Json.wellFormed none clashing = true ∧
      (sortBy .byInsertion .initial clashing [] []).map (·.map (·.raw)) =
        some ["10".toList, "\"1a\"".toList, "9".toList] ∧
      ((keyed .initial clashing [] []).map fun k => (keyed .initial clashing [] []).map (byKey k)) =
        [[.eq, .lt, .gt], [.gt, .eq, .lt], [.lt, .gt, .eq]] ∧
      ¬ ∃ sorted, IsStableSort byKey (keyed .initial clashing [] []) sorted := by
  refine ⟨by decide +kernel, by decide +kernel, by decide +kernel, ?_⟩
  rw [exists_isStableSort_iff, not_not]
  decide +kernel

end DotPath.Aggregate
