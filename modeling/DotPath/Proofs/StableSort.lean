import Mathlib.Data.List.Nodup
import DotPath.Sorting

/-!
# Stable sorts

A stable sort puts the elements of a list in an order that no comparison of two of them contradicts,
and leaves those that compare equal as they are. With their positions in the list, this is one
condition: of any two elements the first one precedes the other. Whatever the comparison is, two
elements at different positions precede each other in one direction only, so that elements that go
in a circle have no stable sort, and no elements have two.

Without a circle, insertion finds the order: an element that is put into its place comes later in
the list than all that are sorted already, so that precedence alone decides. A sort that is said to
be stable promises less. It gives the order where the comparison orders the elements wherever they
stand; elsewhere it may leave them in any order, or give nothing.

## Main definitions

* `Precedes`: the comparison of elements with their positions, which decide where they are equal.
* `IsStableSort`: a list is another one, sorted stably.
* `HasCircle`: three elements precede each other in a circle.
* `Orders`, `Sorting.IsStable`: a comparison orders a list, and what a sort promises then.

## Main results

* `exists_isStableSort_iff`, `isStableSort_insertionSort_iff`: what has no circle has a stable sort,
  and insertion finds it.
* `Sorting.isStable_byInsertion`, `Sorting.IsStable.eq_byInsertion`: insertion keeps the promise,
  and gives what any sort gives that does.
* `isStableSort_mergeSort`: merging sorts stably.
* `mergeSort_eq_of_perm`: elements that are told apart have one sort, whatever their order is.
-/

namespace DotPath

section Comparison

variable {α : Type} {cmp : α → α → Ordering} {l sorted : List α} {a b c : α × Nat}

/-- The first of two elements comes first, or they are equal and it stands before the other. -/
def Precedes (cmp : α → α → Ordering) (a b : α × Nat) : Prop :=
  cmp a.1 b.1 = .lt ∨ cmp a.1 b.1 = .eq ∧ a.2 < b.2

instance (a b : α × Nat) : Decidable (Precedes cmp a b) := by
  unfold Precedes
  infer_instance

/--
The elements of `l` in an order that no comparison contradicts; those that compare equal stand in
the order of their positions in `l`.
-/
def IsStableSort (cmp : α → α → Ordering) (l sorted : List α) : Prop :=
  ∃ placed : List (α × Nat), placed.map (·.1) = sorted ∧ placed.Perm l.zipIdx ∧
    (placed.Pairwise fun a b => cmp a.1 b.1 ≠ .gt) ∧
    placed.Pairwise fun a b => cmp a.1 b.1 = .eq → a.2 < b.2

/-- What is sorted stably is ordered by precedence. -/
theorem isStableSort_iff :
    IsStableSort cmp l sorted ↔ ∃ placed : List (α × Nat), placed.map (·.1) = sorted ∧
      placed.Perm l.zipIdx ∧ placed.Pairwise (Precedes cmp) := by
  have iff_precedes : ∀ a b : α × Nat, (cmp a.1 b.1 ≠ .gt ∧ (cmp a.1 b.1 = .eq → a.2 < b.2)) ↔
      Precedes cmp a b := by
    intro a b
    unfold Precedes
    cases cmp a.1 b.1 <;> simp
  simp only [IsStableSort, ← List.pairwise_and_iff, iff_precedes]

theorem IsStableSort.perm (h : IsStableSort cmp l sorted) : sorted.Perm l := by
  obtain ⟨placed, rfl, hperm, -⟩ := h
  have hplaced := hperm.map (·.1)
  rwa [List.zipIdx_map_fst] at hplaced

/-- Elements at the same position are the same. -/
theorem eq_of_position (ha : a ∈ l.zipIdx) (hb : b ∈ l.zipIdx) (h : a.2 = b.2) : a = b := by
  rw [List.mem_zipIdx_iff_getElem?] at ha hb
  rw [h, hb, Option.some.injEq] at ha
  exact Prod.ext ha.symm h

theorem Precedes.isLE (hab : Precedes cmp a b) : (cmp a.1 b.1).isLE := by
  rcases hab with hlt | ⟨heq, -⟩
  · rw [hlt]
    rfl
  · rw [heq]
    rfl

/-- Three elements precede each other in a circle. -/
def HasCircle (cmp : α → α → Ordering) (placed : List (α × Nat)) : Prop :=
  ∃ a ∈ placed, ∃ b ∈ placed, ∃ c ∈ placed,
    Precedes cmp a b ∧ Precedes cmp b c ∧ Precedes cmp c a

instance (placed : List (α × Nat)) : Decidable (HasCircle cmp placed) := by
  unfold HasCircle
  infer_instance

section Oriented

variable [Std.OrientedCmp cmp]

theorem Precedes.asymm (hab : Precedes cmp a b) : ¬ Precedes cmp b a := by
  have hswap : cmp a.1 b.1 = (cmp b.1 a.1).swap := Std.OrientedCmp.eq_swap
  rintro (hba | ⟨hba, hpos⟩)
  · rw [hba] at hswap
    rcases hab with hab | ⟨hab, -⟩ <;> cases hab.symm.trans hswap
  · rw [hba] at hswap
    rcases hab with hab | ⟨-, hpos'⟩
    · cases hab.symm.trans hswap
    · omega

/-- An element precedes by its position if the other one is not greater either. -/
theorem Precedes.position_lt (hab : Precedes cmp a b) (hle : (cmp b.1 a.1).isLE) : a.2 < b.2 := by
  have hswap : cmp b.1 a.1 = (cmp a.1 b.1).swap := Std.OrientedCmp.eq_swap
  rcases hab with hlt | ⟨-, hpos⟩
  · rw [hswap, hlt] at hle
    cases hle
  · exact hpos

/-- Of two elements at different positions one precedes the other. -/
theorem Precedes.or_of_ne (h : a.2 ≠ b.2) : Precedes cmp a b ∨ Precedes cmp b a := by
  have hswap : cmp b.1 a.1 = (cmp a.1 b.1).swap := Std.OrientedCmp.eq_swap
  unfold Precedes
  cases hab : cmp a.1 b.1 with
  | lt => exact .inl (.inl rfl)
  | gt =>
      rw [hab] at hswap
      exact .inr (.inl hswap)
  | eq =>
      rw [hab] at hswap
      rcases Nat.lt_or_gt_of_ne h with hpos | hpos
      · exact .inl (.inr ⟨rfl, hpos⟩)
      · exact .inr (.inr ⟨hswap, hpos⟩)

/-- In a list that is ordered by precedence, what precedes stands at a smaller index. -/
theorem index_lt_of_precedes {placed : List (α × Nat)} (h : placed.Pairwise (Precedes cmp))
    {i j : Nat} {hi : i < placed.length} {hj : j < placed.length}
    (hij : Precedes cmp placed[i] placed[j]) : i < j := by
  rcases Nat.lt_trichotomy i j with hlt | rfl | hgt
  · exact hlt
  · exact absurd hij hij.asymm
  · exact absurd (List.pairwise_iff_getElem.1 h j i hj hi hgt) hij.asymm

/-- Elements that precede each other in a circle have no stable sort. -/
theorem IsStableSort.not_hasCircle (h : IsStableSort cmp l sorted) : ¬ HasCircle cmp l.zipIdx := by
  rintro ⟨a, ha, b, hb, c, hc, hab, hbc, hca⟩
  obtain ⟨placed, -, hperm, hpairwise⟩ := isStableSort_iff.1 h
  obtain ⟨i, hi, rfl⟩ := List.getElem_of_mem (hperm.mem_iff.2 ha)
  obtain ⟨j, hj, rfl⟩ := List.getElem_of_mem (hperm.mem_iff.2 hb)
  obtain ⟨k, hk, rfl⟩ := List.getElem_of_mem (hperm.mem_iff.2 hc)
  have hij := index_lt_of_precedes hpairwise hab
  have hjk := index_lt_of_precedes hpairwise hbc
  have hki := index_lt_of_precedes hpairwise hca
  omega

/-- Elements have at most one stable sort. -/
theorem IsStableSort.unique {sorted' : List α} (h : IsStableSort cmp l sorted)
    (h' : IsStableSort cmp l sorted') : sorted = sorted' := by
  obtain ⟨placed, rfl, hperm, hpairwise⟩ := isStableSort_iff.1 h
  obtain ⟨placed', rfl, hperm', hpairwise'⟩ := isStableSort_iff.1 h'
  rw [List.Perm.eq_of_pairwise (fun a b _ _ hab hba => absurd hba hab.asymm) hpairwise hpairwise'
    (hperm.trans hperm'.symm)]

end Oriented

end Comparison

/-! ## Insertion -/

section Insertion

variable {α : Type} {cmp : α → α → Ordering} {l : List α}

theorem insertDown_perm (a : α) (sorted : List α) :
    (insertDown cmp a sorted).Perm (a :: sorted) := by
  induction sorted with
  | nil => exact .refl _
  | cons b rest ih =>
      rw [insertDown]
      split
      · exact (ih.cons b).trans (.swap _ _ _)
      · exact .refl _

theorem foldl_insertDown_perm (l sorted : List α) :
    (l.foldl (fun sorted a => insertDown cmp a sorted) sorted).Perm (l ++ sorted) := by
  induction l generalizing sorted with
  | nil => exact .refl _
  | cons a rest ih =>
      refine (ih _).trans (((insertDown_perm a sorted).append_left rest).trans ?_)
      exact List.perm_middle

/-- Insertion loses no element and adds none. -/
theorem insertionSort_perm (l : List α) : (insertionSort cmp l).Perm l := by
  refine (List.reverse_perm _).trans ((foldl_insertDown_perm l []).trans ?_)
  rw [List.append_nil]

/-- Precedence is transitive among some elements. -/
def IsTransitive (cmp : α → α → Ordering) (placed : List (α × Nat)) : Prop :=
  ∀ a ∈ placed, ∀ b ∈ placed, ∀ c ∈ placed,
    Precedes cmp a b → Precedes cmp b c → Precedes cmp a c

theorem IsTransitive.mono {placed sorted : List (α × Nat)} (h : IsTransitive cmp placed)
    (hsub : sorted ⊆ placed) : IsTransitive cmp sorted :=
  fun a ha b hb c hc => h a (hsub ha) b (hsub hb) c (hsub hc)

variable [Std.OrientedCmp cmp]

/-- Without a circle, precedence is transitive. -/
theorem isTransitive_of_not_hasCircle (h : ¬ HasCircle cmp l.zipIdx) :
    IsTransitive cmp l.zipIdx := by
  intro a ha b hb c hc hab hbc
  have hne : a.2 ≠ c.2 := by
    intro hpos
    obtain rfl := eq_of_position ha hc hpos
    exact hab.asymm hbc
  exact (Precedes.or_of_ne hne).resolve_right fun hca => h ⟨a, ha, b, hb, c, hc, hab, hbc, hca⟩

/--
An element behind all that are sorted downwards is put where precedence says, if that is transitive.
-/
theorem exists_insertDown {p : α × Nat} {sorted : List (α × Nat)}
    (htrans : IsTransitive cmp (p :: sorted)) (hbehind : ∀ q ∈ sorted, q.2 < p.2)
    (hsorted : sorted.Pairwise fun a b => Precedes cmp b a) :
    ∃ result : List (α × Nat), result.map (·.1) = insertDown cmp p.1 (sorted.map (·.1)) ∧
      result.Perm (p :: sorted) ∧ result.Pairwise fun a b => Precedes cmp b a := by
  induction sorted with
  | nil => exact ⟨[p], rfl, .refl _, List.pairwise_singleton _ _⟩
  | cons q sorted ih =>
      obtain ⟨hq, hrest⟩ := List.pairwise_cons.1 hsorted
      have hpos := hbehind q List.mem_cons_self
      rw [List.map_cons, insertDown]
      by_cases hlt : cmp p.1 q.1 = .lt
      · rw [if_pos (beq_iff_eq.2 hlt)]
        have hsub : p :: sorted ⊆ p :: q :: sorted := by simp
        obtain ⟨result, hmap, hperm, hresult⟩ := ih (htrans.mono hsub)
          (fun r hr => hbehind r (List.mem_cons_of_mem q hr)) hrest
        refine ⟨q :: result, by rw [List.map_cons, hmap], (hperm.cons q).trans (.swap p q sorted),
          hresult.cons fun r hr => ?_⟩
        rcases List.mem_cons.1 (hperm.mem_iff.1 hr) with rfl | hr
        · exact .inl hlt
        · exact hq r hr
      · rw [if_neg (by simpa using hlt)]
        -- The new element is behind in the input, so that a tie is no reason to go on.
        have hqp : Precedes cmp q p := by
          refine (Precedes.or_of_ne (Nat.ne_of_lt hpos)).resolve_right ?_
          rintro (h | ⟨-, h⟩)
          · exact hlt h
          · omega
        refine ⟨p :: q :: sorted, rfl, .refl _, hsorted.cons fun r hr => ?_⟩
        rcases List.mem_cons.1 hr with rfl | hr
        · exact hqp
        · exact htrans r (by simp [hr]) q (by simp) p (by simp) (hq r hr) hqp

/-- Elements that are inserted one after the other end up where precedence says. -/
theorem exists_foldl_insertDown {sorted : List (α × Nat)} {n : Nat}
    (htrans : IsTransitive cmp (sorted ++ l.zipIdx n)) (hbehind : ∀ q ∈ sorted, q.2 < n)
    (hsorted : sorted.Pairwise fun a b => Precedes cmp b a) :
    ∃ result : List (α × Nat), result.map (·.1) =
        l.foldl (fun sorted a => insertDown cmp a sorted) (sorted.map (·.1)) ∧
      result.Perm (sorted ++ l.zipIdx n) ∧ result.Pairwise fun a b => Precedes cmp b a := by
  induction l generalizing sorted n with
  | nil => exact ⟨sorted, rfl, by simp, hsorted⟩
  | cons k l ih =>
      rw [List.zipIdx_cons] at htrans ⊢
      have hsub : (k, n) :: sorted ⊆ sorted ++ (k, n) :: l.zipIdx (n + 1) := by
        simp
      obtain ⟨next, hmap, hperm, hnext⟩ := exists_insertDown (htrans.mono hsub) hbehind hsorted
      have hall : (next ++ l.zipIdx (n + 1)).Perm (sorted ++ (k, n) :: l.zipIdx (n + 1)) :=
        (hperm.append_right _).trans List.perm_middle.symm
      have hnextBehind : ∀ q ∈ next, q.2 < n + 1 := by
        intro q hq
        rcases List.mem_cons.1 (hperm.mem_iff.1 hq) with rfl | hq
        · exact Nat.lt_succ_self n
        · exact Nat.lt_succ_of_lt (hbehind q hq)
      obtain ⟨result, hresult, hresultPerm, hpairwise⟩ :=
        ih (htrans.mono hall.subset) hnextBehind hnext
      refine ⟨result, ?_, hresultPerm.trans hall, hpairwise⟩
      rw [hresult, hmap]
      rfl

/-- Insertion sorts stably what has a stable sort at all. -/
theorem isStableSort_insertionSort_iff :
    IsStableSort cmp l (insertionSort cmp l) ↔ ¬ HasCircle cmp l.zipIdx := by
  refine ⟨IsStableSort.not_hasCircle, fun h => ?_⟩
  have hnone : ∀ q ∈ ([] : List (α × Nat)), q.2 < 0 := fun q hq => by cases hq
  obtain ⟨result, hmap, hperm, hpairwise⟩ :=
    exists_foldl_insertDown (isTransitive_of_not_hasCircle h) hnone .nil
  refine isStableSort_iff.2 ⟨result.reverse, ?_, result.reverse_perm.trans hperm,
    List.pairwise_reverse.2 hpairwise⟩
  rw [List.map_reverse, hmap]
  rfl

/-- Circles are all that keeps elements from being sorted. -/
theorem exists_isStableSort_iff :
    (∃ sorted, IsStableSort cmp l sorted) ↔ ¬ HasCircle cmp l.zipIdx :=
  ⟨fun ⟨_, h⟩ => h.not_hasCircle, fun h => ⟨_, isStableSort_insertionSort_iff.2 h⟩⟩

end Insertion

/-! ## What a sort promises -/

section Promise

variable {α : Type} {cmp : α → α → Ordering} {l : List α}

/-- A comparison orders the elements of a list, up to ties. -/
def Orders (cmp : α → α → Ordering) (l : List α) : Prop :=
  ∀ a ∈ l, ∀ b ∈ l, ∀ c ∈ l, (cmp a b).isLE → (cmp b c).isLE → (cmp a c).isLE

instance : Decidable (Orders cmp l) := by
  unfold Orders
  infer_instance

/--
What a stable sort promises: if it gives anything, then the elements that it was given, and if the
comparison orders these, a stable sort of them.
-/
structure Sorting.IsStable (sort : Sorting α) : Prop where
  perm : ∀ {cmp l sorted}, sort cmp l = some sorted → sorted.Perm l
  sorts : ∀ {cmp} [Std.OrientedCmp cmp] {l}, Orders cmp l →
    ∃ sorted, sort cmp l = some sorted ∧ IsStableSort cmp l sorted

section Oriented

variable [Std.OrientedCmp cmp]

/-- Elements that the comparison orders go in no circle, wherever they stand. -/
theorem Orders.not_hasCircle (h : Orders cmp l) : ¬ HasCircle cmp l.zipIdx := by
  rintro ⟨a, ha, b, hb, c, hc, hab, hbc, hca⟩
  have mem : ∀ {p}, p ∈ l.zipIdx → p.1 ∈ l := List.fst_mem_of_mem_zipIdx
  have hba := h b.1 (mem hb) c.1 (mem hc) a.1 (mem ha) hbc.isLE hca.isLE
  have hcb := h c.1 (mem hc) a.1 (mem ha) b.1 (mem hb) hca.isLE hab.isLE
  have hac := h a.1 (mem ha) b.1 (mem hb) c.1 (mem hc) hab.isLE hbc.isLE
  -- No one of them comes first by the comparison, and so the positions go in a circle.
  have := hab.position_lt hba
  have := hbc.position_lt hcb
  have := hca.position_lt hac
  omega

/-- Elements that the comparison does not order go in a circle at some positions. -/
theorem exists_circle_of_not_orders (h : ¬ Orders cmp l) :
    ∃ a ∈ l, ∃ b ∈ l, ∃ c ∈ l,
      Precedes cmp (a, 0) (b, 1) ∧ Precedes cmp (b, 1) (c, 2) ∧ Precedes cmp (c, 2) (a, 0) := by
  have precedes : ∀ {a b : α} {i j : Nat}, (cmp a b).isLE → i < j →
      Precedes cmp (a, i) (b, j) := by
    intro a b i j hle hpos
    rcases Ordering.isLE_iff_eq_lt_or_eq_eq.1 hle with hlt | heq
    · exact .inl hlt
    · exact .inr ⟨heq, hpos⟩
  unfold Orders at h
  push Not at h
  obtain ⟨a, ha, b, hb, c, hc, hab, hbc, hac⟩ := h
  have hgt : cmp a c = .gt := by simpa using hac
  have hswap : cmp c a = (cmp a c).swap := Std.OrientedCmp.eq_swap
  have hca : cmp c a = .lt := by rw [hswap, hgt]; rfl
  exact ⟨a, ha, b, hb, c, hc, precedes hab Nat.zero_lt_one, precedes hbc Nat.one_lt_two, .inl hca⟩

/-- Where the comparison orders the elements, every stable sort gives what insertion gives. -/
theorem Sorting.IsStable.eq_byInsertion {sort : Sorting α} (hsort : sort.IsStable)
    (h : Orders cmp l) : sort cmp l = Sorting.byInsertion cmp l := by
  obtain ⟨sorted, hsorted, hstable⟩ := hsort.sorts h
  rw [hsorted, hstable.unique (isStableSort_insertionSort_iff.2 h.not_hasCircle)]
  rfl

end Oriented

/-- Insertion is a stable sort. -/
theorem Sorting.isStable_byInsertion : (Sorting.byInsertion : Sorting α).IsStable where
  perm h := by
    cases h
    exact insertionSort_perm _
  sorts h := ⟨_, rfl, isStableSort_insertionSort_iff.2 h.not_hasCircle⟩

end Promise

/-! ## Merging -/

section Merging

variable {α β : Type} {cmp : β → β → Ordering} [Std.TransCmp cmp] {f : α → β} {l l' : List α}

theorem not_gt_trans (a b c : α) (hab : (cmp (f a) (f b) != .gt) = true)
    (hbc : (cmp (f b) (f c) != .gt) = true) : (cmp (f a) (f c) != .gt) = true := by
  rw [bne, ← Ordering.isLE_eq_not_beq_gt] at hab hbc ⊢
  exact Std.TransCmp.isLE_trans hab hbc

theorem not_gt_total (a b : α) :
    ((cmp (f a) (f b) != .gt) || (cmp (f b) (f a) != .gt)) = true := by
  have hswap : cmp (f b) (f a) = (cmp (f a) (f b)).swap := Std.OrientedCmp.eq_swap
  rw [hswap]
  cases cmp (f a) (f b) <;> rfl

/-- The comparison that breaks ties by the position is precedence where positions differ. -/
theorem precedes_of_zipIdxLE {a b : α × Nat}
    (h : List.zipIdxLE (fun a b => cmp (f a) (f b) != .gt) a b = true) (hne : a.2 ≠ b.2) :
    Precedes (fun a b => cmp (f a) (f b)) a b := by
  have hswap : cmp (f b.1) (f a.1) = (cmp (f a.1) (f b.1)).swap := Std.OrientedCmp.eq_swap
  rw [List.zipIdxLE, hswap] at h
  unfold Precedes
  cases hab : cmp (f a.1) (f b.1) with
  | lt => exact .inl hab
  | eq =>
      have hle : a.2 ≤ b.2 := by simpa [hab] using h
      exact .inr ⟨hab, Nat.lt_of_le_of_ne hle hne⟩
  | gt => simp [hab] at h

variable (cmp f)

/-- A sort by merging is stable. -/
theorem isStableSort_mergeSort (l : List α) :
    IsStableSort (fun a b => cmp (f a) (f b)) l
      (l.mergeSort fun a b => cmp (f a) (f b) != .gt) := by
  let le := fun a b : α => cmp (f a) (f b) != .gt
  have htotal : ∀ a b, (le a b || le b a) = true := not_gt_total
  have hperm := List.mergeSort_perm l.zipIdx (List.zipIdxLE le)
  have hsorted := List.pairwise_mergeSort (List.zipIdxLE_trans not_gt_trans)
    (List.zipIdxLE_total htotal) l.zipIdx
  have hpositions : (l.zipIdx.mergeSort (List.zipIdxLE le)).Pairwise fun a b => a.2 ≠ b.2 := by
    rw [← List.pairwise_map, ← List.nodup_iff_pairwise_ne, (hperm.map (·.2)).nodup_iff,
      List.zipIdx_map_snd]
    exact List.nodup_range'
  exact isStableSort_iff.2 ⟨_, List.mergeSort_zipIdx, hperm,
    (hsorted.and hpositions).imp fun h => precedes_of_zipIdxLE h.1 h.2⟩

/-- Elements that are told apart by what they are sorted by have one sort. -/
theorem mergeSort_eq_of_perm [Std.LawfulEqCmp cmp] (h : l.Perm l') (hdistinct : (l.map f).Nodup) :
    (l.mergeSort fun a b => cmp (f a) (f b) != .gt) =
      l'.mergeSort fun a b => cmp (f a) (f b) != .gt := by
  refine List.Perm.eq_of_pairwise ?_ (List.pairwise_mergeSort not_gt_trans not_gt_total l)
    (List.pairwise_mergeSort not_gt_trans not_gt_total l')
    ((List.mergeSort_perm _ _).trans (h.trans (List.mergeSort_perm _ _).symm))
  intro a b ha hb hab hba
  rw [List.mem_mergeSort] at ha hb
  have hswap : cmp (f b) (f a) = (cmp (f a) (f b)).swap := Std.OrientedCmp.eq_swap
  have heq : cmp (f a) (f b) = .eq := by
    rw [hswap] at hba
    revert hab hba
    cases cmp (f a) (f b) <;> simp
  exact List.inj_on_of_nodup_map hdistinct ha (h.mem_iff.2 hb) (Std.LawfulEqCmp.eq_of_compare heq)

end Merging

end DotPath
