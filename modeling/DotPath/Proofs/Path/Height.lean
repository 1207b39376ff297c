import DotPath.Proofs.Evaluator.WellFormed
import DotPath.Proofs.Path.Carried
import DotPath.Proofs.Path.Query

/-!
# How high compiled paths are

A compiled path is a tree, and following it recurses as deep as the tree is high. Each part of a
text that is read as a path of its own takes one of a fixed number of levels, and so does each
condition. This bounds the height as far as it comes from paths and conditions inside one another.

Conditions that are joined take no level, however many there are. They are joined from the left, so
that the tree grows with every term. What the height is bounded by is the number of levels times how
deep the conditions join others, and no number does for all paths.

## Main definitions

* `Path.nesting`, `Path.height`: the height without the joins and with them.
* `Path.joins`: how deep conditions join others.

## Main results

* `height_of_compile`: the bounds for every path that compiles.
* `compile_height_unbounded`: the height itself has none.
-/

namespace DotPath

open Json Place

/-! ## Heights -/

mutual

/--
The height of a path as a tree. Segments and comparisons count one each, and `join` is what a
condition that joins two others counts.
-/
def Path.heightWith (join : Nat) : List Segment → Nat
  | [] => 0
  | s :: rest => max (s.heightWith join) (Path.heightWith join rest)

/-- The height of a segment with the paths and the condition that it carries. -/
def Segment.heightWith (join : Nat) : Segment → Nat
  | .collect each | .descend _ each | .lines each => Path.heightWith join each + 1
  | .query condition _ each => max (condition.heightWith join) (Path.heightWith join each) + 1
  | .select _ entries => Path.entriesHeightWith join entries + 1
  | .field _ | .index _ | .wildcard _ | .length | .literal _ | .transform .. => 1

/-- The height of a condition with the paths that it compares. -/
def Condition.heightWith (join : Nat) : Condition → Nat
  | .holds field | .compare field _ _ => Path.heightWith join field + 1
  | .both left right | .either left right =>
    max (left.heightWith join) (right.heightWith join) + join

/-- The greatest height of a path of a selector. -/
def Path.entriesHeightWith (join : Nat) : List (Text × List Segment) → Nat
  | [] => 0
  | (_, path) :: rest => max (Path.heightWith join path) (Path.entriesHeightWith join rest)

end

/-- How deep a condition joins others, comparisons not counted. -/
def Condition.joins : Condition → Nat
  | .holds _ | .compare .. => 0
  | .both left right | .either left right => max left.joins right.joins + 1

/-- How deep the condition of a segment joins others. -/
def Segment.joins : Segment → Nat
  | .query condition _ _ => condition.joins
  | _ => 0

/-- How deep conditions join others, at most, anywhere in a path. -/
def Path.joins (path : Path) : Nat :=
  ((Path.allSegments path).map Segment.joins).foldr max 0

/-- How deep paths and conditions nest in a path: its height without the joins. -/
def Path.nesting (path : Path) : Nat :=
  Path.heightWith 0 path

/-- The height of a path, with every segment, comparison and join counted. -/
def Path.height (path : Path) : Nat :=
  Path.heightWith 1 path

section Bounds

variable {join n : Nat}

theorem heightWith_le_iff {path : Path} :
    Path.heightWith join path ≤ n ↔ ∀ s ∈ path, s.heightWith join ≤ n := by
  induction path with
  | nil => simp [Path.heightWith]
  | cons s rest ih => rw [Path.heightWith, Nat.max_le, ih, List.forall_mem_cons]

theorem entriesHeightWith_le_iff {entries : List (Text × Path)} :
    Path.entriesHeightWith join entries ≤ n ↔ ∀ e ∈ entries, Path.heightWith join e.2 ≤ n := by
  induction entries with
  | nil => simp [Path.entriesHeightWith]
  | cons e rest ih =>
      obtain ⟨key, path⟩ := e
      rw [Path.entriesHeightWith, Nat.max_le, ih, List.forall_mem_cons]

/-- A segment is one higher than what it carries. -/
theorem Segment.Carries.heightWith_le {s : Segment}
    (h : s.Carries (Path.heightWith join · ≤ n) (·.heightWith join ≤ n)) :
    s.heightWith join ≤ n + 1 := by
  cases s with
  | collect each | descend pattern each | lines each =>
      rw [Segment.heightWith]
      exact Nat.succ_le_succ h
  | query condition all each =>
      rw [Segment.heightWith]
      exact Nat.succ_le_succ (Nat.max_le.2 h)
  | select asArray entries =>
      rw [Segment.heightWith]
      exact Nat.succ_le_succ (entriesHeightWith_le_iff.2 h)
  | field | index | wildcard | length | literal | transform =>
      rw [Segment.heightWith]
      omega

/-- Joins that count nothing leave a condition one higher than what it compares. -/
theorem Condition.Compares.heightWith_zero_le {c : Condition}
    (h : c.Compares (Path.heightWith 0 · ≤ n)) : c.heightWith 0 ≤ n + 1 := by
  match c with
  | .holds field | .compare field operator operand =>
      rw [Condition.heightWith]
      exact Nat.succ_le_succ h
  | .both left right | .either left right =>
      rw [Condition.heightWith]
      exact Nat.max_le.2 ⟨heightWith_zero_le h.1, heightWith_zero_le h.2⟩

end Bounds

/-- What is read within some levels is no higher than that, if joins are not counted. -/
theorem within_heightWith_zero (levels : Nat) :
    (∀ top, Yields (compileWithin levels top) (Path.heightWith 0 · ≤ levels)) ∧
      Yields (conditionWithin levels) (·.heightWith 0 ≤ levels) := by
  induction levels with
  | zero =>
      constructor
      · intro top p path h
        rw [compileWithin] at h
        cases h
      · intro p condition h
        rw [conditionWithin] at h
        cases h
  | succ levels ih =>
      have hnil : Path.heightWith 0 [] ≤ levels := Nat.zero_le levels
      constructor
      · intro top p path h
        rw [compileWithin] at h
        refine heightWith_le_iff.2 fun s hs => ?_
        exact (readPath_carry (ih.1 false) ih.2 hnil h s hs).heightWith_le
      · intro p condition h
        rw [conditionWithin] at h
        exact (readCondition_yields (ih.1 false) h).heightWith_zero_le

/-! ## What joins add -/

section Joins

variable {k : Nat}

theorem Segment.heightWith_pos (join : Nat) (s : Segment) : 0 < s.heightWith join := by
  cases s with
  | collect | descend | lines | query | select => exact Nat.succ_pos _
  | field | index | wildcard | length | literal | transform => exact Nat.one_pos

mutual

/-- Where conditions join at most `k` deep, joins make a path at most `k + 1` times as high. -/
theorem Path.heightWith_one_le : ∀ {path : Path} {n : Nat},
    (∀ s ∈ Path.allSegments path, s.joins ≤ k) → Path.heightWith 0 path ≤ n →
      Path.heightWith 1 path ≤ n * (k + 1)
  | [], n, _, _ => by
      rw [Path.heightWith]
      exact Nat.zero_le _
  | s :: rest, n, hjoins, hn => by
      rw [Path.allSegments, List.forall_mem_cons, List.forall_mem_append] at hjoins
      rw [Path.heightWith, Nat.max_le] at hn
      rw [Path.heightWith, Nat.max_le]
      exact ⟨Segment.heightWith_one_le hjoins.1 hjoins.2.1 hn.1,
        Path.heightWith_one_le hjoins.2.2 hn.2⟩

theorem Segment.heightWith_one_le : ∀ {s : Segment} {n : Nat}, s.joins ≤ k →
    (∀ s' ∈ s.inside, s'.joins ≤ k) → s.heightWith 0 ≤ n → s.heightWith 1 ≤ n * (k + 1)
  | s, 0, _, _, hn => absurd hn (Nat.not_le.2 (s.heightWith_pos 0))
  | .collect each, n + 1, _, hinside, hn | .descend _ each, n + 1, _, hinside, hn
  | .lines each, n + 1, _, hinside, hn => by
      have heach := Path.heightWith_one_le hinside (Nat.le_of_succ_le_succ hn)
      rw [Segment.heightWith, Nat.succ_mul]
      omega
  | .query condition all each, n + 1, hs, hinside, hn => by
      have hparts := Nat.max_le.1 (Nat.le_of_succ_le_succ hn)
      rw [Segment.inside, List.forall_mem_append] at hinside
      have heach := Path.heightWith_one_le hinside.2 hparts.2
      have hcondition := Condition.heightWith_one_le hinside.1 hparts.1
      have hs : condition.joins ≤ k := hs
      rw [Segment.heightWith, Nat.succ_mul]
      omega
  | .select asArray entries, n + 1, _, hinside, hn => by
      have hentries := Path.entriesHeightWith_one_le hinside (Nat.le_of_succ_le_succ hn)
      rw [Segment.heightWith, Nat.succ_mul]
      omega
  | .field _, n + 1, _, _, _ | .index _, n + 1, _, _, _ | .wildcard _, n + 1, _, _, _
  | .length, n + 1, _, _, _ | .literal _, n + 1, _, _, _ | .transform .., n + 1, _, _, _ => by
      rw [Segment.heightWith, Nat.succ_mul]
      omega

/-- The joins of the condition itself come on top of what it compares. -/
theorem Condition.heightWith_one_le : ∀ {c : Condition} {n : Nat},
    (∀ s ∈ c.inside, s.joins ≤ k) → c.heightWith 0 ≤ n →
      c.heightWith 1 + k ≤ n * (k + 1) + c.joins
  | .holds field, 0, _, hn | .compare field _ _, 0, _, hn => absurd hn (Nat.not_succ_le_zero _)
  | .holds field, n + 1, hinside, hn | .compare field _ _, n + 1, hinside, hn => by
      have hfield := Path.heightWith_one_le hinside (Nat.le_of_succ_le_succ hn)
      rw [Condition.heightWith, Condition.joins, Nat.succ_mul]
      omega
  | .both left right, n, hinside, hn | .either left right, n, hinside, hn => by
      rw [Condition.inside, List.forall_mem_append] at hinside
      have hsides := Nat.max_le.1 hn
      have hleft := Condition.heightWith_one_le hinside.1 hsides.1
      have hright := Condition.heightWith_one_le hinside.2 hsides.2
      rw [Condition.heightWith, Condition.joins]
      omega

theorem Path.entriesHeightWith_one_le : ∀ {entries : List (Text × List Segment)} {n : Nat},
    (∀ s ∈ Path.insideEntries entries, s.joins ≤ k) → Path.entriesHeightWith 0 entries ≤ n →
      Path.entriesHeightWith 1 entries ≤ n * (k + 1)
  | [], n, _, _ => by
      rw [Path.entriesHeightWith]
      exact Nat.zero_le _
  | (key, path) :: rest, n, hjoins, hn => by
      rw [Path.insideEntries, List.forall_mem_append] at hjoins
      rw [Path.entriesHeightWith, Nat.max_le] at hn
      rw [Path.entriesHeightWith, Nat.max_le]
      exact ⟨Path.heightWith_one_le hjoins.1 hn.1, Path.entriesHeightWith_one_le hjoins.2 hn.2⟩

end

mutual

/-- What joins the conditions of a path is a part of it. -/
theorem Path.joins_le_of_heightWith_one : ∀ {path : Path} {n : Nat}, Path.heightWith 1 path ≤ n →
    ∀ s ∈ Path.allSegments path, s.joins ≤ n
  | [], _, _ => nofun
  | s :: rest, n, hn => by
      rw [Path.heightWith, Nat.max_le] at hn
      rw [Path.allSegments, List.forall_mem_cons, List.forall_mem_append]
      obtain ⟨hs, hinside⟩ := Segment.joins_le_of_heightWith_one hn.1
      exact ⟨hs, hinside, Path.joins_le_of_heightWith_one hn.2⟩

theorem Segment.joins_le_of_heightWith_one : ∀ {s : Segment} {n : Nat}, s.heightWith 1 ≤ n →
    s.joins ≤ n ∧ ∀ s' ∈ s.inside, s'.joins ≤ n
  | .collect each, n, hn | .descend _ each, n, hn | .lines each, n, hn =>
      ⟨Nat.zero_le n, Path.joins_le_of_heightWith_one (Nat.le_of_succ_le hn)⟩
  | .query condition all each, n, hn => by
      have hparts := Nat.max_le.1 (Nat.le_of_succ_le hn)
      obtain ⟨hjoins, hinside⟩ := Condition.joins_le_of_heightWith_one hparts.1
      rw [Segment.inside, List.forall_mem_append]
      exact ⟨hjoins, hinside, Path.joins_le_of_heightWith_one hparts.2⟩
  | .select asArray entries, n, hn =>
      ⟨Nat.zero_le n, Path.entriesJoins_le_of_heightWith_one (Nat.le_of_succ_le hn)⟩
  | .field _, n, _ | .index _, n, _ | .wildcard _, n, _ | .length, n, _ | .literal _, n, _
  | .transform .., n, _ => ⟨Nat.zero_le n, nofun⟩

theorem Condition.joins_le_of_heightWith_one : ∀ {c : Condition} {n : Nat}, c.heightWith 1 ≤ n →
    c.joins ≤ n ∧ ∀ s ∈ c.inside, s.joins ≤ n
  | .holds field, n, hn | .compare field _ _, n, hn =>
      ⟨Nat.zero_le n, Path.joins_le_of_heightWith_one (Nat.le_of_succ_le hn)⟩
  | .both left right, 0, hn | .either left right, 0, hn => absurd hn (Nat.not_succ_le_zero _)
  | .both left right, n + 1, hn | .either left right, n + 1, hn => by
      have hsides := Nat.max_le.1 (Nat.le_of_succ_le_succ hn)
      obtain ⟨hleft, hinsideLeft⟩ := Condition.joins_le_of_heightWith_one hsides.1
      obtain ⟨hright, hinsideRight⟩ := Condition.joins_le_of_heightWith_one hsides.2
      rw [Condition.inside, List.forall_mem_append]
      exact ⟨Nat.succ_le_succ (Nat.max_le.2 ⟨hleft, hright⟩),
        fun s hs => Nat.le_succ_of_le (hinsideLeft s hs),
        fun s hs => Nat.le_succ_of_le (hinsideRight s hs)⟩

theorem Path.entriesJoins_le_of_heightWith_one : ∀ {entries : List (Text × List Segment)}
    {n : Nat}, Path.entriesHeightWith 1 entries ≤ n →
      ∀ s ∈ Path.insideEntries entries, s.joins ≤ n
  | [], _, _ => nofun
  | (key, path) :: rest, n, hn => by
      rw [Path.entriesHeightWith, Nat.max_le] at hn
      rw [Path.insideEntries, List.forall_mem_append]
      exact ⟨Path.joins_le_of_heightWith_one hn.1, Path.entriesJoins_le_of_heightWith_one hn.2⟩

end

end Joins

theorem joins_le_iff {path : Path} {k : Nat} :
    path.joins ≤ k ↔ ∀ s ∈ Path.allSegments path, s.joins ≤ k := by
  rw [Path.joins]
  induction Path.allSegments path with
  | nil => simp
  | cons s rest ih => rw [List.map_cons, List.foldr_cons, Nat.max_le, ih, List.forall_mem_cons]

/-! ## Paths that compile -/

/--
A path that compiles nests at most one deeper than the bound, if joins are not counted. Its whole
height is bounded by that and by how deep its conditions join others, and it is no less than the
latter.
-/
theorem height_of_compile {t : Text} {path : Path} (h : Path.compile t = .ok path) :
    path.nesting ≤ maxNesting + 1 ∧ path.joins ≤ path.height ∧
      path.height ≤ (maxNesting + 1) * (path.joins + 1) := by
  have hlevels : path.nesting ≤ maxNesting + 1 := by
    rw [Path.compile] at h
    split at h
    · cases h
    · exact (within_heightWith_zero _).1 true h
  refine ⟨hlevels, ?_, ?_⟩
  · exact joins_le_iff.2 (Path.joins_le_of_heightWith_one (Nat.le_refl _))
  · exact Path.heightWith_one_le (joins_le_iff.1 (Nat.le_refl _)) hlevels

theorem height_of_compile_of_query :
    ∃ path, Path.compile "#(a&&b.c||d>x)#.[e]".toList = .ok path ∧
      (path.nesting ≤ maxNesting + 1 ∧ path.joins ≤ path.height ∧
        path.height ≤ (maxNesting + 1) * (path.joins + 1)) ∧
      (path.nesting, path.joins, path.height) = (3, 2, 5) := by
  have h : Path.compile "#(a&&b.c||d>x)#.[e]".toList = .ok [.query (.either
      (.both (.holds [.field ['a']]) (.holds [.field ['b'], .field ['c']]))
      (.compare [.field ['d']] .greater (.text ['x']))) true
      [.select true [(['e'], [.field ['e']])]]] := by
    with_unfolding_all rfl
  exact ⟨_, h, height_of_compile h, by decide⟩

/-! ## Conditions of any length -/

/-- The same term over and over, joined. -/
def conjunction (n : Nat) : Text :=
  'a' :: (List.replicate n ['&', '&', 'a']).flatten

theorem conjunction_eq_joinTerms (n : Nat) :
    conjunction n = Path.joinTerms [List.replicate (n + 1) ['a']] := by
  rw [Path.joinTerms, List.map_singleton, List.intercalate_singleton]
  induction n with
  | zero => rfl
  | succ n ih =>
      rw [List.replicate_succ, List.replicate_succ, List.intercalate_cons_cons,
        ← List.replicate_succ, ← ih]
      simp [conjunction, List.replicate_succ]

/-- The condition joins as many terms as there are. -/
theorem le_joins_foldl_both (c : Condition) (rest : List Condition) :
    c.joins + rest.length ≤ (rest.foldl .both c).joins := by
  induction rest generalizing c with
  | nil => exact Nat.le_refl _
  | cons d rest ih =>
      have hjoins := ih (.both c d)
      rw [Condition.joins] at hjoins
      rw [List.foldl_cons, List.length_cons]
      omega

theorem conjunction_marks (n : Nat) : ∀ terms ∈ [List.replicate (n + 1) ['a']], ∀ t ∈ terms,
    ∀ c ∈ t, c ∉ conditionMarks := by
  intro terms hterms t ht c hc
  rw [List.mem_singleton.1 hterms] at ht
  rw [List.eq_of_mem_replicate ht, List.mem_singleton] at hc
  rw [hc]
  decide

theorem readCondition_conjunction {nested : PathReader} (hn : ReadsPlain nested) (n k : Nat) :
    ∃ c : Condition, readCondition nested ⟨k, conjunction n⟩ = .ok c ∧ n ≤ c.joins := by
  have hterm : ∀ terms ∈ [List.replicate (n + 1) ['a']], ∀ t ∈ terms, ∀ j, k ≤ j →
      readComparison nested ⟨j, t⟩ = .ok (.holds [.field ['a']]) := by
    intro terms hterms t ht j _
    rw [List.mem_singleton.1 hterms] at ht
    obtain ⟨position, hcomparison⟩ := readComparison_escapeComponent hn ['a'] j
    rw [List.eq_of_mem_replicate ht]
    exact hcomparison
  have hread := readCondition_joinTerms (List.cons_ne_nil _ _) (by simp) (conjunction_marks n) hterm
  rw [← conjunction_eq_joinTerms] at hread
  refine ⟨_, hread, ?_⟩
  have hjoins := le_joins_foldl_both (.holds [.field ['a']])
    (List.replicate n (.holds [.field ['a']]))
  rw [List.length_replicate] at hjoins
  have hmap : (List.replicate (n + 1) ['a']).map (fun _ => Condition.holds [.field ['a']]) =
      .holds [.field ['a']] :: List.replicate n (.holds [.field ['a']]) := by
    rw [List.map_replicate, List.replicate_succ]
  rw [List.map_singleton, hmap]
  exact Nat.le_of_add_left_le hjoins

/-- A query with such a condition compiles, however many terms there are. -/
theorem compile_conjunction (n : Nat) :
    ∃ c : Condition, n ≤ c.joins ∧
      Path.compile ('#' :: '(' :: (conjunction n ++ [')'])) = .ok [.query c false []] := by
  obtain ⟨c, hc, hjoins⟩ := readCondition_conjunction (compileWithin_readsPlain 62) n 2
  have hflat : ∀ c ∈ conjunction n, c ∉ groupMarks :=
    conjunction_eq_joinTerms n ▸ joinTerms_flat (conjunction_marks n)
  have hclose := groupEnd_flat (rfl : closingOf? '(' = some ')') hflat 1 []
  have hpart := upTo_append 2 (1 + 1 + Text.byteLength (conjunction n)) (conjunction n) [')']
  have hcondition : conditionWithin maxNesting
      (((Place.mk 0 ('#' :: '(' :: (conjunction n ++ [')']))).skip 1).skip 1 |>.upTo
        ⟨1 + 1 + Text.byteLength (conjunction n), [')']⟩) = .ok c := by
    rw [maxNesting, conditionWithin, ← hc, ← hpart]
    rfl
  have hquery : readComponent (compileWithin maxNesting false) (conditionWithin maxNesting)
      ⟨0, '#' :: '(' :: (conjunction n ++ [')'])⟩ =
        (Except.ok (.query c false [])).map
          (·, ⟨1 + 1 + Text.byteLength (conjunction n) + 1, []⟩) :=
    readQuery_of_group (p := ⟨0, '#' :: '(' :: (conjunction n ++ [')'])⟩) hclose hcondition
  exact ⟨c, hjoins, compile_of_component (by decide) rfl hquery⟩

/-- No bound on the height goes by the bound on nesting alone. -/
theorem compile_height_unbounded :
    ¬ ∃ bound, ∀ t path, Path.compile t = .ok path → path.height ≤ bound := by
  rintro ⟨bound, h⟩
  obtain ⟨c, hjoins, hcompile⟩ := compile_conjunction (bound + 1)
  have hheight := Segment.joins_le_of_heightWith_one (heightWith_le_iff.1 (h _ _ hcompile) _
    List.mem_cons_self)
  have hle : c.joins ≤ bound := hheight.1
  omega

end DotPath
