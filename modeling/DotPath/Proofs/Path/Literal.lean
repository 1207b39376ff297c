import DotPath.Proofs.Json.Lenient
import DotPath.Proofs.Path.Height

/-!
# Values given in paths

The exclamation mark takes a value that the path itself gives. Where the value ends is found by the
scan for extents, and what it takes is not looked at any closer. So the values in compiled paths,
at every level, are those of the lenient grammar, and anything else behind an exclamation mark is
rejected. They are all of those: zeros in front of a number, strings with unknown escapes and
containers that hold no values get into a path as they are.

## Main results

* `compile_forall`: what holds of all that is read holds in a compiled path, at every level.
* `literals_loose`: the values in compiled paths, and which of them are well-formed.
-/

namespace DotPath

open Json Place

/-! ## Segments at every level -/

section Levels

variable {R : Segment → Prop}

theorem forall_allSegments {path : Path} (h : ∀ s ∈ path, R s ∧ ∀ u ∈ s.inside, R u) :
    ∀ u ∈ Path.allSegments path, R u := by
  induction path with
  | nil => exact List.forall_mem_nil R
  | cons s rest ih =>
      obtain ⟨⟨hs, hinside⟩, hrest⟩ := List.forall_mem_cons.1 h
      rw [Path.allSegments]
      exact List.forall_mem_cons.2 ⟨hs, List.forall_mem_append.2 ⟨hinside, ih hrest⟩⟩

theorem forall_insideEntries {entries : List (Text × Path)}
    (h : ∀ e ∈ entries, ∀ u ∈ Path.allSegments e.2, R u) :
    ∀ u ∈ Path.insideEntries entries, R u := by
  induction entries with
  | nil => exact List.forall_mem_nil R
  | cons e rest ih =>
      obtain ⟨he, hrest⟩ := List.forall_mem_cons.1 h
      obtain ⟨key, path⟩ := e
      rw [Path.insideEntries]
      exact List.forall_mem_append.2 ⟨he, ih hrest⟩

/-- What a segment carries, level by level. -/
theorem Segment.Carries.forall_inside {s : Segment}
    (h : s.Carries (∀ u ∈ Path.allSegments ·, R u) (∀ u ∈ ·.inside, R u)) :
    ∀ u ∈ s.inside, R u := by
  cases s with
  | collect each | descend pattern each | lines each => exact h
  | query condition all each => exact List.forall_mem_append.2 h
  | select asArray entries => exact forall_insideEntries h
  | field | index | wildcard | length | literal | transform => exact List.forall_mem_nil R

theorem Condition.Compares.forall_inside {c : Condition}
    (h : c.Compares (∀ u ∈ Path.allSegments ·, R u)) : ∀ u ∈ c.inside, R u := by
  match c with
  | .holds field | .compare field operator operand => exact h
  | .both left right | .either left right =>
      exact List.forall_mem_append.2 ⟨forall_inside h.1, forall_inside h.2⟩

variable (hR : ∀ nested condition, ReadsOnly nested condition R)

include hR

theorem within_forall (levels : Nat) :
    (∀ top, Yields (compileWithin levels top) (∀ u ∈ Path.allSegments ·, R u)) ∧
      Yields (conditionWithin levels) (∀ u ∈ ·.inside, R u) := by
  induction levels with
  | zero =>
      constructor
      · intro top p path h
        rw [compileWithin] at h
        cases h
      · intro p condition h
        rw [conditionWithin] at h
        cases h
  | succ levels ih =>
      constructor
      · intro top p path h
        rw [compileWithin] at h
        refine forall_allSegments fun s hs => ⟨readPath_forall (hR _ _) h s hs, ?_⟩
        exact (readPath_carry (ih.1 false) ih.2 (List.forall_mem_nil R) h s hs).forall_inside
      · intro p condition h
        rw [conditionWithin] at h
        exact (readCondition_yields (ih.1 false) h).forall_inside

/-- What holds of whatever a component is read as holds in a compiled path, at every level. -/
theorem compile_forall {t : Text} {path : Path} (h : Path.compile t = .ok path) :
    ∀ s ∈ Path.allSegments path, R s := by
  rw [Path.compile] at h
  split at h
  · cases h
  · exact (within_forall hR (maxNesting + 1)).1 true h

end Levels

/-! ## Reading a value -/

section Reading

variable {nested : PathReader} {condition : ConditionReader} {p q : Place} {t json : Text}

/-- A component that begins with an exclamation mark is read as a literal, at every level. -/
theorem readComponent_literal (hp : p.rest = '!' :: t) :
    readComponent nested condition p = readLiteral p := by
  rw [readComponent_cons hp (by decide)]
  rfl

/-- Whether a component may end before a text. -/
def EndsBefore (rest : Text) : Prop :=
  ∀ c ∈ rest.head?, isSeparator c = true

theorem endsComponent_iff : endsComponent q = true ↔ EndsBefore q.rest := by
  rw [endsComponent, EndsBefore]
  cases q.rest.head? with
  | none => simp
  | some c => simp

/-- What a literal takes is a lenient value that makes up the component. -/
theorem isLoose_of_readLiteral (h : readLiteral p = .ok (.literal json, q)) :
    (p.skip 1).rest = json ++ q.rest ∧ IsLoose json ∧ EndsBefore q.rest := by
  unfold readLiteral at h
  split at h
  · next v r hv =>
      obtain ⟨hfills, -, hrest, -⟩ := eq_of_value? hv
      split at h
      · next hend =>
          cases h
          exact ⟨hrest, isLoose_iff.2 ⟨v.kind, hfills⟩, endsComponent_iff.1 hend⟩
      · cases h
  · cases h

/-- Anything else is rejected. -/
theorem readLiteral_eq_error
    (h : ∀ json rest, (p.skip 1).rest = json ++ rest → IsLoose json → ¬ EndsBefore rest) :
    readLiteral p = .error (.invalidLiteral p.offset) := by
  unfold readLiteral
  split
  · next v r hv =>
      obtain ⟨hfills, -, hrest, -⟩ := eq_of_value? hv
      have hend := h v.raw r.rest hrest (isLoose_iff.2 ⟨v.kind, hfills⟩)
      rw [if_neg (mt endsComponent_iff.1 hend)]
  · rfl

/-- A lenient value is taken. A number is taken for the longest one, which a dot may go on with. -/
theorem readLiteral_of_isLoose {rest : Text} (h : IsLoose json)
    (hp : (p.skip 1).rest = json ++ rest) (hend : EndsBefore rest)
    (hdot : IsNumeral json → rest.head? ≠ some '.') :
    readLiteral p = .ok (.literal json, (p.skip 1).skip json.length) := by
  obtain ⟨kind, hfills⟩ := isLoose_iff.1 h
  have hdelimited : kind = .number → Delimited rest := by
    rintro rfl c hc
    cases hfills with
    | number hnumeral =>
        rcases Bool.or_eq_true_iff.1 (hend c hc) with hc' | hc'
        · rw [beq_iff_eq.1 hc'] at hc
          exact absurd hc (hdot hnumeral)
        · rw [beq_iff_eq.1 hc']
          decide
  have hvalue : (p.skip 1).value? =
      some (⟨kind, (p.skip 1).offset, json⟩, (p.skip 1).skip json.length) := by
    rw [Place.value?, hp, hfills.extent_append_of hdelimited]
    simp
  have hrest : ((p.skip 1).skip json.length).rest = rest := by
    rw [Place.skip, hp, List.drop_left]
  unfold readLiteral
  rw [hvalue]
  dsimp only
  rw [if_pos (endsComponent_iff.2 (hrest ▸ hend))]

end Reading

/-- All that is read as a literal is a lenient value. -/
theorem readsOnly_loose (nested : PathReader) (condition : ConditionReader) :
    ReadsOnly nested condition fun s => ∀ json, s = .literal json → IsLoose json where
  component h _ heq := (isLoose_of_readLiteral (readLiteral_of_readComponent (heq ▸ h))).2.1
  descent h _ heq := by
    obtain ⟨key, each, rfl, -⟩ := readDescent_form h
    cases heq
  lines h _ heq := by
    obtain ⟨each, rfl, -⟩ := readLines_form h
    cases heq

/-- A lenient value behind an exclamation mark is a path of its own. -/
theorem compile_of_isLoose {json : Text} (h : IsLoose json) :
    Path.compile ('!' :: json) = .ok [.literal json] := by
  have hread := readLiteral_of_isLoose (p := ⟨0, '!' :: json⟩) h (List.append_nil json).symm
    nofun nofun
  have hend : (((Place.mk 0 ('!' :: json)).skip 1).skip json.length).rest = [] :=
    List.drop_length
  have hcomponent : readComponent (compileWithin maxNesting false) (conditionWithin maxNesting)
      ⟨0, '!' :: json⟩ = (Except.ok (.literal json)).map (·, _) :=
    (readComponent_literal rfl).trans hread
  exact compile_of_component (by decide) hend hcomponent

/-- A path that begins with anything else behind an exclamation mark does not compile. -/
theorem compile_eq_error {t : Text}
    (h : ∀ json rest, t = json ++ rest → IsLoose json → ¬ EndsBefore rest) :
    Path.compile ('!' :: t) = .error (.invalidLiteral 0) := by
  have hread := readLiteral_eq_error (p := ⟨0, '!' :: t⟩) h
  have hcomponent : readComponent (compileWithin maxNesting false) (conditionWithin maxNesting)
      ⟨0, '!' :: t⟩ = (Except.error (.invalidLiteral 0)).map (·, ⟨0, []⟩) :=
    (readComponent_literal rfl).trans hread
  exact compile_of_component (by decide) rfl hcomponent

/--
The values in compiled paths, at every level, are those of the lenient grammar. Behind an
exclamation mark a component is read as such a value, or else it is rejected at the exclamation
mark; a number must not have a dot behind it that it could go on with. Words are well-formed,
numbers are if they have no zero too many in front, strings if the strict grammar has what is
between their quotes, and containers if they are written as a tree.
-/
theorem literals_loose (t : Text) :
    (∀ path, Path.compile t = .ok path → ∀ json, .literal json ∈ Path.allSegments path →
      IsLoose json ∧ (wellFormed none json = true ↔ IsValue json)) ∧
    (IsLoose t → Path.compile ('!' :: t) = .ok [.literal t]) ∧
    (∀ nested condition p, p.rest = '!' :: t →
      (∀ json rest, t = json ++ rest → IsLoose json → EndsBefore rest →
        (IsNumeral json → rest.head? ≠ some '.') →
          readComponent nested condition p =
            .ok (.literal json, (p.skip 1).skip json.length)) ∧
      ((∀ json rest, t = json ++ rest → IsLoose json → ¬ EndsBefore rest) →
        readComponent nested condition p = .error (.invalidLiteral p.offset))) ∧
    ((∀ json rest, t = json ++ rest → IsLoose json → ¬ EndsBefore rest) →
      Path.compile ('!' :: t) = .error (.invalidLiteral 0)) ∧
    (IsValue t → IsLoose t) ∧
    (IsLoose t → (wellFormed none t = true ↔ IsValue t)) ∧
    (IsNumeral t → (wellFormed none t = true ↔ hasLeadingZero t = false)) ∧
    (IsRun t → (wellFormed none ('"' :: (t ++ ['"'])) = true ↔ IsBody t)) := by
  refine ⟨fun path h json hjson => ?_, compile_of_isLoose,
    fun nested condition p hp => ⟨fun json rest ht hjson hend hdot => ?_, fun hnone => ?_⟩,
    compile_eq_error, IsValue.isLoose, IsLoose.wellFormed_iff, IsNumeral.wellFormed_iff,
    IsRun.wellFormed_iff⟩
  · have hloose : IsLoose json := compile_forall readsOnly_loose h _ hjson json rfl
    exact ⟨hloose, hloose.wellFormed_iff⟩
  · rw [readComponent_literal hp]
    exact readLiteral_of_isLoose hjson ((rest_skip_one hp).trans ht) hend hdot
  · rw [readComponent_literal hp]
    exact readLiteral_eq_error fun json rest ht =>
      hnone json rest ((rest_skip_one hp).symm.trans ht)

/-- A number in a selector in a query, and an object that holds no members. -/
theorem literals_loose_of_nested :
    Path.compile "#([!1.5])".toList =
        .ok [.query (.holds [.select true [("!1.5".toList, [.literal "1.5".toList])]]) false []] ∧
      IsLoose "1.5".toList ∧
      Path.compile "!\x7b[,]\x7d".toList = .ok [.literal "\x7b[,]\x7d".toList] ∧
      Path.compile "!nope".toList = .error (.invalidLiteral 0) := by
  have hpath : Path.compile "#([!1.5])".toList =
      .ok [.query (.holds [.select true [("!1.5".toList, [.literal "1.5".toList])]]) false []] := by
    with_unfolding_all rfl
  have hbalanced : IsBalanced ['[', ',', ']'] :=
    @IsBalanced.brackets '[' ']' [','] [] rfl (.neutral rfl .nil) rfl .nil
  obtain ⟨hliterals, -⟩ := literals_loose "#([!1.5])".toList
  obtain ⟨-, hcompile, -⟩ := literals_loose "\x7b[,]\x7d".toList
  obtain ⟨-, -, -, herror, -⟩ := literals_loose "nope".toList
  refine ⟨hpath, (hliterals _ hpath _ ?_).1, hcompile (.container rfl hbalanced rfl),
    herror fun json rest ht hjson => ?_⟩
  · exact List.mem_cons_of_mem _ (List.mem_cons_of_mem _ List.mem_cons_self)
  · change ['n', 'o', 'p', 'e'] = json ++ rest at ht
    cases hjson with
    | nullWord | falseWord | trueWord | string => cases ht
    | number hnumeral =>
        obtain ⟨c, s, rfl, hc⟩ := hnumeral.head
        rw [← (List.cons.inj ht).1] at hc
        rcases hc with hc | hc <;> cases hc
    | container ho =>
        rw [← (List.cons.inj ht).1] at ho
        cases ho

/-- A number with a zero too many in front gets into a path, and is not well-formed. -/
theorem literal_not_wellFormed :
    Path.compile "!01".toList = .ok [.literal "01".toList] ∧
      .literal "01".toList ∈ Path.allSegments [.literal "01".toList] ∧
      wellFormed none "01".toList = false := by
  refine ⟨?_, List.mem_cons_self, by decide +kernel⟩
  with_unfolding_all rfl

end DotPath
