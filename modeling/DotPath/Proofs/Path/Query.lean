import DotPath.Proofs.Path.Embedded

/-!
# Conditions that join comparisons

A condition is looked over for the bracket that closes its group, then for double bars, and each of
the parts for double ampersands. A text that holds no bracket, quote or backslash is flat: each of
these scans takes it character by character and finds nothing open. So if the terms are flat and
hold no bar and no ampersand themselves, the scans stop exactly where the terms were joined, and a
condition has the alternatives and the terms that it was put together from.

What is read from a term does not depend on where it stands. A term that is read as a comparison
alone is read as the same comparison among others, and the condition joins the comparisons from the
left: those of each alternative first, then the alternatives.

## Main definitions

* `Path.allWhere`: the query for all elements that meet a condition.
* `Path.joinTerms`: alternatives of terms as the text of a condition.

## Main results

* `splitParts_intercalate`: a text is split where its parts were joined.
* `readCondition_joinTerms`, `compile_joinTerms`: what is read from joined terms.
-/

namespace DotPath

open Json Place

/-! ## Joined terms -/

/-- The query for all elements that meet a condition. -/
def Path.allWhere (condition : Text) : Text :=
  '#' :: '(' :: (condition ++ [')', '#'])

/-- Alternatives of terms as the text of a condition. -/
def Path.joinTerms (alternatives : List (List Text)) : Text :=
  List.intercalate ['|', '|'] (alternatives.map (List.intercalate ['&', '&']))

/-- The characters that open or close something, or protect what follows them. -/
def groupMarks : List Char :=
  ['\\', '"', '(', ')', '[', ']', '\x7b', '\x7d']

/-- The characters that a term must not hold if it is to be joined with others as it is. -/
def conditionMarks : List Char :=
  '|' :: '&' :: groupMarks

theorem not_mem_conditionMarks {c : Char} (hc : c ∉ conditionMarks) :
    c ∉ '|' :: groupMarks ∧ c ∉ '&' :: groupMarks ∧ c ∉ groupMarks := by
  simp only [conditionMarks, List.mem_cons, not_or] at hc ⊢
  exact ⟨⟨hc.1, hc.2.2⟩, hc.2, hc.2.2⟩

theorem mem_intercalate {separator : Text} {parts : List Text} {c : Char}
    (hc : c ∈ List.intercalate separator parts) : c ∈ separator ∨ ∃ t ∈ parts, c ∈ t := by
  induction parts with
  | nil => cases hc
  | cons t rest ih =>
      cases rest with
      | nil =>
          rw [List.intercalate_singleton] at hc
          exact .inr ⟨t, List.mem_cons_self, hc⟩
      | cons u rest =>
          rw [List.intercalate_cons_cons, List.mem_append, List.mem_append] at hc
          rcases hc with (hc | hc) | hc
          · exact .inr ⟨t, List.mem_cons_self, hc⟩
          · exact .inl hc
          · exact (ih hc).imp_right fun ⟨v, hv, hc⟩ => ⟨v, List.mem_cons_of_mem t hv, hc⟩

/-! ## Scans over a flat text -/

/-- A scan that goes over the bare characters of a class. -/
def GoesOverEach {α : Type} (P : Char → Prop) (scan : Place → α) : Prop :=
  ∀ {p q : Place} {c : Char} {t : Text}, P c → p.rest = c :: t →
    p.unit? = .ok (some (some c, q)) → scan p = scan q

/-- What a flat text consists of: bare characters that open and close nothing. -/
theorem flat_of_not_mem_groupMarks {c : Char} (hc : c ∉ groupMarks) :
    (c ≠ '\\' ∧ c ≠ '"') ∧ closingOf? c = none ∧ isGroupEnd c = false := by
  simp only [groupMarks, List.mem_cons, not_or] at hc
  refine ⟨⟨hc.1, hc.2.1⟩, ?_, ?_⟩
  · simp [closingOf?, hc]
  · simp [isGroupEnd, hc]

theorem GoesOverEach.scan_append {α : Type} {P : Char → Prop} {scan : Place → α}
    (hscan : GoesOverEach P scan) {t : Text} (ht : ∀ c ∈ t, P c ∧ c ∉ groupMarks) (k : Nat)
    (tail : Text) : scan ⟨k, t ++ tail⟩ = scan ⟨k + Text.byteLength t, tail⟩ := by
  induction t generalizing k with
  | nil => rfl
  | cons c t ih =>
      obtain ⟨⟨hc, hflat⟩, ht⟩ := List.forall_mem_cons.1 ht
      obtain ⟨⟨hslash, hquote⟩, -⟩ := flat_of_not_mem_groupMarks hflat
      have hskip : (Place.mk k (c :: t ++ tail)).skip 1 = ⟨k + c.utf8Size, t ++ tail⟩ := rfl
      rw [hscan hc rfl (unit?_bare rfl hslash hquote), hskip, ih ht, Text.byteLength_cons,
        Nat.add_assoc]

/-- The bracket behind a flat text closes the group in front of it. -/
theorem groupEnd_flat {opening due : Char} (hopen : closingOf? opening = some due) {t : Text}
    (ht : ∀ c ∈ t, c ∉ groupMarks) (k : Nat) (tail : Text) :
    groupEnd ⟨k, opening :: (t ++ due :: tail)⟩ =
      .ok ⟨k + opening.utf8Size + Text.byteLength t, due :: tail⟩ := by
  have hscan : GoesOverEach (· ∉ groupMarks) (closeFrom k [due]) := by
    intro p q c _ hc _ hunit
    obtain ⟨-, hnone, hend⟩ := flat_of_not_mem_groupMarks hc
    rw [closeFrom_bare hunit, hnone, hend]
    rfl
  exact groupEnd_of_closeFrom hopen (hscan.scan_append (fun c hc => ⟨ht c hc, ht c hc⟩) _ _)

/-- A scan for a doubled mark goes over a flat text without the mark. -/
theorem splitFrom_flat {mark : Char} {t : Text} (ht : ∀ c ∈ t, c ∉ mark :: groupMarks)
    (part : Place) (k : Nat) (tail : Text) :
    splitFrom [mark, mark] part 0 ⟨k, t ++ tail⟩ =
      splitFrom [mark, mark] part 0 ⟨k + Text.byteLength t, tail⟩ := by
  have hscan : GoesOverEach (· ∉ mark :: groupMarks) (splitFrom [mark, mark] part 0) := by
    intro p q c _ hc hp hunit
    rw [List.mem_cons, not_or] at hc
    obtain ⟨-, hnone, hend⟩ := flat_of_not_mem_groupMarks hc.2
    have hne : ¬ mark = c := fun h => hc.1 h.symm
    rw [splitFrom_bare hunit, depthAfter, hnone, hend, hp]
    simp [hne]
  refine hscan.scan_append (fun c hc => ⟨ht c hc, ?_⟩) k tail
  exact fun hmem => ht c hc (List.mem_cons_of_mem mark hmem)

/-- A text is split where its parts were joined. -/
theorem splitParts_intercalate {mark : Char} (hmark : mark ∉ groupMarks) {parts : List Text}
    (hne : parts ≠ []) (hparts : ∀ t ∈ parts, ∀ c ∈ t, c ∉ mark :: groupMarks) (k : Nat) :
    ∃ places : List Place, places.map (·.rest) = parts ∧ (∀ p ∈ places, k ≤ p.offset) ∧
      splitParts [mark, mark] ⟨k, List.intercalate [mark, mark] parts⟩ = .ok places := by
  induction parts generalizing k with
  | nil => exact absurd rfl hne
  | cons t rest ih =>
      obtain ⟨ht, hrest⟩ := List.forall_mem_cons.1 hparts
      cases rest with
      | nil =>
          refine ⟨[⟨k, t⟩], rfl, List.forall_mem_singleton.2 (Nat.le_refl k), ?_⟩
          have hend := splitFrom_flat ht ⟨k, t⟩ k []
          rw [List.append_nil] at hend
          rw [List.intercalate_singleton, splitParts, hend, splitFrom_nil rfl]
      | cons u rest =>
          -- The scan goes over the first part, and over the separator behind it.
          generalize hmore : List.intercalate [mark, mark] (u :: rest) = more at ih
          have hjoined : List.intercalate [mark, mark] (t :: u :: rest) =
              t ++ mark :: mark :: more := by
            rw [List.intercalate_cons_cons, hmore, List.append_assoc]
            rfl
          have hprefix : (0 == 0 && [mark, mark].isPrefixOf (mark :: mark :: more)) = true := by
            simp
          obtain ⟨⟨hslash, hquote⟩, -⟩ := flat_of_not_mem_groupMarks hmark
          let behind := ((Place.mk (k + Text.byteLength t) (mark :: mark :: more)).skip 1).skip 1
          have hbehind : k ≤ behind.offset := by
            simp only [behind, skip]
            omega
          obtain ⟨places, hplaces, hoffsets, hsplit⟩ :=
            ih (List.cons_ne_nil u rest) hrest behind.offset
          have hsplit : splitFrom [mark, mark] behind 0 behind = .ok places := hsplit
          refine ⟨⟨k, t⟩ :: places, by rw [List.map_cons, hplaces], ?_, ?_⟩
          · refine List.forall_mem_cons.2 ⟨Nat.le_refl k, fun p hp => ?_⟩
            exact Nat.le_trans hbehind (hoffsets p hp)
          · rw [hjoined, splitParts, splitFrom_flat ht,
              splitFrom_bare (unit?_bare rfl hslash hquote), if_pos hprefix]
            show (splitFrom [mark, mark] behind 0 behind).map _ = _
            rw [hsplit, ← upTo_append k (k + Text.byteLength t) t (mark :: mark :: more)]
            rfl

/-! ## What is read from joined terms -/

/-- Several conditions joined from the left. -/
def joinedFrom (join : Condition → Condition → Condition) (conditions : List Condition) :
    Condition :=
  conditions.tail.foldl join (conditions.headD (.holds []))

theorem joinConditions_of_ne_nil (join : Condition → Condition → Condition) (position : Nat)
    {conditions : List Condition} (hne : conditions ≠ []) :
    joinConditions join position conditions = .ok (joinedFrom join conditions) := by
  cases conditions with
  | nil => exact absurd rfl hne
  | cons c rest => rfl

/-- Parts that are read one by one as they are written are read together. -/
theorem mapM_of_parts {α β : Type} {read : Place → Except PathError α} {write : β → Text}
    {f : β → α} {start : Nat} {bs : List β}
    (h : ∀ b ∈ bs, ∀ k, start ≤ k → read ⟨k, write b⟩ = .ok (f b)) {places : List Place}
    (hplaces : places.map (·.rest) = bs.map write) (hoffsets : ∀ p ∈ places, start ≤ p.offset) :
    places.mapM read = .ok (bs.map f) := by
  induction bs generalizing places with
  | nil =>
      rw [List.map_nil, List.map_eq_nil_iff] at hplaces
      subst hplaces
      rfl
  | cons b rest ih =>
      obtain ⟨p, places, rfl, hp, hplaces⟩ := List.map_eq_cons_iff.1 hplaces
      obtain ⟨hb, hrest⟩ := List.forall_mem_cons.1 h
      obtain ⟨hoffset, hoffsets⟩ := List.forall_mem_cons.1 hoffsets
      have hread : read p = .ok (f b) := by rw [← hb p.offset hoffset, ← hp]
      rw [List.mapM_cons, hread, ih hrest hplaces hoffsets]
      rfl

section Read

variable {nested : PathReader} {comparison : Text → Condition} {start k : Nat}

/-- An alternative joins what its terms are read as. -/
theorem readAlternative_joinTerms {terms : List Text} (hne : terms ≠ [])
    (hmarks : ∀ t ∈ terms, ∀ c ∈ t, c ∉ conditionMarks)
    (hread : ∀ t ∈ terms, ∀ k, start ≤ k → readComparison nested ⟨k, t⟩ = .ok (comparison t))
    (hk : start ≤ k) :
    (do
      let places ← splitParts ['&', '&'] ⟨k, List.intercalate ['&', '&'] terms⟩
      let comparisons ← places.mapM (readComparison nested)
      joinConditions .both k comparisons) =
        .ok (joinedFrom .both (terms.map comparison)) := by
  have hflat : ∀ t ∈ terms, ∀ c ∈ t, c ∉ '&' :: groupMarks := by
    intro t ht c hc
    exact (not_mem_conditionMarks (hmarks t ht c hc)).2.1
  obtain ⟨places, hplaces, hoffsets, hsplit⟩ := splitParts_intercalate (by decide) hne hflat k
  have hcomparisons : places.mapM (readComparison nested) = .ok (terms.map comparison) := by
    refine mapM_of_parts hread (by rw [hplaces, List.map_id']) fun p hp => ?_
    exact Nat.le_trans hk (hoffsets p hp)
  rw [hsplit]
  show (do
    let comparisons ← places.mapM (readComparison nested)
    joinConditions .both k comparisons) = _
  rw [hcomparisons]
  exact joinConditions_of_ne_nil _ k (by simpa using hne)

/-- The characters of joined terms are those of the terms and of what joins them. -/
theorem alternatives_flat {alternatives : List (List Text)}
    (hmarks : ∀ terms ∈ alternatives, ∀ t ∈ terms, ∀ c ∈ t, c ∉ conditionMarks) :
    ∀ t ∈ alternatives.map (List.intercalate ['&', '&']), ∀ c ∈ t, c ∉ '|' :: groupMarks := by
  intro t ht c hc hmem
  obtain ⟨terms, hterms, rfl⟩ := List.mem_map.1 ht
  rcases mem_intercalate hc with hand | ⟨u, hu, hc⟩
  · obtain rfl : c = '&' := by simpa using hand
    exact absurd hmem (by decide)
  · exact (not_mem_conditionMarks (hmarks terms hterms u hu c hc)).1 hmem

theorem joinTerms_flat {alternatives : List (List Text)}
    (hmarks : ∀ terms ∈ alternatives, ∀ t ∈ terms, ∀ c ∈ t, c ∉ conditionMarks) :
    ∀ c ∈ Path.joinTerms alternatives, c ∉ groupMarks := by
  intro c hc hmem
  rcases mem_intercalate hc with hbar | ⟨t, ht, hc⟩
  · obtain rfl : c = '|' := by simpa using hbar
    exact absurd hmem (by decide)
  · exact alternatives_flat hmarks t ht c hc (List.mem_cons_of_mem _ hmem)

/-- A condition joins what its alternatives are read as. -/
theorem readCondition_joinTerms {alternatives : List (List Text)} (hne : alternatives ≠ [])
    (hterms : ∀ terms ∈ alternatives, terms ≠ [])
    (hmarks : ∀ terms ∈ alternatives, ∀ t ∈ terms, ∀ c ∈ t, c ∉ conditionMarks)
    (hread : ∀ terms ∈ alternatives, ∀ t ∈ terms, ∀ k, start ≤ k →
      readComparison nested ⟨k, t⟩ = .ok (comparison t)) :
    readCondition nested ⟨start, Path.joinTerms alternatives⟩ =
      .ok (joinedFrom .either
        (alternatives.map fun terms => joinedFrom .both (terms.map comparison))) := by
  have hbar : '|' ∉ groupMarks := by decide
  obtain ⟨places, hplaces, hoffsets, hsplit⟩ :=
    splitParts_intercalate hbar (by simpa using hne) (alternatives_flat hmarks) start
  rw [readCondition, Path.joinTerms, hsplit]
  show (do
    let conditions ← places.mapM _
    joinConditions .either start conditions) = _
  rw [mapM_of_parts (fun terms hmem k hk => readAlternative_joinTerms (hterms terms hmem)
    (hmarks terms hmem) (hread terms hmem) hk) hplaces hoffsets]
  exact joinConditions_of_ne_nil _ start (by simpa using hne)

end Read

/-! ## Queries -/

/-- The condition of a query for all elements; the condition that always holds if it has none. -/
def Path.conditionOf (t : Text) : Condition :=
  match Path.compile (Path.allWhere t) with
  | .ok [.query c _ _] => c
  | _ => .holds []

/-- A flat text is the condition of a query as it is. -/
theorem compile_allWhere {t : Text} (ht : ∀ c ∈ t, c ∉ groupMarks) :
    Path.compile (Path.allWhere t) =
      (readCondition (compileWithin 63 false) ⟨2, t⟩).map fun c => [.query c true []] := by
  rw [Path.allWhere, compile_query_all (groupEnd_flat rfl ht 1 ['#']), maxNesting,
    conditionWithin]

section Terms

variable {t : Text}

/-- A term alone is one comparison. -/
theorem readCondition_term {nested : PathReader} (ht : ∀ c ∈ t, c ∉ conditionMarks) (k : Nat) :
    readCondition nested ⟨k, t⟩ = readComparison nested ⟨k, t⟩ := by
  have hone : ∀ {mark : Char}, (∀ c ∈ t, c ∉ mark :: groupMarks) →
      splitParts [mark, mark] ⟨k, t⟩ = .ok [⟨k, t⟩] := by
    intro mark hmark
    have hend := splitFrom_flat hmark ⟨k, t⟩ k []
    rw [List.append_nil] at hend
    rw [splitParts, hend, splitFrom_nil rfl]
  refine readCondition_of_one_term (hone fun c hc => ?_) (hone fun c hc => ?_)
  · exact (not_mem_conditionMarks (ht c hc)).1
  · exact (not_mem_conditionMarks (ht c hc)).2.1

/-- A term that compiles alone is read as a comparison, the same wherever it stands behind. -/
theorem readComparison_of_compile (ht : ∀ c ∈ t, c ∉ conditionMarks)
    (h : ∃ path, Path.compile (Path.allWhere t) = .ok path) :
    Path.compile (Path.allWhere t) = .ok [.query (Path.conditionOf t) true []] ∧
      ∀ k, 2 ≤ k → readComparison (compileWithin 63 false) ⟨k, t⟩ = .ok (Path.conditionOf t) := by
  obtain ⟨path, hpath⟩ := h
  have hcompile := compile_allWhere fun c hc => (not_mem_conditionMarks (ht c hc)).2.2
  rw [readCondition_term ht] at hcompile
  obtain ⟨c, hc, rfl⟩ := exists_of_map_eq_ok (hcompile.symm.trans hpath)
  have hcondition : Path.conditionOf t = c := by rw [Path.conditionOf, hpath]
  rw [hcondition]
  refine ⟨hpath, fun k hk => ?_⟩
  have hsteady := readComparison_steady (within_steady 63).1 hc (k - 2)
  rwa [shift, Nat.sub_add_cancel hk] at hsteady

end Terms

/-- Alternatives of terms that each compile alone compile to the condition that joins them. -/
theorem compile_joinTerms {alternatives : List (List Text)} (hne : alternatives ≠ [])
    (hterms : ∀ terms ∈ alternatives, terms ≠ [])
    (hmarks : ∀ terms ∈ alternatives, ∀ t ∈ terms, ∀ c ∈ t, c ∉ conditionMarks)
    (hcompile : ∀ terms ∈ alternatives, ∀ t ∈ terms, ∃ path,
      Path.compile (Path.allWhere t) = .ok path) :
    Path.compile (Path.allWhere (Path.joinTerms alternatives)) =
      .ok [.query (joinedFrom .either (alternatives.map fun terms =>
        joinedFrom .both (terms.map Path.conditionOf))) true []] := by
  rw [compile_allWhere (joinTerms_flat hmarks), readCondition_joinTerms hne hterms hmarks]
  · rfl
  · intro terms hmem t ht k hk
    exact (readComparison_of_compile (hmarks terms hmem t ht) (hcompile terms hmem t ht)).2 k hk

end DotPath
