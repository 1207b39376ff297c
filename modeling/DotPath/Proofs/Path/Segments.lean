import DotPath.Proofs.Path.Component

/-!
# The segments that are read

The reader for components looks at the first character and hands over to another reader, and each of
these makes one or two kinds of segment. Only three kinds carry paths or conditions, and these are
answers of the readers for the parts, or empty paths where none is given. A proof about the segments
of a path goes by the kinds below, without a look at the readers.

## Main definitions

* `Answers`: what a reader gives for some part of a text.
* `ComponentForm`: the kinds of segment that a component is read as.

## Main results

* `readComponent_form`, `readDescent_form`, `readLines_form`: what each reader makes.
-/

namespace DotPath

open Json Place

/-- An answer that a reader gives for some part. -/
def Answers {α : Type} (read : Place → Except PathError α) (a : α) : Prop :=
  ∃ part, read part = .ok a

/-- The kinds of segment that the component between two places is read as. -/
inductive ComponentForm (nested : PathReader) (condition : ConditionReader) (p q : Place) :
    Segment → Prop where
  | field (name : Text) : ComponentForm nested condition p q (.field name)
  | index (n : Nat) : ComponentForm nested condition p q (.index n)
  | wildcard (pattern : Text) : ComponentForm nested condition p q (.wildcard pattern)
  | length : ComponentForm nested condition p q .length
  | transform (name : Text) (argument : Option Text) (source : Text) :
      ComponentForm nested condition p q (.transform name argument source)
  | literal {json : Text} : readLiteral p = .ok (.literal json, q) →
      ComponentForm nested condition p q (.literal json)
  | select {asArray : Bool} {entries : List (Text × Path)} :
      (∀ e ∈ entries, Answers nested e.2) →
        ComponentForm nested condition p q (.select asArray entries)
  | collect {each : Path} : Answers nested each →
      ComponentForm nested condition p q (.collect each)
  | query {c : Condition} {all : Bool} {each : Path} : Answers condition c →
      each = [] ∨ Answers nested each → ComponentForm nested condition p q (.query c all each)

section Readers

variable {nested : PathReader} {condition : ConditionReader} {p q : Place} {s : Segment}

/-! ## Parts -/

theorem answers_of_readEach {each : Path} (h : readEach nested p = .ok (each, q)) :
    Answers nested each := by
  unfold readEach at h
  split at h
  · cases h
  · split at h
    · cases h
    · obtain ⟨path, hpath, heq⟩ := exists_of_map_eq_ok h
      cases heq
      exact ⟨_, hpath⟩

theorem answers_of_readEntry {entry : Text × Path} (h : readEntry nested p = .ok entry) :
    Answers nested entry.2 := by
  unfold readEntry at h
  split at h
  · split at h
    · cases h
    · dsimp only at h
      split at h
      · cases h
      · split at h
        · cases h
        · split at h
          · cases h
          · obtain ⟨path, hpath, rfl⟩ := exists_of_map_eq_ok h
            exact ⟨_, hpath⟩
  · obtain ⟨path, hpath, rfl⟩ := exists_of_map_eq_ok h
    exact ⟨_, hpath⟩

theorem answers_of_readEntries {parts : List Place} {entries : List (Text × Path)}
    (h : readEntries nested parts = .ok entries) : ∀ e ∈ entries, Answers nested e.2 := by
  induction parts generalizing entries with
  | nil =>
      cases h
      nofun
  | cons part rest ih =>
      rw [readEntries] at h
      split at h
      · cases h
      · obtain ⟨entry, hentry, h⟩ := exists_of_bind_eq_ok h
        obtain ⟨found, hfound, h⟩ := exists_of_bind_eq_ok h
        cases h
        exact List.forall_mem_cons.2 ⟨answers_of_readEntry hentry, ih hfound⟩

/-! ## Components -/

theorem plainSegment_form (raw : Text) : ComponentForm nested condition p q (plainSegment raw) := by
  unfold plainSegment
  split
  · split
    · exact .index _
    · exact .field _
  · split
    · exact .wildcard _
    · exact .field _

theorem readPlain_form (h : readPlain p = .ok (s, q)) : ComponentForm nested condition p q s := by
  unfold readPlain at h
  split at h
  · cases h
  · cases h
    exact plainSegment_form _

theorem readTransform_form (h : readTransform p = .ok (s, q)) :
    ComponentForm nested condition p q s := by
  unfold readTransform at h
  dsimp only at h
  split at h
  · cases h
  · split at h
    · obtain ⟨⟨argument, r⟩, -, heq⟩ := exists_of_map_eq_ok h
      cases heq
      exact .transform _ _ _
    · cases h
      exact .transform _ _ _

theorem readLiteral_form (h : readLiteral p = .ok (s, q)) :
    ComponentForm nested condition p q s := by
  have hread := h
  unfold readLiteral at h
  split at h
  · split at h
    · cases h
      exact .literal hread
    · cases h
  · cases h

theorem readSelector_form (h : readSelector nested p = .ok (s, q)) :
    ComponentForm nested condition p q s := by
  unfold readSelector at h
  split at h
  · cases h
  · dsimp only at h
    split at h
    · cases h
    · split at h
      · cases h
      · obtain ⟨entries, hentries, heq⟩ := exists_of_map_eq_ok h
        cases heq
        exact .select (answers_of_readEntries hentries)

theorem readQuery_form (h : readQuery nested condition p = .ok (s, q)) :
    ComponentForm nested condition p q s := by
  unfold readQuery at h
  dsimp only at h
  split at h
  · cases h
  · split at h
    · cases h
    · next c hc =>
        split at h
        · obtain ⟨⟨each, r⟩, heach, heq⟩ := exists_of_map_eq_ok h
          cases heq
          exact .query ⟨_, hc⟩ (.inr (answers_of_readEach heach))
        · cases h
          exact .query ⟨_, hc⟩ (.inl rfl)
        · cases h
          exact .query ⟨_, hc⟩ (.inl rfl)

theorem readComponent_form (h : readComponent nested condition p = .ok (s, q)) :
    ComponentForm nested condition p q s := by
  unfold readComponent at h
  split at h
  · cases h
  · repeat' split at h
    · cases h
    · exact readTransform_form h
    · exact readLiteral_form h
    · exact readSelector_form h
    · cases h
      exact .length
    · cases h
      exact .length
    · obtain ⟨⟨each, r⟩, heach, heq⟩ := exists_of_map_eq_ok h
      cases heq
      exact .collect (answers_of_readEach heach)
    · exact readQuery_form h
    · exact readPlain_form h
    · exact readPlain_form h

/-! ## Descents and lines -/

theorem readDescent_form (h : readDescent nested p = .ok (s, q)) :
    ∃ key each, s = .descend key each ∧ (each = [] ∨ Answers nested each) := by
  unfold readDescent at h
  split at h
  · cases h
  · dsimp only at h
    split at h
    · obtain ⟨⟨each, r⟩, heach, heq⟩ := exists_of_map_eq_ok h
      cases heq
      exact ⟨_, each, rfl, .inr (answers_of_readEach heach)⟩
    · cases h
      exact ⟨_, [], rfl, .inl rfl⟩

theorem readLines_form (h : readLines nested p = .ok (s, q)) :
    ∃ each, s = .lines each ∧ Answers nested each := by
  unfold readLines at h
  split at h
  · cases h
  · obtain ⟨each, heach, heq⟩ := exists_of_map_eq_ok h
    cases heq
    exact ⟨each, rfl, ⟨_, heach⟩⟩

/-! ## What no component is read as -/

/-- A literal is made by the reader for literals alone. -/
theorem readLiteral_of_readComponent {json : Text}
    (h : readComponent nested condition p = .ok (.literal json, q)) :
    readLiteral p = .ok (.literal json, q) := by
  cases readComponent_form h with
  | literal hread => exact hread

/-- No component stands for the values of a stream. -/
theorem ne_lines_of_readComponent (h : readComponent nested condition p = .ok (s, q))
    (each : Path) : s ≠ .lines each := by
  rintro rfl
  nomatch readComponent_form h

theorem plainSegment_ne_lines (raw : Text) (each : Path) : plainSegment raw ≠ .lines each := by
  unfold plainSegment
  split
  · split <;> nofun
  · split <;> nofun

end Readers

end DotPath
