import DotPath.Proofs.Path.Compile

/-!
# What a compiled path carries

The readers for components hand the parts of a text to the readers for paths and conditions, and put
the answers into a segment. Nothing else gets into it but the empty path, which stands where no path
is given. So whatever all answers have in common is true of everything that a path carries.

## Main definitions

* `Segment.Carries`, `Condition.Compares`: a property of all paths and conditions directly inside.
* `ReadsOnly`: a property of every segment that the readers for components give.

## Main results

* `readPath_forall`: what the readers for components keep, the reader for paths keeps.
* `readPath_carry`: for paths, from component to component.
* `readCondition_yields`: for conditions.
-/

namespace DotPath

open Json Place

/-- Every answer of a reader meets a condition. -/
def Yields {α : Type} (read : Place → Except PathError α) (P : α → Prop) : Prop :=
  ∀ {p : Place} {a : α}, read p = .ok a → P a

/-- The paths that a segment carries meet `P`, and its condition meets `C`. -/
def Segment.Carries (P : Path → Prop) (C : Condition → Prop) : Segment → Prop
  | .collect each | .descend _ each | .lines each => P each
  | .query condition _ each => C condition ∧ P each
  | .select _ entries => ∀ e ∈ entries, P e.2
  | .field _ | .index _ | .wildcard _ | .length | .literal _ | .transform .. => True

/-- The paths that a condition compares meet `P`. -/
def Condition.Compares (P : Path → Prop) : Condition → Prop
  | .holds field | .compare field _ _ => P field
  | .both left right | .either left right => left.Compares P ∧ right.Compares P

section Readers

variable {nested : PathReader} {condition : ConditionReader} {P : Path → Prop}
  {C : Condition → Prop} {p q : Place} {s : Segment}

theorem Yields.of_answers {α : Type} {read : Place → Except PathError α} {Q : α → Prop} {a : α}
    (hread : Yields read Q) (h : Answers read a) : Q a := by
  obtain ⟨part, hpart⟩ := h
  exact hread hpart

theorem Yields.of_given (hn : Yields nested P) (hnil : P []) {each : Path}
    (h : each = [] ∨ Answers nested each) : P each := by
  rcases h with rfl | heach
  · exact hnil
  · exact hn.of_answers heach

theorem readComponent_carries (hn : Yields nested P) (hc : Yields condition C) (hnil : P [])
    (h : readComponent nested condition p = .ok (s, q)) : s.Carries P C := by
  cases readComponent_form h with
  | field | index | wildcard | length | transform | literal => trivial
  | select hentries => exact fun e he => hn.of_answers (hentries e he)
  | collect heach => exact hn.of_answers heach
  | query hcondition heach => exact ⟨hc.of_answers hcondition, hn.of_given hnil heach⟩

theorem readDescent_carries (hn : Yields nested P) (hnil : P [])
    (h : readDescent nested p = .ok (s, q)) : s.Carries P C := by
  obtain ⟨key, each, rfl, heach⟩ := readDescent_form h
  exact hn.of_given hnil heach

theorem readLines_carries (hn : Yields nested P) (h : readLines nested p = .ok (s, q)) :
    s.Carries P C := by
  obtain ⟨each, rfl, heach⟩ := readLines_form h
  exact hn.of_answers heach

/-- Whatever is read as a component, a descent or lines meets `Q`. -/
structure ReadsOnly (nested : PathReader) (condition : ConditionReader) (Q : Segment → Prop) :
    Prop where
  component : ∀ {p q s}, readComponent nested condition p = .ok (s, q) → Q s
  descent : ∀ {p q s}, readDescent nested p = .ok (s, q) → Q s
  lines : ∀ {p q s}, readLines nested p = .ok (s, q) → Q s

section ReadsOnly

variable {Q : Segment → Prop} (hQ : ReadsOnly nested condition Q)

include hQ

mutual

theorem readComponents_forall {p : Place} {path : Path}
    (h : readComponents nested condition p = .ok path) : ∀ s ∈ path, Q s := by
  obtain ⟨s, q, rest, hs, hrest, rfl⟩ := readComponents_cases h
  have hlength := length_of_readComponent hs
  exact List.forall_mem_cons.2 ⟨hQ.component hs, readRest_forall hrest⟩
termination_by p.rest.length

theorem readRest_forall {p : Place} {path : Path}
    (h : readRest nested condition p = .ok path) : ∀ s ∈ path, Q s := by
  rcases readRest_cases h with ⟨-, rfl⟩ | ⟨t, s, q, rest, hp, hs, hrest, rfl⟩ |
    ⟨c, d, t, hp, -, -, hcomponents⟩
  · nofun
  · have hlength : q.rest.length < p.rest.length := by
      have := length_of_readDescent hs
      have := p.length_skip_le 2
      omega
    exact List.forall_mem_cons.2 ⟨hQ.descent hs, readRest_forall hrest⟩
  · have hlength : (p.skip 1).rest.length < p.rest.length := by
      rw [rest_skip_one hp, hp]
      exact Nat.lt_succ_self _
    exact readComponents_forall hcomponents
termination_by p.rest.length

end

/-- So does every segment of a path. -/
theorem readPath_forall {top : Bool} {path : Path}
    (h : readPath nested condition top p = .ok path) : ∀ s ∈ path, Q s := by
  rcases readPath_cases h with ⟨-, rfl⟩ | ⟨t, s, q, rest, -, hs, hrest, rfl⟩ | hcomponents
  · nofun
  · refine List.forall_mem_cons.2 ⟨?_, readRest_forall hQ hrest⟩
    cases top with
    | true => exact hQ.lines ((if_pos rfl).symm.trans hs)
    | false => exact hQ.descent hs
  · exact readComponents_forall hQ hcomponents

end ReadsOnly

theorem readPath_carry (hn : Yields nested P) (hc : Yields condition C) (hnil : P []) {top : Bool}
    {path : Path} (h : readPath nested condition top p = .ok path) :
    ∀ s ∈ path, s.Carries P C :=
  readPath_forall ⟨readComponent_carries hn hc hnil, readDescent_carries hn hnil,
    readLines_carries hn⟩ h

theorem readComparison_yields (hn : Yields nested P) :
    Yields (readComparison nested) (·.Compares P) := by
  intro p c h
  unfold readComparison at h
  dsimp only at h
  split at h
  · cases h
  · split at h
    · cases h
    · obtain ⟨field, hfield, rfl⟩ := exists_of_map_eq_ok h
      exact hn hfield
    · obtain ⟨field, hfield, h⟩ := exists_of_bind_eq_ok h
      split at h
      · cases h
      · obtain ⟨operand, -, h⟩ := exists_of_bind_eq_ok h
        cases h
        exact hn hfield

theorem mapM_yields {α : Type} {read : Place → Except PathError α} {Q : α → Prop}
    (hread : Yields read Q) {parts : List Place} {found : List α}
    (h : parts.mapM read = .ok found) : ∀ a ∈ found, Q a := by
  induction parts generalizing found with
  | nil =>
      cases h
      nofun
  | cons part rest ih =>
      rw [List.mapM_cons] at h
      obtain ⟨a, ha, h⟩ := exists_of_bind_eq_ok h
      obtain ⟨as, has, h⟩ := exists_of_bind_eq_ok h
      cases h
      exact List.forall_mem_cons.2 ⟨hread ha, ih has⟩

/-- What is kept by a join is kept when several conditions are joined. -/
theorem joinConditions_yields {join : Condition → Condition → Condition} {Q : Condition → Prop}
    (hjoin : ∀ a b, Q a → Q b → Q (join a b)) {position : Nat} {conditions : List Condition}
    (hall : ∀ c ∈ conditions, Q c) {c : Condition}
    (h : joinConditions join position conditions = .ok c) : Q c := by
  cases conditions with
  | nil => cases h
  | cons first rest =>
      cases h
      obtain ⟨hfirst, hrest⟩ := List.forall_mem_cons.1 hall
      clear hall
      induction rest generalizing first with
      | nil => exact hfirst
      | cons c rest ih =>
          obtain ⟨hc, hrest⟩ := List.forall_mem_cons.1 hrest
          exact ih (join first c) (hjoin first c hfirst hc) hrest

theorem readCondition_yields (hn : Yields nested P) :
    Yields (readCondition nested) (·.Compares P) := by
  intro p c h
  obtain ⟨alternatives, -, h⟩ := exists_of_bind_eq_ok h
  obtain ⟨conditions, hconditions, h⟩ := exists_of_bind_eq_ok h
  refine joinConditions_yields (fun a b ha hb => ⟨ha, hb⟩) (mapM_yields ?_ hconditions) h
  intro part c h
  obtain ⟨terms, -, h⟩ := exists_of_bind_eq_ok h
  obtain ⟨comparisons, hcomparisons, h⟩ := exists_of_bind_eq_ok h
  exact joinConditions_yields (fun a b ha hb => ⟨ha, hb⟩)
    (mapM_yields (readComparison_yields hn) hcomparisons) h

end Readers

end DotPath
