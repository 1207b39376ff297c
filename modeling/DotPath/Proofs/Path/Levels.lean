import DotPath.Proofs.Path.Compile

/-!
# Paths with fewer levels

A path that stands inside another one has fewer levels left for paths of its own. This makes only
one difference to how it is read: where the levels do not suffice, the text is refused as nested too
deep. Otherwise the answer is the same, whether it is a path or what is wrong with the text.

## Main definitions

* `Below`: an answer that may give up because of the depth, and is the same as another one if not.

## Main results

* `compileWithin_below`: a path that is read with one level less.
-/

namespace DotPath

open Json Place

/-- The first answer is the second one, unless it gives up because paths nest too deep. -/
def Below {α : Type} (x y : Except PathError α) : Prop :=
  x = .error (.tooDeep maxNesting) ∨ x = y

namespace Below

variable {α β : Type} {x y : Except PathError α}

theorem refl (x : Except PathError α) : Below x x :=
  .inr rfl

theorem map (h : Below x y) (f : α → β) : Below (x.map f) (y.map f) := by
  rcases h with rfl | rfl
  · exact .inl rfl
  · exact .inr rfl

theorem bind {f g : α → Except PathError β} (h : Below x y) (hfg : ∀ a, Below (f a) (g a)) :
    Below (x >>= f) (y >>= g) := by
  rcases h with rfl | rfl
  · exact .inl rfl
  · cases x with
    | error e => exact .inr rfl
    | ok a => exact hfg a

/-- Two choices by one test. -/
theorem ite {c : Prop} [Decidable c] {x' y' : Except PathError α} (h : Below x y)
    (h' : Below x' y') : Below (if c then x else x') (if c then y else y') := by
  split
  · exact h
  · exact h'

end Below

section Readers

variable {nested nested' : PathReader} {condition condition' : ConditionReader}

theorem readEach_below (hn : ∀ p, Below (nested p) (nested' p)) (p : Place) :
    Below (readEach nested p) (readEach nested' p) := by
  unfold readEach
  cases pipeFrom 0 (eachStart p) with
  | error e => exact .refl _
  | ok stop => exact .ite (.refl _) ((hn _).map _)

theorem readDescent_below (hn : ∀ p, Below (nested p) (nested' p)) (p : Place) :
    Below (readDescent nested p) (readDescent nested' p) := by
  unfold readDescent
  split
  · exact .refl _
  · dsimp only
    split
    · exact (readEach_below hn _).map _
    · exact .refl _

theorem readEntry_below (hn : ∀ p, Below (nested p) (nested' p)) (p : Place) :
    Below (readEntry nested p) (readEntry nested' p) := by
  unfold readEntry
  split
  · split
    · exact .refl _
    · dsimp only
      split
      · exact .refl _
      · exact .ite (.refl _) (.ite (.refl _) ((hn _).map _))
  · exact (hn p).map _

theorem readEntries_below (hn : ∀ p, Below (nested p) (nested' p)) (parts : List Place) :
    Below (readEntries nested parts) (readEntries nested' parts) := by
  induction parts with
  | nil => exact .refl _
  | cons part rest ih =>
      rw [readEntries, readEntries]
      exact .ite (.refl _) ((readEntry_below hn _).bind fun _ => ih.bind fun _ => .refl _)

theorem readSelector_below (hn : ∀ p, Below (nested p) (nested' p)) (p : Place) :
    Below (readSelector nested p) (readSelector nested' p) := by
  unfold readSelector
  cases groupEnd p with
  | error e => exact .refl _
  | ok close =>
      refine .ite (.refl _) ?_
      cases splitParts [','] (((p.skip 1).upTo close).trim isPathSpace) with
      | error e => exact .refl _
      | ok parts => exact (readEntries_below hn parts).map _

theorem readComparison_below (hn : ∀ p, Below (nested p) (nested' p)) (p : Place) :
    Below (readComparison nested p) (readComparison nested' p) := by
  unfold readComparison
  refine .ite (.refl _) ?_
  cases operatorFrom 0 (p.trim isPathSpace) with
  | error e => exact .refl _
  | ok found =>
      cases found with
      | none => exact (hn _).map _
      | some found => exact (hn _).bind fun _ => .refl _

theorem mapM_below {α : Type} {read read' : Place → Except PathError α}
    (h : ∀ p, Below (read p) (read' p)) (parts : List Place) :
    Below (parts.mapM read) (parts.mapM read') := by
  induction parts with
  | nil => exact .refl _
  | cons part rest ih =>
      rw [List.mapM_cons, List.mapM_cons]
      exact (h part).bind fun _ => ih.bind fun _ => .refl _

theorem readCondition_below (hn : ∀ p, Below (nested p) (nested' p)) (p : Place) :
    Below (readCondition nested p) (readCondition nested' p) := by
  unfold readCondition
  refine (Below.refl _).bind fun alternatives => (mapM_below ?_ alternatives).bind fun _ => .refl _
  intro part
  exact (Below.refl _).bind fun terms =>
    (mapM_below (readComparison_below hn) terms).bind fun _ => .refl _

theorem readQuery_below (hn : ∀ p, Below (nested p) (nested' p))
    (hc : ∀ p, Below (condition p) (condition' p)) (p : Place) :
    Below (readQuery nested condition p) (readQuery nested' condition' p) := by
  unfold readQuery
  dsimp only
  cases groupEnd (p.skip 1) with
  | error e => exact .refl _
  | ok close =>
      dsimp only
      rcases hc (((p.skip 1).skip 1).upTo close) with h | h
      · rw [h]
        exact .inl rfl
      · rw [h]
        cases condition' (((p.skip 1).skip 1).upTo close) with
        | error e => exact .refl _
        | ok c =>
            dsimp only
            split
            · exact (readEach_below hn _).map _
            · exact .refl _
            · exact .refl _

theorem readComponent_below (hn : ∀ p, Below (nested p) (nested' p))
    (hc : ∀ p, Below (condition p) (condition' p)) (p : Place) :
    Below (readComponent nested condition p) (readComponent nested' condition' p) := by
  unfold readComponent
  split
  · exact .refl _
  · refine .ite (.refl _) (.ite (.refl _) (.ite (.refl _) (.ite (readSelector_below hn p)
      (.ite ?_ (.refl _)))))
    split
    · exact .refl _
    · exact .refl _
    · exact (readEach_below hn _).map _
    · exact readQuery_below hn hc p
    · exact .refl _

theorem readComponents_of_error {p : Place} {e : PathError}
    (h : readComponent nested condition p = .error e) :
    readComponents nested condition p = .error e := by
  rw [readComponents]
  split
  · next hs => rw [h] at hs; cases hs; rfl
  · next hs => rw [h] at hs; cases hs

theorem readRest_descent_of_error {p : Place} {t : Text} (hp : p.rest = '.' :: '.' :: t)
    {e : PathError} (h : readDescent nested (p.skip 2) = .error e) :
    readRest nested condition p = .error e := by
  rw [readRest]
  split
  · next hp' => rw [hp] at hp'; cases hp'
  · next hp' => rw [hp] at hp'; cases hp'
  · next hp' =>
      rw [hp] at hp'
      cases hp'
      rw [if_pos (show ('.' == '.' && '.' == '.') = true from rfl)]
      split
      · next hd => rw [h] at hd; cases hd; rfl
      · next hd => rw [h] at hd; cases hd

/-- Where neither a descent nor a separator with a component comes next, nothing is read inside. -/
theorem readRest_congr {p : Place}
    (h : ∀ c d t, p.rest = c :: d :: t →
      ¬ (c == '.' && d == '.') = true ∧ isSeparator c = false) :
    readRest nested condition p = readRest nested' condition' p := by
  rw [readRest, readRest]
  split
  · rfl
  · rfl
  · next c d t hp =>
      obtain ⟨hdots, hsep⟩ := h c d t hp
      rw [if_neg hdots, if_neg hdots, hsep]
      rfl

mutual

theorem readComponents_below (hn : ∀ p, Below (nested p) (nested' p))
    (hc : ∀ p, Below (condition p) (condition' p)) (p : Place) :
    Below (readComponents nested condition p) (readComponents nested' condition' p) := by
  rcases readComponent_below hn hc p with h | h
  · exact .inl (readComponents_of_error h)
  · cases hread : readComponent nested' condition' p with
    | error e =>
        rw [readComponents_of_error (h.trans hread), readComponents_of_error hread]
        exact .refl _
    | ok found =>
        obtain ⟨s, q⟩ := found
        have hlength := length_of_readComponent hread
        rw [readComponents_of (h.trans hread), readComponents_of hread]
        exact (readRest_below hn hc q).map _
termination_by p.rest.length

theorem readRest_below (hn : ∀ p, Below (nested p) (nested' p))
    (hc : ∀ p, Below (condition p) (condition' p)) (p : Place) :
    Below (readRest nested condition p) (readRest nested' condition' p) := by
  by_cases hgo : ∃ c d t, p.rest = c :: d :: t ∧
      ((c == '.' && d == '.') = true ∨ isSeparator c = true)
  · obtain ⟨c, d, t, hp, hcase⟩ := hgo
    by_cases hdots : (c == '.' && d == '.') = true
    · obtain ⟨rfl, rfl⟩ : c = '.' ∧ d = '.' := by simpa using hdots
      rcases readDescent_below hn (p.skip 2) with h | h
      · exact .inl (readRest_descent_of_error hp h)
      · cases hread : readDescent nested' (p.skip 2) with
        | error e =>
            rw [readRest_descent_of_error hp (h.trans hread), readRest_descent_of_error hp hread]
            exact .refl _
        | ok found =>
            obtain ⟨s, q⟩ := found
            have hlength : q.rest.length < p.rest.length := by
              have := length_of_readDescent hread
              have := p.length_skip_le 2
              omega
            rw [readRest_descent hp (h.trans hread), readRest_descent hp hread]
            exact (readRest_below hn hc q).map _
    · have hlength : (p.skip 1).rest.length < p.rest.length := by
        rw [rest_skip_one hp, hp]
        exact Nat.lt_succ_self _
      have hsep := hcase.resolve_left hdots
      rw [readRest_separator hp hsep hdots, readRest_separator hp hsep hdots]
      exact readComponents_below hn hc (p.skip 1)
  · refine .inr (readRest_congr fun c d t hp => ?_)
    simp only [not_exists, not_and, not_or] at hgo
    obtain ⟨hdots, hsep⟩ := hgo c d t hp
    exact ⟨hdots, Bool.eq_false_iff.2 hsep⟩
termination_by p.rest.length

end

theorem readPath_below (hn : ∀ p, Below (nested p) (nested' p))
    (hc : ∀ p, Below (condition p) (condition' p)) (p : Place) :
    Below (readPath nested condition false p) (readPath nested' condition' false p) := by
  unfold readPath
  split
  · exact .refl _
  · rcases readDescent_below hn (p.skip 2) with h | h
    · left
      rw [if_neg Bool.false_ne_true, h]
    · rw [if_neg Bool.false_ne_true, if_neg Bool.false_ne_true, h]
      cases readDescent nested' (p.skip 2) with
      | error e => exact .refl _
      | ok found => exact (readRest_below hn hc found.2).map _
  · exact readComponents_below hn hc p

/-- Only two dots in front make a difference between the top and inside. -/
theorem readPath_top (nested : PathReader) (condition : ConditionReader) (top : Bool) {p : Place}
    (hdots : ¬ ['.', '.'] <+: p.rest) :
    readPath nested condition top p = readPath nested condition false p := by
  unfold readPath
  split
  · rfl
  · next t ht => exact absurd ⟨t, ht.symm⟩ hdots
  · rfl

end Readers

/-- A level more makes no difference but where the levels do not suffice. -/
theorem within_below (levels : Nat) :
    (∀ p, Below (compileWithin levels false p) (compileWithin (levels + 1) false p)) ∧
      ∀ p, Below (conditionWithin levels p) (conditionWithin (levels + 1) p) := by
  induction levels with
  | zero =>
      constructor
      · intro p
        rw [compileWithin]
        exact .inl rfl
      · intro p
        rw [conditionWithin]
        exact .inl rfl
  | succ levels ih =>
      constructor
      · intro p
        rw [compileWithin, compileWithin]
        exact readPath_below ih.1 ih.2 p
      · intro p
        rw [conditionWithin, conditionWithin]
        exact readCondition_below ih.1 p

/--
A path that compiles and does not begin with two dots is read the same inside another one, wherever
it stands there, unless it nests too deep for that.
-/
theorem compileWithin_below {t : Text} {path : Path} (h : Path.compile t = .ok path)
    (hdots : ¬ ['.', '.'] <+: t) (k : Nat) :
    Below (compileWithin maxNesting false ⟨k, t⟩) (.ok path) := by
  have hne := ne_nil_of_compile h
  have hbelow := (within_below maxNesting).1 ⟨k, t⟩
  have hsteady := within_steady maxNesting
  rw [compile_eq_readPath hne, readPath_top _ _ _ hdots] at h
  have hshift := readPath_steady hsteady.1 hsteady.2 h k
  rw [compileWithin.eq_2, show (Place.mk k t) = (Place.start t).shift k from rfl, hshift] at hbelow
  exact hbelow

end DotPath
