import DotPath.Proofs.Json.Closure

/-!
# Values as the scan for extents takes them

The scan takes more texts for values than the strict grammar does. This file gives its grammar in
full: zeros may stand in front of a number, a string may hold anything as long as its quotes are
told apart by backslashes, and in a container only strings and brackets count. A bracket closes any
bracket, and what is between them need not be values at all.

## Main definitions

* `IsBalanced`: a text with its strings closed and its brackets in balance.
* `IsLoose`: the values of the lenient grammar.

## Main results

* `isLoose_iff`: they are the texts that the scan takes whole.
* `IsNumeral.isNumber_iff`: what makes a number strict.
* `IsLoose.wellFormed_iff`: which of them are well-formed.
-/

namespace DotPath.Json

/-! ## Text in balance -/

/-- A text in which every string is closed and every bracket has its partner, of whatever shape. -/
inductive IsBalanced : Text → Prop where
  | nil : IsBalanced []
  | neutral {c : Char} {t : Text} : isNeutral c → IsBalanced t → IsBalanced (c :: t)
  | string {body t : Text} : IsRun body → IsBalanced t → IsBalanced ('"' :: (body ++ '"' :: t))
  | brackets {o c : Char} {inside t : Text} : isOpening o → IsBalanced inside → isClosing c →
      IsBalanced t → IsBalanced (o :: (inside ++ c :: t))

theorem IsBalanced.passes {t : Text} (h : IsBalanced t) : Passes t := by
  induction h with
  | nil => exact passes_nil
  | neutral hc _ ih => exact (passes_singleton hc).append ih
  | @string body t hbody _ ih =>
      have happend := hbody.passes.append ih
      rwa [List.cons_append, List.append_assoc] at happend
  | @brackets o c inside t ho _ hc _ ihinside ih =>
      have happend := ((ihinside.closes hc).passes_cons ho).append ih
      rwa [List.cons_append, List.append_assoc] at happend

/-- A text that closes `e` brackets, the last one with its last character. -/
inductive ClosesBrackets : Nat → Text → Prop where
  | last {c : Char} {inside : Text} : IsBalanced inside → isClosing c →
      ClosesBrackets 1 (inside ++ [c])
  | more {e : Nat} {c : Char} {inside t : Text} : IsBalanced inside → isClosing c →
      ClosesBrackets e t → ClosesBrackets (e + 1) (inside ++ c :: t)

namespace ClosesBrackets

variable {e : Nat} {t : Text}

/-- Balanced text in front joins what comes before the first bracket. -/
theorem balanced_append {s : Text} (hs : ∀ {t}, IsBalanced t → IsBalanced (s ++ t))
    (h : ClosesBrackets e t) : ClosesBrackets e (s ++ t) := by
  cases h with
  | last hinside hc =>
      rw [← List.append_assoc]
      exact .last (hs hinside) hc
  | more hinside hc ht =>
      rw [← List.append_assoc]
      exact .more (hs hinside) hc ht

theorem neutral {c : Char} (hc : isNeutral c) (h : ClosesBrackets e t) :
    ClosesBrackets e (c :: t) :=
  h.balanced_append (s := [c]) (.neutral hc)

theorem string {body : Text} (hbody : IsRun body) (h : ClosesBrackets e t) :
    ClosesBrackets e ('"' :: (body ++ '"' :: t)) := by
  have happend := h.balanced_append (s := '"' :: (body ++ ['"'])) fun ht => by
    rw [List.cons_append, List.append_assoc]
    exact .string hbody ht
  rwa [List.cons_append, List.append_assoc] at happend

/-- A bracket that opens is the partner of the first that closes. -/
theorem opening {o : Char} (ho : isOpening o) (he : 0 < e) (h : ClosesBrackets (e + 1) t) :
    ClosesBrackets e (o :: t) := by
  cases h with
  | last => exact absurd he (Nat.lt_irrefl 0)
  | @more _ c inside t hinside hc ht =>
      have happend := ht.balanced_append (s := o :: (inside ++ [c])) fun ht => by
        rw [List.cons_append, List.append_assoc]
        exact .brackets ho hinside hc ht
      rwa [List.cons_append, List.append_assoc] at happend

theorem closing {c : Char} (hc : isClosing c) (h : ClosesBrackets e t) :
    ClosesBrackets (e + 1) (c :: t) :=
  .more .nil hc h

end ClosesBrackets

/-- The rest of a container, `e` brackets being open, from where its scan stands. -/
def Finishes (e : Nat) : Mode → Text → Prop
  | .plain, run => ClosesBrackets e run
  | .quoted, run => ∃ body rest, run = body ++ '"' :: rest ∧ IsRun body ∧ ClosesBrackets e rest
  | .escaped, run =>
    ∃ c body rest, run = c :: (body ++ '"' :: rest) ∧ IsRun body ∧ ClosesBrackets e rest

/-- Where the scan of a container ends with the last character, all brackets are closed there. -/
theorem finishes_of_containerEnd {e n : Nat} {mode : Mode} {run : Text} (he : 0 < e)
    (h : containerEnd e mode n run = some (n + run.length)) : Finishes e mode run := by
  induction run generalizing e n mode with
  | nil => cases h
  | cons c run ih =>
      have hlength : n + (c :: run).length = n + 1 + run.length := by
        rw [List.length_cons]
        omega
      rw [hlength] at h
      cases mode with
      | escaped =>
          obtain ⟨body, rest, rfl, hbody, hrest⟩ := ih he h
          exact ⟨c, body, rest, rfl, hbody, hrest⟩
      | quoted =>
          rw [containerEnd] at h
          split at h
          · next hquote =>
              obtain rfl := beq_iff_eq.1 hquote
              exact ⟨[], run, rfl, .nil, ih he h⟩
          · next hquote =>
              split at h
              · next hslash =>
                  obtain rfl := beq_iff_eq.1 hslash
                  obtain ⟨d, body, rest, rfl, hbody, hrest⟩ := ih he h
                  exact ⟨'\\' :: d :: body, rest, rfl, .escaped d hbody, hrest⟩
              · next hslash =>
                  obtain ⟨body, rest, rfl, hbody, hrest⟩ := ih he h
                  exact ⟨c :: body, rest, rfl,
                    .plain (by simpa using hquote) (by simpa using hslash) hbody, hrest⟩
      | plain =>
          rw [containerEnd] at h
          split at h
          · next hquote =>
              obtain rfl := beq_iff_eq.1 hquote
              obtain ⟨body, rest, rfl, hbody, hrest⟩ := ih he h
              exact hrest.string hbody
          · next hquote =>
              split at h
              · next ho => exact (ih (Nat.succ_pos e) h).opening ho he
              · next ho =>
                  split at h
                  · next hc =>
                      split at h
                      · next hone =>
                          obtain rfl : e = 1 := by omega
                          obtain rfl : run = [] := by
                            rw [Option.some.injEq] at h
                            exact List.length_eq_zero_iff.1 (by omega)
                          exact .last .nil hc
                      · next hmore =>
                          obtain ⟨d, rfl⟩ := Nat.exists_eq_succ_of_ne_zero (Nat.ne_of_gt he)
                          exact (ih (by omega) h).closing hc
                  · next hc =>
                      have hneutral : isNeutral c = true := by
                        rw [Bool.not_eq_true] at hquote ho hc
                        rw [isNeutral, bne, hquote, ho, hc]
                        rfl
                      exact (ih he h).neutral hneutral

/-! ## Values -/

/-- The values of the lenient grammar, by their form. -/
inductive IsLoose : Text → Prop where
  | nullWord : IsLoose ['n', 'u', 'l', 'l']
  | falseWord : IsLoose ['f', 'a', 'l', 's', 'e']
  | trueWord : IsLoose ['t', 'r', 'u', 'e']
  | number {t : Text} : IsNumeral t → IsLoose t
  | string {body : Text} : IsRun body → IsLoose ('"' :: (body ++ ['"']))
  | container {o c : Char} {inside : Text} : isOpening o → IsBalanced inside → isClosing c →
      IsLoose (o :: (inside ++ [c]))

variable {t : Text}

/-- They are the texts that the scan takes for one value, from the first character to the last. -/
theorem isLoose_iff : IsLoose t ↔ ∃ kind, Fills kind t := by
  constructor
  · intro h
    cases h with
    | nullWord => exact ⟨_, .nullWord⟩
    | falseWord => exact ⟨_, .falseWord⟩
    | trueWord => exact ⟨_, .trueWord⟩
    | number h => exact ⟨_, .number h⟩
    | string h => exact ⟨_, .string h⟩
    | container ho hinside hc => exact ⟨_, .container ho (hinside.passes.closes hc)⟩
  · rintro ⟨kind, h⟩
    cases h with
    | nullWord => exact .nullWord
    | falseWord => exact .falseWord
    | trueWord => exact .trueWord
    | number h => exact .number h
    | string h => exact .string h
    | @container o run ho hrun =>
        have hends := hrun.ends 0 []
        rw [List.append_nil] at hends
        have hcloses : ClosesBrackets 1 run := finishes_of_containerEnd Nat.one_pos hends
        cases hcloses with
        | last hinside hc => exact .container ho hinside hc
        | more _ _ ht => nomatch ht

theorem IsValue.isLoose (h : IsValue t) : IsLoose t := by
  obtain ⟨u, rfl⟩ := h
  exact isLoose_iff.2 ⟨u.kind, u.fills⟩

/-! ## What makes them strict -/

/-- The kind is that of the text. -/
theorem Fills.kind_unique {kind kind' : Kind} (h : Fills kind t) (h' : Fills kind' t) :
    kind = kind' := by
  have heq := fills_iff.1 h
  rw [fills_iff.1 h', Option.some.injEq, Prod.mk.injEq] at heq
  exact heq.1.symm

/-- A lenient value has no space around it, so that it is well-formed only as a value. -/
theorem IsLoose.wellFormed_iff (h : IsLoose t) : wellFormed none t = true ↔ IsValue t := by
  rw [← isDocument_iff]
  refine ⟨fun ⟨d, hd⟩ => ?_, IsValue.isDocument⟩
  obtain ⟨kind, hfills⟩ := isLoose_iff.1 h
  have hfirst := d.firstValue?_source
  rw [hd, hfills.firstValue?, Option.some.injEq, Occurrence.mk.injEq] at hfirst
  exact ⟨d.root, hfirst.2.2.symm⟩

/-- What is no container is strict as a scalar. -/
theorem Fills.isValue_iff {kind : Kind} (h : Fills kind t) (hkind : kind ≠ .container) :
    IsValue t ↔ IsScalar kind t := by
  refine ⟨fun ⟨u, hu⟩ => ?_, fun hscalar => ⟨.scalar kind t hscalar, rfl⟩⟩
  subst hu
  have hsame := u.fills.kind_unique h
  cases u with
  | scalar kind' raw spelled => exact hsame ▸ spelled
  | emptyArray | array | emptyObject | object => exact absurd hsame.symm hkind

/-- A number is strict unless it has a zero too many in front. -/
theorem IsNumeral.isNumber_iff (h : IsNumeral t) : IsNumber t ↔ hasLeadingZero t = false := by
  have hend := h.numberEnd?_append (lacks_nil extendsNumber)
  rw [List.append_nil] at hend
  constructor
  · intro hnumber
    have hafter := hnumber.afterNumber?_append (lacks_nil extendsNumber)
    rw [List.append_nil, afterNumber?] at hafter
    split at hafter
    · cases hafter
    · next hzero => exact Bool.eq_false_iff.2 hzero
  · intro hzero
    have hafter : afterNumber? t = some [] := by
      rw [afterNumber?, hzero, hend]
      simp
    obtain ⟨number, hnumber, heq⟩ := isNumber_of_afterNumber? hafter
    rwa [heq, List.append_nil]

/-- A string is strict if what stands between its quotes is. -/
theorem isScalar_string_iff {body : Text} :
    IsScalar .string ('"' :: (body ++ ['"'])) ↔ IsBody body := by
  refine ⟨fun h => ?_, .string⟩
  generalize hquoted : '"' :: (body ++ ['"']) = quoted at h
  cases h with
  | string hbody =>
      obtain rfl := List.append_cancel_right (List.cons.inj hquoted).2
      exact hbody

theorem IsNumeral.wellFormed_iff (h : IsNumeral t) :
    wellFormed none t = true ↔ hasLeadingZero t = false := by
  calc
    _ ↔ IsValue t := (IsLoose.number h).wellFormed_iff
    _ ↔ IsScalar .number t := (Fills.number h).isValue_iff nofun
    _ ↔ IsNumber t := ⟨fun | .number hnumber => hnumber, .number⟩
    _ ↔ _ := h.isNumber_iff

theorem IsRun.wellFormed_iff {body : Text} (h : IsRun body) :
    wellFormed none ('"' :: (body ++ ['"'])) = true ↔ IsBody body := by
  calc
    _ ↔ IsValue ('"' :: (body ++ ['"'])) := (IsLoose.string h).wellFormed_iff
    _ ↔ IsScalar .string ('"' :: (body ++ ['"'])) := (Fills.string h).isValue_iff nofun
    _ ↔ _ := isScalar_string_iff

end DotPath.Json
