import DotPath.Proofs.Evaluator.Fusion
import DotPath.Proofs.Path.Query
import DotPath.Proofs.Selection.Compare

/-!
# What queries select

A query for all elements that carries no path selects the elements of an array of which its
condition holds, one by one and in their order. So what a query selects is a matter of its condition
alone: comparisons that are joined select what the comparisons select, joined in the same way, and
comparisons of one field by several operators divide the elements among them as the operators divide
the values.

## Main definitions

* `Evaluator.selected`: what a path of one segment, given as text, selects one by one.
* `Splits`: two lists that share nothing and make up a third.

## Main results

* `Evaluator.items_query_nil`: the elements of which a condition holds.
* `Evaluator.joinTerms_selects`: what alternatives of terms select.
* `Evaluator.comparisons_split`: what the operators select from the same elements.
-/

namespace DotPath

open Json

namespace Evaluator

open Selection

/-! ## The elements of which a condition holds -/

section Query

variable {cur : Selection} {c : Condition}

theorem found?_query (ev : Evaluator) (h : cur.isArray = true) (c : Condition) :
    (Collector.query c).found? ev cur = some (cur.elementViews.filter fun e => ev.holds e c) := by
  rw [isArray, Bool.and_eq_true] at h
  rw [Collector.found?, if_pos h.2]

theorem items_query_nil_eq_map (ev : Evaluator) (h : cur.isArray = true) (c : Condition) :
    ev.items cur (.query c true []) =
      (cur.elementViews.filter fun e => ev.holds e c).map cur.derivedFrom := by
  have hfound := fills_of_mem_found (ev.found?_query h c)
  have hresolve : ∀ e : Selection, ev.resolve e [] = e := fun e => by rw [resolve]
  have hpresent : present (cur.elementViews.filter fun e => ev.holds e c) =
      cur.elementViews.filter fun e => ev.holds e c :=
    List.filter_eq_self.2 fun e he => isPresent_of_fills (hfound e he) _ _ _
  rw [items]
  simp only [hresolve, List.map_id']
  rw [hpresent]

/-- One by one, a query selects the elements of an array of which its condition holds. -/
theorem items_query_nil (ev : Evaluator) (h : cur.isArray = true) (c : Condition) :
    ev.items cur (.query c true []) = cur.array.filter fun e => ev.holds e c := by
  have hholds : (fun e => ev.holds e c) ∘ cur.derivedFrom = fun e => ev.holds e c :=
    funext fun e => ev.holds_of_alike c (alike_derivedFrom cur e)
  rw [ev.items_query_nil_eq_map h, array_of_isArray h, List.filter_map, hholds]

/-- The query makes an array of these elements. -/
theorem resolve_query_nil (ev : Evaluator) (h : cur.isArray = true) (c : Condition) :
    ev.resolve cur [.query c true []] = gather (ev.items cur (.query c true [])) := by
  have hstep : ev.step cur (.query c true []) =
      gather (cur.elementViews.filter fun e => ev.holds e c) :=
    ev.step_collector_nil (ev.found?_query h c)
  rw [ev.resolve_singleton cur rfl, if_pos (isPresent_of_isArray h), hstep,
    ev.items_query_nil_eq_map h, gather_map_derivedFrom]

end Query

/-! ## Queries as texts -/

/--
What a path, given as text, selects from a selection one by one, if it is one segment that gathers.
-/
def selected (ev : Evaluator) (cur : Selection) (path : Text) : List Selection :=
  match Path.compile path with
  | .ok [s] => ev.items cur s
  | _ => []

section Texts

variable {cur : Selection} {c : Condition} {path json : Text}

theorem selected_of_compile (ev : Evaluator) (hpath : Path.compile path = .ok [.query c true []])
    (h : cur.isArray = true) : ev.selected cur path = cur.array.filter fun e => ev.holds e c := by
  rw [selected, hpath]
  exact ev.items_query_nil h c

theorem getFrom_eq_gather (ev : Evaluator) (hpath : Path.compile path = .ok [.query c true []])
    (h : cur.isArray = true) : ev.getFrom cur path = gather (ev.selected cur path) := by
  rw [getFrom, selected, hpath]
  exact ev.resolve_query_nil h c

theorem getAll_eq_selected (ev : Evaluator) (hpath : Path.compile path = .ok [.query c true []])
    (h : (document json).isArray = true) :
    ev.getAll json path = ev.selected (document json) path := by
  have hlines : ∀ each, ([] : Path) = [] → Segment.query c true [] ≠ .lines each := by
    intro each _ heq
    cases heq
  have hall : ev.evalAll json ([] ++ [.query c true []]) = _ :=
    ev.evalAll_concat json rfl hlines
  rw [ev.eval_nil, if_pos (isPresent_of_isArray h)] at hall
  rw [getAll, selected, hpath]
  exact hall

theorem get_eq_gather (ev : Evaluator) (hpath : Path.compile path = .ok [.query c true []])
    (h : (document json).isArray = true) : ev.get json path = gather (ev.getAll json path) := by
  have hget : ev.get json path = ev.getFrom (document json) path := by
    rw [get, getFrom, hpath]
    refine ev.eval_of_ne_lines json ?_
    intro each heq
    cases heq
  rw [hget, ev.getFrom_eq_gather hpath h, ev.getAll_eq_selected hpath h]

/-- What a query selects are the elements of which its condition holds. -/
theorem mem_selected_iff (ev : Evaluator) (hpath : Path.compile path = .ok [.query c true []])
    (h : cur.isArray = true) {e : Selection} (he : e ∈ cur.array) :
    e ∈ ev.selected cur path ↔ ev.holds e c = true := by
  rw [ev.selected_of_compile hpath h, List.mem_filter]
  exact and_iff_right he

end Texts

/-! ## Joined conditions -/

theorem holds_joinedFrom_both (ev : Evaluator) (e : Selection) {conditions : List Condition}
    (hne : conditions ≠ []) :
    ev.holds e (joinedFrom .both conditions) = true ↔ ∀ c ∈ conditions, ev.holds e c = true := by
  obtain ⟨first, rest, rfl⟩ := List.exists_cons_of_ne_nil hne
  show ev.holds e (rest.foldl .both first) = true ↔ _
  induction rest generalizing first with
  | nil => rw [List.foldl_nil, List.forall_mem_singleton]
  | cons c rest ih =>
      rw [List.foldl_cons, ih _ (List.cons_ne_nil _ _), List.forall_mem_cons, List.forall_mem_cons,
        List.forall_mem_cons, holds, Bool.and_eq_true, and_assoc]

theorem holds_joinedFrom_either (ev : Evaluator) (e : Selection) {conditions : List Condition}
    (hne : conditions ≠ []) :
    ev.holds e (joinedFrom .either conditions) = true ↔
      ∃ c ∈ conditions, ev.holds e c = true := by
  obtain ⟨first, rest, rfl⟩ := List.exists_cons_of_ne_nil hne
  show ev.holds e (rest.foldl .either first) = true ↔ _
  induction rest generalizing first with
  | nil => simp only [List.foldl_nil, List.mem_singleton, exists_eq_left]
  | cons c rest ih =>
      rw [List.foldl_cons, ih _ (List.cons_ne_nil _ _), List.exists_mem_cons_iff,
        List.exists_mem_cons_iff, List.exists_mem_cons_iff, holds, Bool.or_eq_true, or_assoc]

section Terms

variable {alternatives : List (List Text)}

/-- Joined terms hold where all terms of an alternative do. -/
theorem holds_joinTerms (ev : Evaluator) (e : Selection) (hne : alternatives ≠ [])
    (hterms : ∀ terms ∈ alternatives, terms ≠ []) :
    ev.holds e (joinedFrom .either (alternatives.map fun terms =>
        joinedFrom .both (terms.map Path.conditionOf))) = true ↔
      ∃ terms ∈ alternatives, ∀ t ∈ terms, ev.holds e (Path.conditionOf t) = true := by
  rw [ev.holds_joinedFrom_either e (by simpa using hne)]
  simp only [List.mem_map, exists_exists_and_eq_and]
  refine exists_congr fun terms => and_congr_right fun hmem => ?_
  rw [ev.holds_joinedFrom_both e (by simpa using hterms terms hmem), List.forall_mem_map]

/-- From an array, joined terms select the elements that all terms of an alternative select. -/
theorem selected_joinTerms (ev : Evaluator) {cur : Selection} (h : cur.isArray = true)
    (hne : alternatives ≠ []) (hterms : ∀ terms ∈ alternatives, terms ≠ [])
    (hmarks : ∀ terms ∈ alternatives, ∀ t ∈ terms, ∀ c ∈ t, c ∉ conditionMarks)
    (hcompile : ∀ terms ∈ alternatives, ∀ t ∈ terms, ∃ path,
      Path.compile (Path.allWhere t) = .ok path) :
    ev.selected cur (Path.allWhere (Path.joinTerms alternatives)) =
      cur.array.filter fun e => ∃ terms ∈ alternatives, ∀ t ∈ terms,
        e ∈ ev.selected cur (Path.allWhere t) := by
  rw [ev.selected_of_compile (compile_joinTerms hne hterms hmarks hcompile) h]
  refine List.filter_congr fun e he => ?_
  rw [Bool.eq_iff_iff, ev.holds_joinTerms e hne hterms, decide_eq_true_eq]
  refine exists_congr fun terms => and_congr_right fun hmem => forall₂_congr fun t ht => ?_
  have hterm := (readComparison_of_compile (hmarks terms hmem t ht) (hcompile terms hmem t ht)).1
  exact (ev.mem_selected_iff hterm h he).symm

/--
Terms that each compile alone, and that hold no bracket, quote, backslash, bar or ampersand, may be
joined by double ampersands, and such alternatives by double bars. The query with all of them
compiles. From every array it selects, in order, exactly the elements for which there is an
alternative all of whose terms select the element when they are used alone. The array that the query
makes is the array of these elements. This holds of documents and of every other array.
-/
theorem joinTerms_selects (hne : alternatives ≠ []) (hterms : ∀ terms ∈ alternatives, terms ≠ [])
    (hmarks : ∀ terms ∈ alternatives, ∀ t ∈ terms, ∀ c ∈ t, c ∉ conditionMarks)
    (hcompile : ∀ terms ∈ alternatives, ∀ t ∈ terms, ∃ path,
      Path.compile (Path.allWhere t) = .ok path) :
    (∃ path, Path.compile (Path.allWhere (Path.joinTerms alternatives)) = .ok path) ∧
      ∀ ev : Evaluator,
        (∀ json, (document json).isArray = true →
          ev.getAll json (Path.allWhere (Path.joinTerms alternatives)) =
              ((document json).array.filter fun e => ∃ terms ∈ alternatives, ∀ t ∈ terms,
                e ∈ ev.getAll json (Path.allWhere t)) ∧
            ev.get json (Path.allWhere (Path.joinTerms alternatives)) =
              gather (ev.getAll json (Path.allWhere (Path.joinTerms alternatives)))) ∧
        ∀ cur, cur.isArray = true →
          ev.selected cur (Path.allWhere (Path.joinTerms alternatives)) =
              (cur.array.filter fun e => ∃ terms ∈ alternatives, ∀ t ∈ terms,
                e ∈ ev.selected cur (Path.allWhere t)) ∧
            ev.getFrom cur (Path.allWhere (Path.joinTerms alternatives)) =
              gather (ev.selected cur (Path.allWhere (Path.joinTerms alternatives))) := by
  have hjoined := compile_joinTerms hne hterms hmarks hcompile
  refine ⟨⟨_, hjoined⟩, fun ev => ⟨fun json h => ⟨?_, ev.get_eq_gather hjoined h⟩,
    fun cur h => ⟨?_, ev.getFrom_eq_gather hjoined h⟩⟩⟩
  · rw [ev.getAll_eq_selected hjoined h,
      ev.selected_joinTerms h hne hterms hmarks hcompile]
    refine List.filter_congr fun e _ => ?_
    rw [decide_eq_decide]
    refine exists_congr fun terms => and_congr_right fun hmem => forall₂_congr fun t ht => ?_
    have hterm :=
      (readComparison_of_compile (hmarks terms hmem t ht) (hcompile terms hmem t ht)).1
    rw [ev.getAll_eq_selected hterm h]
  · exact ev.selected_joinTerms h hne hterms hmarks hcompile

/-- The ampersands bind tighter than the bars. -/
theorem joinTerms_selects_of_three_terms :
    Path.allWhere (Path.joinTerms [[['a'], ['b', '=', '=', 'x']], [['c']]]) =
        "#(a&&b==x||c)#".toList ∧
      (document "[\x7b\"c\":0\x7d,\x7b\"a\":1\x7d,\x7b\"a\":1,\"b\":\"x\"\x7d]".toList).isArray =
        true ∧
      (∃ path, Path.compile "#(a&&b==x||c)#".toList = .ok path) ∧
      (Evaluator.getAll ⟨⟨true, 256⟩, fun _ => none⟩
        "[\x7b\"c\":0\x7d,\x7b\"a\":1\x7d,\x7b\"a\":1,\"b\":\"x\"\x7d]".toList
        "#(a&&b==x||c)#".toList).map (·.raw) =
          ["\x7b\"c\":0\x7d".toList, "\x7b\"a\":1,\"b\":\"x\"\x7d".toList] := by
  have hne : [[['a'], ['b', '=', '=', 'x']], [['c']]] ≠ [] := List.cons_ne_nil _ _
  have hterms : ∀ terms ∈ [[['a'], ['b', '=', '=', 'x']], [['c']]], terms ≠ [] := by
    simp
  have hmarks : ∀ terms ∈ [[['a'], ['b', '=', '=', 'x']], [['c']]],
      ∀ t ∈ terms, ∀ c ∈ t, c ∉ conditionMarks := by
    simp [conditionMarks, groupMarks]
  have hcompile : ∀ terms ∈ [[['a'], ['b', '=', '=', 'x']], [['c']]], ∀ t ∈ terms,
      ∃ path, Path.compile (Path.allWhere t) = .ok path := by
    have ha : Path.compile (Path.allWhere ['a']) =
        .ok [.query (.holds [.field ['a']]) true []] := by with_unfolding_all rfl
    have hb : Path.compile (Path.allWhere ['b', '=', '=', 'x']) =
        .ok [.query (.compare [.field ['b']] .equal (.text ['x'])) true []] := by
      with_unfolding_all rfl
    have hc : Path.compile (Path.allWhere ['c']) =
        .ok [.query (.holds [.field ['c']]) true []] := by with_unfolding_all rfl
    simp only [List.forall_mem_cons, List.not_mem_nil, false_imp_iff, implies_true, and_true]
    exact ⟨⟨⟨_, ha⟩, ⟨_, hb⟩⟩, ⟨_, hc⟩⟩
  have harray : (document
      "[\x7b\"c\":0\x7d,\x7b\"a\":1\x7d,\x7b\"a\":1,\"b\":\"x\"\x7d]".toList).isArray = true := by
    decide +kernel
  have htext : Path.allWhere (Path.joinTerms [[['a'], ['b', '=', '=', 'x']], [['c']]]) =
      "#(a&&b==x||c)#".toList := by decide +kernel
  have h := joinTerms_selects hne hterms hmarks hcompile
  have hall := ((h.2 ⟨⟨true, 256⟩, fun _ => none⟩).1 _ harray).1
  rw [htext] at h hall
  refine ⟨htext, harray, h.1, ?_⟩
  rw [hall]
  decide +kernel

end Terms

end Evaluator

/-! ## Comparisons by several operators -/

/-- Two lists share nothing, and together they are a third, in whose order each of them is. -/
structure Splits {α : Type} (left right whole : List α) : Prop where
  disjoint : left.Disjoint right
  perm : (left ++ right).Perm whole
  sublist_left : left.Sublist whole
  sublist_right : right.Sublist whole

/-- Tests that never both succeed split what one of them lets through. -/
theorem splits_filter {α : Type} {p q r : α → Bool} (hor : ∀ a, r a = (p a || q a))
    (hand : ∀ a, p a = true → q a = false) (whole : List α) :
    Splits (whole.filter p) (whole.filter q) (whole.filter r) := by
  have hleft : whole.filter p = (whole.filter r).filter p := by
    rw [List.filter_filter]
    refine List.filter_congr fun a _ => ?_
    rw [hor]
    cases p a <;> rfl
  have hright : whole.filter q = (whole.filter r).filter fun a => !p a := by
    rw [List.filter_filter]
    refine List.filter_congr fun a _ => ?_
    rw [hor]
    cases hp : p a with
    | true => exact hand a hp
    | false => rfl
  refine ⟨?_, ?_, ?_, ?_⟩
  · intro a hp hq
    have hfalse := hand a (List.mem_filter.1 hp).2
    rw [(List.mem_filter.1 hq).2] at hfalse
    cases hfalse
  · rw [hleft, hright]
    exact List.filter_append_perm p (whole.filter r)
  · rw [hleft]
    exact List.filter_sublist
  · rw [hright]
    exact List.filter_sublist

theorem splits_within {α : Type} {p r : α → Bool} (h : ∀ a, p a = true → r a = true)
    (whole : List α) :
    Splits (whole.filter p) (whole.filter fun a => r a && !p a) (whole.filter r) := by
  refine splits_filter (fun a => ?_) (fun a hp => ?_) whole
  · cases hp : p a with
    | true => rw [h a hp]; rfl
    | false => rw [Bool.not_false, Bool.and_true, Bool.false_or]
  · rw [hp, Bool.not_true, Bool.and_false]

theorem splits_not {α : Type} (p : α → Bool) (whole : List α) :
    Splits (whole.filter p) (whole.filter fun a => !p a) whole := by
  have h := splits_within (fun a (_ : p a = true) => (rfl : (fun _ => true) a = true)) whole
  simpa only [Bool.true_and, List.filter_true] using h

namespace Evaluator

open Selection

/-- The texts of the operands that ask for a property. -/
def tildeTokens : List Text :=
  ["~true".toList, "~false".toList, "~null".toList, "~*".toList]

theorem of_ite_eq_ok {ε α : Type} {c : Prop} [Decidable c] {x y : Except ε α} {a : α} {P : Prop}
    (h : (if c then x else y) = .ok a) (hx : c → x = .ok a → P) (hy : ¬c → y = .ok a → P) : P := by
  split at h
  · next hc => exact hx hc h
  · next hc => exact hy hc h

/-- An operand asks for a property exactly if it is written as one of these. -/
theorem isTilde_of_readOperand {p : Place} {operand : Operand} (h : readOperand p = .ok operand) :
    operand.isTilde = true ↔ p.rest ∈ tildeTokens := by
  have htoken : ∀ {token : Text} {t : Tilde}, token ∈ tildeTokens → (p.rest == token) = true →
      Except.ok (.tilde t) = (.ok operand : Except PathError Operand) →
        (operand.isTilde = true ↔ p.rest ∈ tildeTokens) := by
    intro token t htoken hrest heq
    cases heq
    rw [beq_iff_eq.1 hrest]
    exact iff_of_true rfl htoken
  have hok : ∀ {value : Operand}, value.isTilde = false →
      Except.ok value = (.ok operand : Except PathError Operand) → operand.isTilde = false := by
    intro value hvalue heq
    cases heq
    exact hvalue
  have hfail : ∀ {e : PathError},
      Except.error e = (.ok operand : Except PathError Operand) → operand.isTilde = false := by
    intro e heq
    cases heq
  unfold readOperand at h
  -- The four tokens come first.
  refine of_ite_eq_ok h (htoken (by simp [tildeTokens])) fun htrue h => ?_
  refine of_ite_eq_ok h (htoken (by simp [tildeTokens])) fun hfalse h => ?_
  refine of_ite_eq_ok h (htoken (by simp [tildeTokens])) fun hnull h => ?_
  refine of_ite_eq_ok h (htoken (by simp [tildeTokens])) fun hany h => ?_
  have hnone : p.rest ∉ tildeTokens := by
    simp only [tildeTokens, List.mem_cons, List.not_mem_nil, or_false, not_or]
    simp only [beq_iff_eq] at htrue hfalse hnull hany
    exact ⟨htrue, hfalse, hnull, hany⟩
  suffices hvalue : operand.isTilde = false by
    rw [hvalue]
    exact iff_of_false Bool.false_ne_true hnone
  -- Whatever else is read is a value.
  refine of_ite_eq_ok h (fun _ => hok rfl) fun _ h => ?_
  refine of_ite_eq_ok h (fun _ => hok rfl) fun _ h => ?_
  refine of_ite_eq_ok h (fun _ => hok rfl) fun _ h => ?_
  refine of_ite_eq_ok h (fun _ => hfail) fun _ h => ?_
  refine of_ite_eq_ok h (fun _ h => ?_) fun _ h => of_ite_eq_ok h (fun _ h => ?_) fun _ => hok rfl
  · split at h
    · cases h
    · exact of_ite_eq_ok h (fun _ => hok rfl) fun _ => hfail
  · split at h
    · exact hok rfl h
    · exact hok rfl h

/-- The elements of an array whose field compares with an operand as an operator says. -/
def comparing (ev : Evaluator) (cur : Selection) (field : Path) (operand : Operand)
    (operator : Operator) : List Selection :=
  ev.items cur (.query (.compare field operator operand) true [])

section Comparisons

variable {cur : Selection} {operand : Operand}

theorem comparing_eq (ev : Evaluator) (h : cur.isArray = true) (field : Path) (operand : Operand)
    (operator : Operator) :
    ev.comparing cur field operand operator =
      cur.array.filter fun e => (ev.resolve e field).meets operator operand := by
  rw [comparing, ev.items_query_nil h]
  exact List.filter_congr fun e _ => by rw [holds]

/-- An operator and its negation split the elements that have the field. -/
theorem comparing_negation (ev : Evaluator) (h : cur.isArray = true) (field : Path)
    (hoperand : operand.isTilde = false) :
    Splits (ev.comparing cur field operand .equal) (ev.comparing cur field operand .notEqual)
        (cur.array.filter fun e => (ev.resolve e field).isPresent) ∧
      Splits (ev.comparing cur field operand .like) (ev.comparing cur field operand .unlike)
        (cur.array.filter fun e => (ev.resolve e field).isPresent) := by
  simp only [ev.comparing_eq h, meets_notEqual hoperand, meets_unlike hoperand]
  exact ⟨splits_within (fun e => isPresent_of_meets hoperand) cur.array,
    splits_within (fun e => isPresent_of_meets hoperand) cur.array⟩

/-- What comes before the operand, equals it and comes after it are different elements. -/
theorem comparing_order (ev : Evaluator) (h : cur.isArray = true) (field : Path)
    (hoperand : operand.isTilde = false) :
    Splits (ev.comparing cur field operand .less) (ev.comparing cur field operand .equal)
        (ev.comparing cur field operand .lessEqual) ∧
      Splits (ev.comparing cur field operand .greater) (ev.comparing cur field operand .equal)
        (ev.comparing cur field operand .greaterEqual) ∧
      (ev.comparing cur field operand .less).Disjoint
        (ev.comparing cur field operand .greater) := by
  simp only [ev.comparing_eq h]
  refine ⟨splits_filter (fun e => meets_lessEqual hoperand)
      (fun e => (meets_exclusive hoperand).1) _,
    splits_filter (fun e => meets_greaterEqual hoperand)
      (fun e => (meets_exclusive hoperand).2.1) _, ?_⟩
  intro e hless hgreater
  have hfalse := (meets_exclusive hoperand).2.2 (List.mem_filter.1 hless).2
  rw [(List.mem_filter.1 hgreater).2] at hfalse
  cases hfalse

/-- Properties are of what is missing too. -/
theorem comparing_tilde (ev : Evaluator) (h : cur.isArray = true) (field : Path) :
    (∀ t : Tilde, Splits (ev.comparing cur field (.tilde t) .equal)
        (ev.comparing cur field (.tilde t) .notEqual) cur.array) ∧
      Splits (ev.comparing cur field (.tilde .true) .equal)
        (ev.comparing cur field (.tilde .false) .equal) cur.array := by
  simp only [ev.comparing_eq h, meets_notEqual_tilde, meets_tilde_false]
  exact ⟨fun t => splits_not _ cur.array, splits_not _ cur.array⟩

/--
From every array, for every field and every value that it is compared with, "equal" and "not equal"
select disjoint elements, which together are those that have the field, and so do "like" and
"unlike". "Less", "equal" and "greater" select disjoint elements; "less or equal" selects those of
the first two and "greater or equal" those of the last two. The operators that order select no
element whose field is missing or of another kind than the value. If the operand asks for a property
instead, "equal" and "not equal" split all elements, and so do being true and not being true. These
are the operands that are written as one of the four tokens for properties.

Nothing is assumed of numbers: one that does not compare at all is neither less nor greater than any
other, and not equal to it.
-/
theorem comparisons_split (ev : Evaluator) (h : cur.isArray = true) (field : Path) :
    (∀ operand : Operand, operand.isTilde = false →
      Splits (ev.comparing cur field operand .equal) (ev.comparing cur field operand .notEqual)
          (cur.array.filter fun e => (ev.resolve e field).isPresent) ∧
        Splits (ev.comparing cur field operand .like) (ev.comparing cur field operand .unlike)
          (cur.array.filter fun e => (ev.resolve e field).isPresent) ∧
        Splits (ev.comparing cur field operand .less) (ev.comparing cur field operand .equal)
          (ev.comparing cur field operand .lessEqual) ∧
        Splits (ev.comparing cur field operand .greater) (ev.comparing cur field operand .equal)
          (ev.comparing cur field operand .greaterEqual) ∧
        (ev.comparing cur field operand .less).Disjoint
          (ev.comparing cur field operand .greater)) ∧
      (∀ (operand : Operand) (operator : Operator), operator.orders = true → ∀ e ∈ cur.array,
        (ev.resolve e field).isPresent = false ∨
            operand.isOfKind (ev.resolve e field).kind = false →
          e ∉ ev.comparing cur field operand operator) ∧
      (∀ t : Tilde, Splits (ev.comparing cur field (.tilde t) .equal)
        (ev.comparing cur field (.tilde t) .notEqual) cur.array) ∧
      Splits (ev.comparing cur field (.tilde .true) .equal)
        (ev.comparing cur field (.tilde .false) .equal) cur.array ∧
      ∀ p operand, readOperand p = .ok operand →
        (operand.isTilde = true ↔ p.rest ∈ tildeTokens) := by
  obtain ⟨htilde, htruth⟩ := ev.comparing_tilde h field
  refine ⟨fun operand hoperand => ?_, fun operand operator horders e _ hnone hmem => ?_, htilde,
    htruth, fun p operand => isTilde_of_readOperand⟩
  · obtain ⟨hequal, hlike⟩ := ev.comparing_negation h field hoperand
    exact ⟨hequal, hlike, ev.comparing_order h field hoperand⟩
  · rw [ev.comparing_eq h] at hmem
    have hfalse := meets_orders horders hnone
    rw [(List.mem_filter.1 hmem).2] at hfalse
    cases hfalse

/-- The element without the field is selected by neither, and the null only by "not equal". -/
theorem comparisons_split_of_three_elements :
    (document "[\x7b\"a\":\"x\"\x7d,\x7b\x7d,\x7b\"a\":null\x7d]".toList).isArray = true ∧
      (Operand.text ['x']).isTilde = false ∧
      ∃ equal notEqual whole : List Selection, Splits equal notEqual whole ∧
        equal.map (·.raw) = ["\x7b\"a\":\"x\"\x7d".toList] ∧
        notEqual.map (·.raw) = ["\x7b\"a\":null\x7d".toList] ∧
        whole.map (·.raw) = ["\x7b\"a\":\"x\"\x7d".toList, "\x7b\"a\":null\x7d".toList] := by
  have harray : (document
      "[\x7b\"a\":\"x\"\x7d,\x7b\x7d,\x7b\"a\":null\x7d]".toList).isArray = true := by
    decide +kernel
  have h := (comparisons_split ⟨⟨true, 256⟩, fun _ => none⟩ harray [.field ['a']]).1
    (.text ['x']) rfl
  refine ⟨harray, rfl, _, _, _, h.1, ?_, ?_, ?_⟩
  · decide +kernel
  · decide +kernel
  · decide +kernel

end Comparisons

end Evaluator

end DotPath
