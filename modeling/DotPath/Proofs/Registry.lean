import Mathlib.Data.List.Induction
import Mathlib.Data.List.Nodup
import Mathlib.Data.List.Pairwise
import DotPath.Proofs.Text.Order
import DotPath.Registry

/-!
# Registries as layered maps

A registry starts out empty and is changed by registering and unregistering. What a name leads to
depends on the last change under that name alone: if it registers a transformer, that one stands;
otherwise the built-in transformer with the name shows through, if there is one. The built-in
transformers share no names, so it makes no difference in which order they are looked through.

The questions that a registry answers are read off two lists, one for each layer. They agree with
one another in every registry, however it came about.

## Main definitions

* `Registry.after`: the registry after a sequence of changes.
* `Registry.Stands`: the last change under a name registers a transformer.

## Main results

* `lookup_change`, `lookup_after_iff`: the own transformers after one change, and after a sequence.
* `contains_eq`, `mem_names_iff`, `pairwise_names`: the questions for names.
* `after_layers`: a registry as a map in two layers, after any changes.
-/

namespace DotPath

namespace Builtin

/-- No name belongs to two built-in transformers. -/
theorem nodup_names : (all.flatMap names).Nodup := by
  decide +kernel

/-- So a name leads to the built-in transformer that has it. -/
theorem find?_eq_some_iff {name : Text} {b : Builtin} :
    find? name = some b ↔ b ∈ all ∧ name ∈ b.names := by
  have hnames : ∀ {b}, find? name = some b → b ∈ all ∧ name ∈ b.names := by
    intro b h
    have hname := List.find?_some h
    exact ⟨List.mem_of_find?_eq_some h, by simpa using hname⟩
  refine ⟨hnames, fun ⟨hb, hname⟩ => ?_⟩
  have hsome : (find? name).isSome = true :=
    List.find?_isSome.2 ⟨b, hb, by simpa using hname⟩
  obtain ⟨b', hfind⟩ := Option.isSome_iff_exists.1 hsome
  obtain ⟨hb', hname'⟩ := hnames hfind
  have hsymm : Std.Symm fun b b' : Builtin => List.Disjoint b.names b'.names :=
    ⟨fun _ _ h _ hname hname' => h hname' hname⟩
  have hdisjoint : all.Pairwise fun b b' => List.Disjoint b.names b'.names :=
    (List.nodup_flatMap.1 nodup_names).2
  rw [hfind, Option.some.injEq]
  by_contra hne
  exact hdisjoint.forall hb' hb hne hname' hname

end Builtin

namespace Registry

/-- A call that changes a registry. -/
inductive Change where
  | register (name : Text) (transformer : Transformer)
  | unregister (name : Text)

/-- The name that a change is about. -/
def Change.name : Change → Text
  | .register name _ | .unregister name => name

/-- The own transformer that a change leaves under its name. -/
def Change.left? : Change → Option Transformer
  | .register _ transformer => some transformer
  | .unregister _ => none

/-- The registry after one change. -/
def change (r : Registry) : Change → Registry
  | .register name transformer => r.insert name transformer
  | .unregister name => (r.unregister name).2

/-- The registry after a sequence of changes, from the empty one on. -/
def after (changes : List Change) : Registry :=
  changes.foldl change empty

/-- A transformer was registered under a name, and no change under that name came later. -/
def Stands (changes : List Change) (name : Text) (transformer : Transformer) : Prop :=
  ∃ before later, changes = before ++ .register name transformer :: later ∧
    ∀ c ∈ later, c.name ≠ name

/-! ## Own transformers -/

section Own

variable {name other : Text}

theorem lookup_filter_self (name : Text) (own : List (Text × Transformer)) :
    (own.filter (·.1 != name)).lookup name = none := by
  rw [List.lookup_eq_none_iff]
  intro m hm
  have hne := (List.mem_filter.1 hm).2
  rw [bne_iff_ne] at hne ⊢
  exact hne.symm

theorem lookup_filter_of_ne (hne : other ≠ name) (own : List (Text × Transformer)) :
    (own.filter (·.1 != other)).lookup name = own.lookup name := by
  induction own with
  | nil => rfl
  | cons m own ih =>
      by_cases hm : m.1 = other
      · have hmiss : (name == m.1) = false := by
          rw [hm, beq_eq_false_iff_ne]
          exact hne.symm
        rw [List.filter_cons_of_neg (by simpa using hm), ih, List.lookup_cons, hmiss]
      · rw [List.filter_cons_of_pos (by simpa using hm), List.lookup_cons, List.lookup_cons, ih]

/-- A change settles what is under its own name, and leaves every other name alone. -/
theorem lookup_change (r : Registry) (c : Change) (name : Text) :
    (r.change c).own.lookup name = if c.name = name then c.left? else r.own.lookup name := by
  cases c with
  | register other transformer =>
      show ((other, transformer) :: r.own.filter (·.1 != other)).lookup name = _
      rw [List.lookup_cons]
      by_cases hname : other = name
      · subst hname
        simp [Change.name, Change.left?]
      · have hmiss : (name == other) = false := beq_eq_false_iff_ne.2 (Ne.symm hname)
        rw [hmiss, lookup_filter_of_ne hname, Change.name, if_neg hname]
  | unregister other =>
      show (r.own.filter (·.1 != other)).lookup name = _
      by_cases hname : other = name
      · subst hname
        rw [lookup_filter_self, Change.name, if_pos rfl, Change.left?]
      · rw [lookup_filter_of_ne hname, Change.name, if_neg hname]

/-- The last change under a name decides what is there. -/
theorem lookup_after (changes : List Change) (name : Text) :
    (after changes).own.lookup name =
      (changes.reverse.find? (·.name == name)).bind Change.left? := by
  induction changes using List.reverseRecOn with
  | nil => rfl
  | append_singleton changes c ih =>
      have hlast : after (changes ++ [c]) = (after changes).change c := by
        rw [after, List.foldl_concat, ← after]
      rw [hlast, lookup_change, ih, List.reverse_concat, List.find?_cons]
      by_cases hname : c.name = name
      · rw [if_pos hname, beq_iff_eq.2 hname]
        rfl
      · rw [if_neg hname, beq_eq_false_iff_ne.2 hname]

theorem lookup_after_iff {changes : List Change} {transformer : Transformer} :
    (after changes).own.lookup name = some transformer ↔ Stands changes name transformer := by
  rw [lookup_after, Option.bind_eq_some_iff]
  constructor
  · rintro ⟨c, hfind, hleft⟩
    obtain ⟨hname, later, before, hchanges, hlater⟩ := List.find?_eq_some_iff_append.1 hfind
    rw [beq_iff_eq] at hname
    cases c with
    | unregister other => cases hleft
    | register other transformer' =>
        cases hleft
        cases hname
        refine ⟨before.reverse, later.reverse, ?_, fun d hd => ?_⟩
        · rw [← List.reverse_reverse changes, hchanges]
          simp [Change.name]
        · simpa using hlater d (List.mem_reverse.1 hd)
  · rintro ⟨before, later, rfl, hlater⟩
    refine ⟨.register name transformer, ?_, rfl⟩
    rw [List.find?_eq_some_iff_append]
    refine ⟨beq_self_eq_true name, later.reverse, before.reverse, by simp, fun d hd => ?_⟩
    simpa using hlater d (List.mem_reverse.1 hd)

end Own

/-! ## Names -/

section Names

variable {r : Registry} {name : Text}

theorem hasOwn_iff :
    r.hasOwn name = true ↔ ∃ transformer, r.own.lookup name = some transformer := by
  rw [← Option.isSome_iff_exists, List.lookup_isSome_iff, hasOwn, List.any_eq_true]
  simp only [beq_iff_eq, eq_comm (a := name)]

theorem hasOwn_eq_false_iff : r.hasOwn name = false ↔ r.own.lookup name = none := by
  rw [Bool.eq_false_iff, ne_eq, hasOwn_iff, ← Option.isSome_iff_exists,
    Option.not_isSome_iff_eq_none]

/-- Where a registry has no own transformer, it finds the built-in one. -/
theorem find?_of_hasOwn (h : r.hasOwn name = false) :
    r.find? name = (Builtin.find? name).map (·.transformer) := by
  rw [find?, hasOwn_eq_false_iff.1 h]

theorem find?_eq_some_iff {transformer : Transformer} :
    r.find? name = some transformer ↔ r.own.lookup name = some transformer ∨
      r.own.lookup name = none ∧
        ∃ b ∈ Builtin.all, name ∈ b.names ∧ b.transformer = transformer := by
  rw [find?]
  cases r.own.lookup name with
  | some own => simp
  | none => simp [Builtin.find?_eq_some_iff, and_assoc]

/-- A built-in transformer that no own one hides is found. -/
theorem find?_of_builtin? {b : Builtin} (h : r.builtin? name = some b) :
    b ∈ Builtin.all ∧ r.find? name = some b.transformer := by
  rw [builtin?] at h
  split at h
  · cases h
  · next hown =>
      rw [find?_of_hasOwn (Bool.not_eq_true _ ▸ hown), h]
      exact ⟨(Builtin.find?_eq_some_iff.1 h).1, rfl⟩

/-- A registry contains a name if it has a transformer under it. -/
theorem contains_eq (r : Registry) (name : Text) : r.contains name = (r.find? name).isSome := by
  rw [contains, find?]
  cases hown : r.own.lookup name with
  | some own =>
      rw [hasOwn_iff.2 ⟨own, hown⟩]
      rfl
  | none => rw [hasOwn_eq_false_iff.2 hown, Bool.false_or, Option.isSome_map]

theorem mem_insertName {other : Text} {list : List Text} :
    name ∈ insertName other list ↔ name = other ∨ name ∈ list := by
  induction list with
  | nil => simp [insertName]
  | cons first list ih =>
      rw [insertName]
      split
      · rw [List.mem_cons]
      · next heq =>
          rw [Text.order_eq_eq_iff.1 heq, List.mem_cons]
          tauto
      · rw [List.mem_cons, ih, List.mem_cons]
        tauto

theorem pairwise_insertName (name : Text) {list : List Text} (h : list.Pairwise (· < ·)) :
    (insertName name list).Pairwise (· < ·) := by
  induction list with
  | nil => exact List.pairwise_singleton _ _
  | cons first list ih =>
      obtain ⟨hfirst, hlist⟩ := List.pairwise_cons.1 h
      rw [insertName]
      split
      · next hlt =>
          rw [Text.order_eq_lt_iff] at hlt
          refine List.pairwise_cons.2 ⟨fun other hother => ?_, h⟩
          rcases List.mem_cons.1 hother with rfl | hother
          · exact hlt
          · exact hlt.trans (hfirst other hother)
      · exact h
      · next hgt =>
          rw [Text.order_eq_gt_iff] at hgt
          refine List.pairwise_cons.2 ⟨fun other hother => ?_, ih hlist⟩
          rcases mem_insertName.1 hother with rfl | hother
          · exact hgt
          · exact hfirst other hother

theorem mem_foldr_insertName {list : List Text} :
    name ∈ list.foldr insertName [] ↔ name ∈ list := by
  induction list with
  | nil => rfl
  | cons first list ih => rw [List.foldr_cons, mem_insertName, ih, List.mem_cons]

/-- The names of a registry are in order, and each is listed once. -/
theorem pairwise_names (r : Registry) : r.names.Pairwise (· < ·) := by
  rw [names]
  induction r.own.map (·.1) ++ Builtin.all.flatMap Builtin.names with
  | nil => exact .nil
  | cons first list ih => exact pairwise_insertName first ih

theorem mem_names_iff : name ∈ r.names ↔ (r.find? name).isSome = true := by
  rw [← contains_eq, names, mem_foldr_insertName, List.mem_append, contains, Bool.or_eq_true]
  refine or_congr ?_ ?_
  · simp [hasOwn]
  · simp [Builtin.find?]

end Names

/-! ## The layers -/

/--
After any sequence of changes, a name leads to the transformer that was registered last under it, if
it was not unregistered since, or else to the built-in transformer with that name. Unregistering
tells whether such a transformer stood. The registry contains a name, leads somewhere from it and
lists it in the same cases, and it lists the names in order and once. A name that leads nowhere
leaves a text as it is. No change touches anything about another name.
-/
theorem after_layers (changes : List Change) :
    (∀ name transformer, (after changes).find? name = some transformer ↔
      Stands changes name transformer ∨ (∀ own, ¬ Stands changes name own) ∧
        ∃ b ∈ Builtin.all, name ∈ b.names ∧ b.transformer = transformer) ∧
    (∀ name, ((after changes).unregister name).1 = true ↔
      ∃ transformer, Stands changes name transformer) ∧
    (∀ name, ((after changes).contains name = true ↔ ((after changes).find? name).isSome = true) ∧
      (name ∈ (after changes).names ↔ ((after changes).find? name).isSome = true)) ∧
    (after changes).names.Pairwise (· < ·) ∧
    (∀ follow json name argument, (after changes).find? name = none →
      (after changes).apply follow json name argument = json) ∧
    ∀ c name, Change.name c ≠ name →
      ((after changes).change c).find? name = (after changes).find? name ∧
      ((after changes).change c).contains name = (after changes).contains name ∧
      (name ∈ ((after changes).change c).names ↔ name ∈ (after changes).names) ∧
      (((after changes).change c).unregister name).1 = ((after changes).unregister name).1 ∧
      ∀ follow json argument, ((after changes).change c).apply follow json name argument =
        (after changes).apply follow json name argument := by
  refine ⟨?_, ?_, ?_, ?_, ?_, ?_⟩
  · intro name transformer
    have hnone : (after changes).own.lookup name = none ↔ ∀ own, ¬ Stands changes name own := by
      simp only [← lookup_after_iff, Option.eq_none_iff_forall_ne_some, ne_eq]
    rw [find?_eq_some_iff, lookup_after_iff, hnone]
  · intro name
    show (after changes).hasOwn name = true ↔ _
    simp only [hasOwn_iff, lookup_after_iff]
  · exact fun name => ⟨by rw [contains_eq], mem_names_iff⟩
  · exact pairwise_names _
  · intro follow json name argument hnone
    rw [apply, hnone]
  · intro c name hne
    have hlookup := lookup_change (after changes) c name
    rw [if_neg hne] at hlookup
    have hfind : ((after changes).change c).find? name = (after changes).find? name := by
      rw [find?, find?, hlookup]
    refine ⟨hfind, ?_, ?_, ?_, fun follow json argument => ?_⟩
    · rw [contains_eq, contains_eq, hfind]
    · rw [mem_names_iff, mem_names_iff, hfind]
    · rw [Bool.eq_iff_iff]
      show ((after changes).change c).hasOwn name = true ↔ (after changes).hasOwn name = true
      rw [hasOwn_iff, hasOwn_iff, hlookup]
    · rw [apply, apply, hfind]

/-- One name is hidden and stays so, another one is registered and removed again. -/
def shadowing : List Change :=
  [.register "reverse".toList (.withoutArgument id), .register "x".toList (.withoutArgument id),
    .unregister "x".toList]

theorem after_layers_of_shadowing :
    (after shadowing).find? "reverse".toList = some (.withoutArgument id) ∧
      (after shadowing).find? "x".toList = none ∧
      (∀ follow json argument, (after shadowing).apply follow json "x".toList argument = json) ∧
      Change.name (.unregister "x".toList) ≠ "reverse".toList ∧
      ((after shadowing).change (.unregister "x".toList)).find? "reverse".toList =
        (after shadowing).find? "reverse".toList := by
  have hstands : Stands shadowing "reverse".toList (.withoutArgument id) := by
    refine ⟨[], [.register "x".toList (.withoutArgument id), .unregister "x".toList], rfl, ?_⟩
    simp [Change.name]
  have hnone : (after shadowing).find? "x".toList = none := by
    rw [← Option.isNone_iff_eq_none]
    decide +kernel
  have hother : Change.name (.unregister "x".toList) ≠ "reverse".toList := by decide
  obtain ⟨hfind, -, -, -, happly, hchange⟩ := after_layers shadowing
  exact ⟨(hfind _ _).2 (.inl hstands), hnone,
    fun follow json argument => happly follow json _ argument hnone, hother,
    (hchange _ _ hother).1⟩

end Registry

end DotPath
