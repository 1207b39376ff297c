import DotPath.Json.Value
import Mathlib.Data.List.Induction
import Mathlib.Data.List.Nodup

/-!
# Members that share a name

An object may have several members with the same name. There are two ways to make one of them: the
first is kept, or the first gives the place and the last the value. Both go over the members once,
and all that they know of the members before is what they have kept. So each of them is described by
what one more member changes: a new name is put at the end, and a name that is there already leaves
the names as they are.

The names that are left are therefore the same in both ways. Looked up by its name, a value is the
one that the members have first, or the one that they have last.

## Main definitions

* `firstMembers`: the first member with each name.

## Main results

* `names_firstMembers`, `names_mergeMembers`: the names, in order of their first occurrence.
* `lookup_firstMembers`, `lookup_mergeMembers`: the value under a name.
-/

namespace DotPath.Json

/-! ## Names in order of their first occurrence -/

section Names

variable {names : List Text} {name : Text}

theorem eraseDups_concat :
    (names ++ [name]).eraseDups =
      if name ∈ names then names.eraseDups else names.eraseDups ++ [name] := by
  rw [List.eraseDups_append]
  by_cases h : name ∈ names
  · simp [List.removeAll, h]
  · simp [List.removeAll, h, List.eraseDups_cons]

theorem nodup_eraseDups (names : List Text) : names.eraseDups.Nodup := by
  induction names using List.reverseRecOn with
  | nil => simp
  | append_singleton names name ih =>
      rw [eraseDups_concat]
      by_cases h : name ∈ names
      · rwa [if_pos h]
      · rw [if_neg h, List.nodup_append]
        refine ⟨ih, List.nodup_singleton name, fun a ha b hb => ?_⟩
        rw [List.mem_singleton.1 hb]
        rintro rfl
        exact h (List.mem_eraseDups.1 ha)

end Names

/-! ## Values by their names -/

section Members

variable {α β : Type} {members : List (Text × α)} {m : Text × α} {name : Text} {v : α}

/-- The names of some members. -/
def names (members : List (Text × α)) : List Text :=
  members.map (·.1)

theorem names_append (as bs : List (Text × α)) : names (as ++ bs) = names as ++ names bs :=
  List.map_append

theorem any_name_iff : members.any (·.1 == name) = true ↔ name ∈ names members := by
  simp [names]

theorem lookup_singleton (m : Text × α) (name : Text) :
    [m].lookup name = if name == m.1 then some m.2 else none := by
  rw [List.lookup_cons]
  split <;> simp_all

theorem lookup_eq_none_iff : members.lookup name = none ↔ name ∉ names members := by
  rw [List.lookup_eq_none_iff, names, List.mem_map]
  constructor
  · rintro h ⟨m, hm, rfl⟩
    simpa using h m hm
  · intro h m hm
    have hne : name ≠ m.1 := by
      rintro rfl
      exact h ⟨m, hm, rfl⟩
    simpa using hne

theorem isSome_lookup_iff : (members.lookup name).isSome = true ↔ name ∈ names members := by
  rw [← not_iff_not, ← lookup_eq_none_iff, Option.not_isSome_iff_eq_none]

theorem lookup_map (f : Text → α → β) (members : List (Text × α)) (name : Text) :
    (members.map fun m => (m.1, f m.1 m.2)).lookup name = (members.lookup name).map (f name) := by
  induction members with
  | nil => rfl
  | cons m rest ih =>
      rw [List.map_cons, List.lookup_cons, List.lookup_cons, ih]
      by_cases h : name = m.1
      · simp [h]
      · rw [beq_false_of_ne h]

theorem lookup_filter (p : Text → Bool) (members : List (Text × α)) (name : Text) :
    (members.filter fun m => p m.1).lookup name = if p name then members.lookup name else none := by
  induction members with
  | nil => simp
  | cons m rest ih =>
      rw [List.filter_cons]
      by_cases h : name = m.1
      · subst h
        cases hp : p m.1 with
        | false =>
            rw [hp] at ih
            exact ih
        | true =>
            rw [if_pos rfl, if_pos rfl, List.lookup_cons, List.lookup_cons, beq_self_eq_true]
      · rw [List.lookup_cons, beq_false_of_ne h, ← ih]
        split
        · rw [List.lookup_cons, beq_false_of_ne h]
        · rfl

/-- Where no name is repeated, every member is found by its name. -/
theorem lookup_of_mem (hnodup : (names members).Nodup) (hm : m ∈ members) :
    members.lookup m.1 = some m.2 := by
  obtain ⟨before, after, rfl⟩ := List.append_of_mem hm
  rw [names_append, List.nodup_append] at hnodup
  refine List.lookup_eq_some_iff.2 ⟨before, after, rfl, fun other hother => ?_⟩
  have hne : other.1 ≠ m.1 :=
    hnodup.2.2 _ (List.mem_map_of_mem hother) _ List.mem_cons_self
  simpa using hne.symm

/-- From the back, the last member with a name is found. -/
theorem lookup_reverse_eq_some_iff :
    members.reverse.lookup name = some v ↔
      ∃ before after, members = before ++ (name, v) :: after ∧ name ∉ names after := by
  rw [List.lookup_eq_some_iff]
  constructor
  · rintro ⟨back, front, hmembers, hback⟩
    refine ⟨front.reverse, back.reverse, ?_, ?_⟩
    · rw [← List.reverse_reverse members, hmembers]
      simp
    · rw [← lookup_eq_none_iff, List.lookup_eq_none_iff]
      exact fun other hother => hback other (List.mem_reverse.1 hother)
  · rintro ⟨before, after, rfl, hafter⟩
    refine ⟨after.reverse, before.reverse, by simp, fun other hother => ?_⟩
    rw [← lookup_eq_none_iff, List.lookup_eq_none_iff] at hafter
    exact hafter other (List.mem_reverse.1 hother)

/-! ## The first member with each name -/

/-- The first member with each name, in order. -/
def firstMembers (members : List (Text × α)) : List (Text × α) :=
  members.foldl (fun kept m => if kept.any (·.1 == m.1) then kept else kept ++ [m]) []

theorem firstMembers_concat (members : List (Text × α)) (m : Text × α) :
    firstMembers (members ++ [m]) =
      if m.1 ∈ names (firstMembers members) then firstMembers members
      else firstMembers members ++ [m] := by
  simp only [firstMembers, List.foldl_concat, any_name_iff]

theorem names_firstMembers (members : List (Text × α)) :
    names (firstMembers members) = (names members).eraseDups := by
  induction members using List.reverseRecOn with
  | nil => rfl
  | append_singleton members m ih =>
      have hsame : names (members ++ [m]) = names members ++ [m.1] := List.map_append
      rw [firstMembers_concat, hsame, eraseDups_concat, ih]
      simp only [List.mem_eraseDups]
      split
      · exact ih
      · rw [names_append, ih]
        rfl

theorem lookup_firstMembers (members : List (Text × α)) (name : Text) :
    (firstMembers members).lookup name = members.lookup name := by
  induction members using List.reverseRecOn with
  | nil => rfl
  | append_singleton members m ih =>
      rw [firstMembers_concat, List.lookup_append]
      by_cases h : m.1 ∈ names (firstMembers members)
      · rw [if_pos h, ih, lookup_singleton]
        rw [names_firstMembers, List.mem_eraseDups, ← isSome_lookup_iff] at h
        by_cases hname : name = m.1
        · obtain ⟨v, hv⟩ := Option.isSome_iff_exists.1 h
          rw [hname, hv]
          rfl
        · simp [hname]
      · rw [if_neg h, List.lookup_append, ih]

theorem firstMembers_map (f : α → β) (members : List (Text × α)) :
    firstMembers (members.map fun m => (m.1, f m.2)) =
      (firstMembers members).map fun m => (m.1, f m.2) := by
  induction members using List.reverseRecOn with
  | nil => rfl
  | append_singleton members m ih =>
      have hnames : names ((firstMembers members).map fun m => (m.1, f m.2)) =
          names (firstMembers members) := by
        rw [names, List.map_map]
        rfl
      rw [List.map_append, List.map_singleton, firstMembers_concat, firstMembers_concat, ih, hnames]
      split
      · rfl
      · rw [List.map_append, List.map_singleton]

/-- Where no name is repeated, all members are kept. -/
theorem firstMembers_of_nodup (h : (names members).Nodup) : firstMembers members = members := by
  induction members using List.reverseRecOn with
  | nil => rfl
  | append_singleton members m ih =>
      rw [names_append, List.nodup_append] at h
      have hnew : m.1 ∉ names members := by
        intro hm
        exact h.2.2 _ hm _ List.mem_cons_self rfl
      rw [firstMembers_concat, ih h.1, if_neg hnew]

/-! ## The place of the first and the value of the last -/

theorem names_setMember (key : Text) (value : α) (members : List (Text × α)) :
    names (setMember key value members) =
      if key ∈ names members then names members else names members ++ [key] := by
  induction members with
  | nil => rfl
  | cons m rest ih =>
      obtain ⟨k, v⟩ := m
      rw [setMember]
      by_cases hk : k = key
      · subst hk
        simp [names]
      · have hne : key ≠ k := fun h => hk h.symm
        rw [if_neg (by simpa using hk)]
        show k :: names (setMember key value rest) = _
        rw [ih]
        by_cases hrest : key ∈ names rest <;> simp_all [names]

theorem lookup_setMember (key : Text) (value : α) (members : List (Text × α)) (name : Text) :
    (setMember key value members).lookup name =
      if name == key then some value else members.lookup name := by
  induction members with
  | nil => exact lookup_singleton _ _
  | cons m rest ih =>
      obtain ⟨k, v⟩ := m
      rw [setMember]
      by_cases hk : k = key
      · subst hk
        rw [if_pos (beq_self_eq_true k), List.lookup_cons, List.lookup_cons]
        cases name == k <;> rfl
      · rw [if_neg (by simpa using hk), List.lookup_cons, List.lookup_cons, ih]
        by_cases hname : name = k
        · subst hname
          simp [hk]
        · rw [beq_false_of_ne hname]

theorem mergeMembers_concat (members : List (Text × α)) (m : Text × α) :
    mergeMembers (members ++ [m]) = setMember m.1 m.2 (mergeMembers members) :=
  List.foldl_concat ..

theorem names_mergeMembers (members : List (Text × α)) :
    names (mergeMembers members) = (names members).eraseDups := by
  induction members using List.reverseRecOn with
  | nil => rfl
  | append_singleton members m ih =>
      have hsame : names (members ++ [m]) = names members ++ [m.1] := List.map_append
      rw [mergeMembers_concat, names_setMember, ih, hsame, eraseDups_concat]
      simp only [List.mem_eraseDups]

theorem nodup_mergeMembers (members : List (Text × α)) : (names (mergeMembers members)).Nodup := by
  rw [names_mergeMembers]
  exact nodup_eraseDups _

theorem lookup_mergeMembers (members : List (Text × α)) (name : Text) :
    (mergeMembers members).lookup name = members.reverse.lookup name := by
  induction members using List.reverseRecOn with
  | nil => rfl
  | append_singleton members m ih =>
      rw [mergeMembers_concat, lookup_setMember, ih, List.reverse_append, List.lookup_append,
        List.reverse_singleton, lookup_singleton]
      cases name == m.1 <;> rfl

example :
    firstMembers [(['a'], 1), (['b'], 2), (['a'], 3)] = [(['a'], 1), (['b'], 2)] ∧
      mergeMembers [(['a'], 1), (['b'], 2), (['a'], 3)] = [(['a'], 3), (['b'], 2)] := by
  decide

theorem setMember_map (f : α → β) (key : Text) (value : α) (members : List (Text × α)) :
    setMember key (f value) (members.map fun m => (m.1, f m.2)) =
      (setMember key value members).map fun m => (m.1, f m.2) := by
  induction members with
  | nil => rfl
  | cons m rest ih =>
      obtain ⟨k, v⟩ := m
      rw [List.map_cons, setMember, setMember, ih]
      split <;> rfl

theorem mergeMembers_map (f : α → β) (members : List (Text × α)) :
    mergeMembers (members.map fun m => (m.1, f m.2)) =
      (mergeMembers members).map fun m => (m.1, f m.2) := by
  induction members using List.reverseRecOn with
  | nil => rfl
  | append_singleton members m ih =>
      rw [List.map_append, List.map_singleton, mergeMembers_concat, mergeMembers_concat, ih]
      exact setMember_map f m.1 m.2 _

end Members

end DotPath.Json
