import DotPath.Json.Layout
import DotPath.Proofs.Evaluator.Located
import DotPath.Proofs.Path.Plain
import DotPath.Proofs.Text.Glob

/-!
# Names and globs

The key of a descent is always a glob, while a plain component is one only if it holds a star or a
question mark without a backslash. Where it holds none, the two say the same: the glob matches the
text that the component is read as, and nothing else. So a descent selects the members with the name
that a field of the same spelling looks for, in the value it starts from and in every object that
the walk enters, and the field is the first of those in one object. An escaped key is a glob of this
kind, and matches the key only.

What stands for a field is never a position. Digits that fit into a machine word are one, and a
position drops the zeros in front of it, while a glob does not.

## Main results

* `plainSegment_eq_field`: what is read as a field holds no wildcards.
* `exists_descend_of_readDescent`: the key of a descent is delimited like a plain component.
* `mem_descendants_iff`: what a descent without wildcards selects.
* `names_agree`: names and globs agree.
-/

namespace DotPath

open Json Selection

/-! ## Components -/

theorem unescapeComponent_of_digits {t : Text} (h : t.all Char.isDigit = true) :
    unescapeComponent t = t := by
  have hround := unescapeComponent_escapeComponent t
  rwa [escapeComponent_of_digits h] at hround

/-- A plain component that is read as a field holds no wildcards, and names the field. -/
theorem plainSegment_eq_field {c name : Text} (h : plainSegment c = .field name) :
    Glob.isPattern c = false ∧ name = unescapeComponent c := by
  rw [plainSegment] at h
  split at h
  · next hdigits =>
      -- Digits are a field if they do not fit into a machine word.
      refine ⟨(guarded_of_digits hdigits).isPattern_eq_false, ?_⟩
      rw [unescapeComponent_of_digits hdigits]
      split at h
      · cases h
      · exact (Segment.field.inj h).symm
  · split at h
    · cases h
    · next hpattern =>
        exact ⟨Bool.eq_false_iff.2 hpattern, (Segment.field.inj h).symm⟩

/-- The key of a descent is the text that makes up a plain component at the same place. -/
theorem exists_descend_of_readDescent {nested : PathReader} {p q : Place} {s : Segment}
    (h : readDescent nested p = .ok (s, q)) :
    ∃ c each, s = .descend c each ∧ readPlain p = .ok (plainSegment c, p.skip c.length) := by
  have hpos := plainLength_ne_zero_of_readDescent h
  have hplain : readPlain p = .ok (plainSegment (p.rest.take (plainLength p.rest)),
      p.skip (p.rest.take (plainLength p.rest)).length) := by
    rw [readPlain_eq hpos, List.length_take_of_le (plainLength_le p.rest)]
  rw [readDescent_eq hpos] at h
  split at h
  · obtain ⟨⟨each, r⟩, -, heq⟩ := exists_of_map_eq_ok h
    cases heq
    exact ⟨_, each, rfl, hplain⟩
  · cases h
    exact ⟨_, [], rfl, hplain⟩

/-! ## Members with a name -/

namespace Json

/-- Where names are told apart, the members with one name are at most one. -/
theorem filter_name_eq_find? {ms : List Member} (h : (ms.map Member.name).Nodup) (name : Text) :
    ms.filter (·.name == name) = (ms.find? (·.name == name)).toList := by
  induction ms with
  | nil => rfl
  | cons m ms ih =>
      rw [List.map_cons, List.nodup_cons] at h
      rw [List.filter_cons, List.find?_cons]
      split
      · next hm =>
          have hnone : ∀ m' ∈ ms, ¬ (m'.name == name) = true := by
            intro m' hm' heq
            exact h.1 (List.mem_map.2 ⟨m', hm', (beq_iff_eq.1 heq).trans (beq_iff_eq.1 hm).symm⟩)
          rw [List.filter_eq_nil_iff.2 hnone, hm]
          rfl
      · next hm => rw [ih h.2, Bool.eq_false_iff.2 hm]

end Json

namespace Selection

/-- The values of all members with a name, those with a name that has occurred before included. -/
def membersNamed (s : Selection) (name : Text) : List Selection :=
  ((Json.members s.raw).filter (·.name == name)).map fun m => ofOccurrence s.base m.value

/-- A field is the first member with its name. -/
theorem field_eq_headD_membersNamed (s : Selection) (name : Text) :
    s.field name = (s.membersNamed name).headD missing := by
  rw [membersNamed, List.headD_eq_head?_getD, List.head?_map, List.head?_filter, field]
  unfold Member.name
  cases (Json.members s.raw).find? fun m => Quoted.text m.key.raw == name with
  | none => rfl
  | some m => rfl

/-- In an object that names its members apart, it is the only one. -/
theorem membersNamed_eq_asResults {s : Selection}
    (h : ((Json.members s.raw).map Member.name).Nodup) (name : Text) :
    s.membersNamed name = Evaluator.asResults (s.field name) := by
  rw [field_eq_headD_membersNamed, membersNamed, filter_name_eq_find? h]
  cases hfind : (Json.members s.raw).find? (·.name == name) with
  | none => rfl
  | some m =>
      have hfills := (isIn_of_mem_members (List.mem_of_find?_eq_some hfind)).2
      have hpresent : (ofOccurrence s.base m.value).isPresent = true := by
        simpa [isPresent, ofOccurrence] using hfills.ne_nil
      simp [Evaluator.asResults, hpresent]

end Selection

/-! ## Members that a walk visits -/

namespace Json

theorem key_mem_children {v child : Occurrence} {name : Text} :
    (.key name, child) ∈ v.children ↔
      ∃ m ∈ members v.raw, m.name = name ∧ child = m.value.shift v.offset := by
  unfold Occurrence.children
  split
  · simp [Member.name, eq_comm]
  · next hobject =>
      have hmembers : members v.raw = [] := by
        rw [members, membersAt]
        exact if_neg hobject
      simp [hmembers, List.mem_mapIdx]

/-- The members with a name that a walk visits are those of the objects that it enters. -/
theorem exists_mem_walk_iff {depth : Nat} {t name : Text} {value : Occurrence} :
    (∃ w ∈ walk depth t, w.trail.getLast? = some (.key name) ∧ w.value = value) ↔
      ∃ u ∈ walk depth t, u.trail.length < max depth 1 ∧
        ∃ m ∈ members u.value.raw, m.name = name ∧ value = m.value.shift u.value.offset := by
  rw [walk]
  cases firstValue? t with
  | none => simp
  | some root =>
      constructor
      · rintro ⟨w, hw, hlast, rfl⟩
        rcases exists_parent_of_mem_walkFrom hw with
          rfl | ⟨u, hu, hlength, step, child, hchild, rfl⟩
        · cases hlast
        · rw [List.getLast?_concat] at hlast
          cases hlast
          exact ⟨u, hu, by simpa using hlength, key_mem_children.1 hchild⟩
      · rintro ⟨u, hu, hlength, hmember⟩
        have hchild := mem_walkFrom_of_parent hu (by simpa using hlength)
          (key_mem_children.2 hmember)
        exact ⟨_, hchild, List.getLast?_concat, rfl⟩

end Json

/-! ## Descents -/

section Descent

variable {c : Text} {cur : Selection}

/-- A glob without wildcards selects the values to which its key leads from an object. -/
theorem descendants_of_not_isPattern (h : Glob.isPattern c = false) (cur : Selection)
    (depth : Nat) :
    cur.descendants depth c =
      ((walk depth cur.raw).filter fun visit =>
        visit.trail.getLast? = some (.key (unescapeComponent c))).map fun visit =>
          ofOccurrence cur.base visit.value := by
  rw [descendants, ← List.filterMap_eq_map, List.filterMap_filter]
  refine List.filterMap_congr fun visit _ => ?_
  split
  · next name hname =>
      by_cases hmatch : name = unescapeComponent c
      · rw [if_pos ((Glob.isMatch_of_not_isPattern h).2 hmatch)]
        simp [hname, hmatch]
      · rw [if_neg (mt (Glob.isMatch_of_not_isPattern h).1 hmatch)]
        simp [hname, hmatch]
  · next hother =>
      have hlast : ¬ visit.trail.getLast? = some (.key (unescapeComponent c)) :=
        fun hlast => hother _ hlast
      simp [hlast]

theorem ofOccurrence_shift_offset (base : Option Nat) (v w : Occurrence) :
    ofOccurrence base (w.shift v.offset) = ofOccurrence (ofOccurrence base v).base w := by
  cases base with
  | none => rfl
  | some b => simp [ofOccurrence, Selection.base, Occurrence.shift, Nat.add_assoc]

/-- What a descent selects are the members with its name in the objects that it comes through. -/
theorem mem_descendants_iff (h : Glob.isPattern c = false) {depth : Nat} {r : Selection} :
    r ∈ cur.descendants depth c ↔
      ∃ u ∈ walk depth cur.raw, u.trail.length < max depth 1 ∧
        r ∈ (ofOccurrence cur.base u.value).membersNamed (unescapeComponent c) := by
  calc
    _ ↔ ∃ value, (∃ w ∈ walk depth cur.raw,
          w.trail.getLast? = some (.key (unescapeComponent c)) ∧ w.value = value) ∧
            ofOccurrence cur.base value = r := by
      rw [descendants_of_not_isPattern h]
      simp [and_assoc]
    _ ↔ ∃ value, (∃ u ∈ walk depth cur.raw, u.trail.length < max depth 1 ∧
          ∃ m ∈ members u.value.raw, m.name = unescapeComponent c ∧
            value = m.value.shift u.value.offset) ∧ ofOccurrence cur.base value = r := by
      simp only [exists_mem_walk_iff]
    _ ↔ _ := by
      constructor
      · rintro ⟨_, ⟨u, hu, hlength, m, hm, hname, rfl⟩, rfl⟩
        refine ⟨u, hu, hlength, List.mem_map.2 ⟨m, List.mem_filter.2 ⟨hm, beq_iff_eq.2 hname⟩, ?_⟩⟩
        exact (ofOccurrence_shift_offset cur.base u.value m.value).symm
      · rintro ⟨u, hu, hlength, hr⟩
        obtain ⟨m, hm, rfl⟩ := List.mem_map.1 hr
        obtain ⟨hm, hname⟩ := List.mem_filter.1 hm
        exact ⟨_, ⟨u, hu, hlength, m, hm, beq_iff_eq.1 hname, rfl⟩,
          ofOccurrence_shift_offset cur.base u.value m.value⟩

end Descent

/--
Whether a component holds wildcards is decided by a scan that passes over what a backslash protects.
A component without wildcards, used as a glob, matches the text that it is read as and nothing else.
The component of a descent is delimited like a plain one, and a plain component that is read as a
field holds no wildcards and names the field by that text. So the descent selects, in the order of
the walk, the members with the name of the field, in the value it starts from and in every object
that the walk enters; the field itself is the first of them in one object, and the only one where
the names differ. An escaped key holds no wildcards either, and matches the key and nothing else.
-/
theorem names_agree :
    (∀ c, Glob.isPattern c = Glob.holdsWildcard c) ∧
      (∀ c, Glob.isPattern c = false →
        ∀ s, Glob.isMatch c s = true ↔ s = unescapeComponent c) ∧
      (∀ nested p s q, readDescent nested p = .ok (s, q) →
        ∃ c each, s = .descend c each ∧ readPlain p = .ok (plainSegment c, p.skip c.length)) ∧
      (∀ c name, plainSegment c = .field name →
        (Glob.isPattern c = false ∧ name = unescapeComponent c) ∧
          ∀ (cur : Selection) (depth : Nat),
          (cur.descendants depth c =
            ((walk depth cur.raw).filter fun visit =>
              visit.trail.getLast? = some (.key name)).map fun visit =>
                ofOccurrence cur.base visit.value) ∧
          ∀ r, r ∈ cur.descendants depth c ↔
            ∃ u ∈ walk depth cur.raw, u.trail.length < max depth 1 ∧
              r ∈ (ofOccurrence cur.base u.value).membersNamed name) ∧
      (∀ (s : Selection) (name : Text), s.field name = (s.membersNamed name).headD missing ∧
        (((Json.members s.raw).map Member.name).Nodup →
          s.membersNamed name = Evaluator.asResults (s.field name))) ∧
      ∀ key, Glob.isPattern (escapeComponent key) = false ∧
        ∀ s, Glob.isMatch (escapeComponent key) s = true ↔ s = key := by
  refine ⟨Glob.isPattern_eq_holdsWildcard, fun c hc s => Glob.isMatch_of_not_isPattern hc,
    fun nested p s q h => exists_descend_of_readDescent h, fun c name hname => ?_,
    fun s name => ⟨field_eq_headD_membersNamed s name, (membersNamed_eq_asResults · name)⟩,
    fun key => ?_⟩
  · obtain ⟨hpattern, rfl⟩ := plainSegment_eq_field hname
    exact ⟨⟨hpattern, rfl⟩, fun cur depth =>
      ⟨descendants_of_not_isPattern hpattern cur depth, fun r => mem_descendants_iff hpattern⟩⟩
  · have hpattern := (guarded_escapeComponent key).isPattern_eq_false
    refine ⟨hpattern, fun s => ?_⟩
    rw [Glob.isMatch_of_not_isPattern hpattern, unescapeComponent_escapeComponent]

/-- An array of an object, with a name that has a dot in it. -/
def dottedNames : Selection :=
  document "[\x7b\"a.b\":1,\"c\":\x7b\"a.b\":2\x7d\x7d]".toList

/-- The field of the object is among what the descent selects in the array. -/
theorem names_agree_dotted :
    (∃ c each, readDescent (fun _ => .ok []) (.start "a\\.b".toList) =
        .ok (.descend c each, ⟨4, []⟩) ∧
        readPlain (.start "a\\.b".toList) = .ok (plainSegment c, ⟨4, []⟩)) ∧
      plainSegment "a\\.b".toList = .field "a.b".toList ∧
      Glob.isMatch "a\\.b".toList "a.b".toList = true ∧
      (dottedNames.item 0).membersNamed "a.b".toList =
        Evaluator.asResults ((dottedNames.item 0).field "a.b".toList) ∧
      (dottedNames.item 0).field "a.b".toList ∈ dottedNames.descendants 3 "a\\.b".toList := by
  obtain ⟨-, hmatch, hread, hdescent, hfield, -⟩ := names_agree
  have hpart : readDescent (fun _ => .ok []) (.start "a\\.b".toList) =
      .ok (.descend "a\\.b".toList [], ⟨4, []⟩) := by
    rfl
  obtain ⟨c, each, hc, hplain⟩ := hread _ _ _ _ hpart
  cases hc
  have hname : plainSegment "a\\.b".toList = .field "a.b".toList := by
    rfl
  refine ⟨⟨_, _, hpart, hplain⟩, hname, ?_, ?_, ?_⟩
  · exact (hmatch _ (by decide +kernel) _).2 (by decide +kernel)
  · exact (hfield _ _).2 (by decide +kernel)
  · refine (((hdescent _ _ hname).2 dottedNames 3).2 _).2
      ⟨⟨[.index 0], ⟨.container, 1, (dottedNames.item 0).raw⟩⟩, ?_, ?_, ?_⟩
    · decide +kernel
    · decide
    · decide +kernel

end DotPath
