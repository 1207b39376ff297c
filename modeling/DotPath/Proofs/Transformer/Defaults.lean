import DotPath.Proofs.Json.Closure
import DotPath.Proofs.Json.Nodes
import DotPath.Proofs.Transformer.Reading

/-!
# Defaults for members

An object is filled with defaults. A name that it has more than once counts once, with the value
that it has first. If this value is null, it gives way to the default for the name; any other value
stays as it is written. Defaults for names that the object lacks come after its members. What is
made this way is an object that has every name once, and lacks no default; what is null in it is
null by default, or has no default. So there is nothing to fill when it is read and filled again.

Other than an object, an array of them can be filled. Its other elements stay as they are written.

## Main definitions

* `Json.Tree.withDefaults`: an object that is filled.
* `Transformer.Filled`: the texts of objects that are filled.

## Main results

* `Json.Tree.withDefaults_again`: an object that is filled stays as it is.
* `Transformer.fillDefaults_fills`: so it is with documents, of which the objects are filled.
-/

namespace DotPath

open Json Selection

/-! ## Objects that are filled -/

namespace Json.Tree

variable {defaults : List (Text × Tree)} {t : Tree} {m : Text × Tree}

/-- The value of a member, or the default for its name in place of null. -/
def orDefault (defaults : List (Text × Tree)) (name : Text) (v : Tree) : Tree :=
  if v.kind == .null then (defaults.lookup name).getD v else v

/-- The members of an object with defaults in place of null, and the defaults that it lacks. -/
def filled (defaults : List (Text × Tree)) (t : Tree) : List (Text × Tree) :=
  (firstMembers t.members).map (fun m => (m.1, orDefault defaults m.1 m.2)) ++
    defaults.filter fun m => m.1 ∉ names t.members

/-- An object that is filled with defaults. -/
def withDefaults (defaults : List (Text × Tree)) (t : Tree) : Tree :=
  objectOf (t.filled defaults)

theorem names_filled (defaults : List (Text × Tree)) (t : Tree) :
    names (t.filled defaults) =
      (names t.members).eraseDups ++ (names defaults).filter (· ∉ names t.members) := by
  have hown : names ((firstMembers t.members).map fun m => (m.1, orDefault defaults m.1 m.2)) =
      names (firstMembers t.members) := by
    rw [names, List.map_map]
    rfl
  have hadded : names (defaults.filter fun m => m.1 ∉ names t.members) =
      (names defaults).filter (· ∉ names t.members) :=
    (List.filter_map (p := (· ∉ names t.members)) (f := fun m : Text × Tree => m.1)).symm
  rw [filled, names_append, hown, hadded, names_firstMembers]

theorem nodup_filled (h : (names defaults).Nodup) (t : Tree) :
    (names (t.filled defaults)).Nodup := by
  rw [names_filled, List.nodup_append]
  refine ⟨nodup_eraseDups _, h.filter _, fun own hown added hadded => ?_⟩
  have hnew := (List.mem_filter.1 hadded).2
  rw [List.mem_eraseDups] at hown
  rintro rfl
  simp [hown] at hnew

/-- Under a name there is the value that the object has first, or the default if it has none. -/
theorem lookup_filled (defaults : List (Text × Tree)) (t : Tree) (name : Text) :
    (t.filled defaults).lookup name =
      ((t.field name).map (orDefault defaults name)).or (defaults.lookup name) := by
  rw [filled, List.lookup_append, lookup_map, lookup_firstMembers, ← t.field_eq,
    lookup_filter fun name => decide (name ∉ names t.members)]
  cases hfield : t.field name with
  | some v => rfl
  | none =>
      rw [t.field_eq, lookup_eq_none_iff] at hfield
      simp [hfield]

/-- A member of an object that is filled is already what it would be filled with. -/
theorem orDefault_of_mem_filled (h : (names defaults).Nodup) (hm : m ∈ t.filled defaults) :
    orDefault defaults m.1 m.2 = m.2 := by
  have hlookup := lookup_of_mem (nodup_filled h t) hm
  rw [lookup_filled] at hlookup
  unfold orDefault
  split
  · next hnull =>
      cases hdefault : defaults.lookup m.1 with
      | none => rfl
      | some default =>
          rw [hdefault] at hlookup
          cases hfield : t.field m.1 with
          | none =>
              rw [hfield] at hlookup
              exact Option.some.inj hlookup
          | some v =>
              rw [hfield, Option.map_some, Option.some_or, Option.some.injEq, orDefault] at hlookup
              split at hlookup
              · rwa [hdefault] at hlookup
              · next hvalue =>
                  rw [← hlookup] at hnull
                  exact absurd hnull hvalue
  · rfl

/-- An object that is filled has every default. -/
theorem mem_names_filled {name : Text} (h : name ∈ names defaults) :
    name ∈ names (t.filled defaults) := by
  rw [← isSome_lookup_iff] at h ⊢
  rw [lookup_filled, Option.isSome_or, h, Bool.or_true]

/-- An object that is filled stays as it is when it is filled again. -/
theorem withDefaults_again (h : (names defaults).Nodup) (t : Tree) :
    (t.withDefaults defaults).withDefaults defaults = t.withDefaults defaults := by
  have hkept : ∀ m ∈ t.filled defaults, (m.1, orDefault defaults m.1 m.2) = m := by
    intro m hm
    rw [orDefault_of_mem_filled h hm]
  have hnone : defaults.filter (fun m => m.1 ∉ names (t.filled defaults)) = [] := by
    refine List.filter_eq_nil_iff.2 fun m hm => ?_
    simpa using mem_names_filled (List.mem_map_of_mem hm)
  have hagain : (t.withDefaults defaults).filled defaults = t.filled defaults := by
    rw [filled, withDefaults, members_objectOf, firstMembers_of_nodup (nodup_filled h t), hnone,
      List.map_congr_left hkept, List.map_id', List.append_nil]
  rw [withDefaults, hagain, withDefaults]

/-! ## Objects in arrays -/

section MapObjects

variable {g : Tree → Tree}

/-- An object that is changed, or an array in which all objects are; any other value as it is. -/
def mapObjects (g : Tree → Tree) (t : Tree) : Tree :=
  if t.isObject then g t
  else if t.isArray then arrayOf (t.elements.map fun e => if e.isObject then g e else e)
  else t

theorem mapObjects_of_isObject (h : t.isObject = true) : t.mapObjects g = g t :=
  if_pos h

theorem mapObjects_of_isArray (h : t.isArray = true) :
    t.mapObjects g = arrayOf (t.elements.map fun e => if e.isObject then g e else e) := by
  have hnot : t.isObject = false := by
    cases hobject : t.isObject with
    | false => rfl
    | true =>
        rw [isArray_eq_false hobject] at h
        cases h
  rw [mapObjects, hnot, if_neg Bool.false_ne_true, if_pos h]

theorem mapObjects_of_scalar (hobject : t.isObject = false) (harray : t.isArray = false) :
    t.mapObjects g = t := by
  rw [mapObjects, hobject, if_neg Bool.false_ne_true, harray, if_neg Bool.false_ne_true]

/-- Where every changed object is an object that stays as it is, nothing changes again. -/
theorem mapObjects_again (hobject : ∀ t, (g t).isObject = true) (hagain : ∀ t, g (g t) = g t)
    (t : Tree) : (t.mapObjects g).mapObjects g = t.mapObjects g := by
  cases ho : t.isObject with
  | true => rw [mapObjects_of_isObject ho, mapObjects_of_isObject (hobject t), hagain]
  | false =>
      cases ha : t.isArray with
      | true =>
          rw [mapObjects_of_isArray ha, mapObjects_of_isArray (isArray_arrayOf _),
            elements_arrayOf, List.map_map]
          refine congrArg arrayOf (List.map_congr_left fun e _ => ?_)
          cases he : e.isObject with
          | true => simp [he, hobject, hagain]
          | false => simp [he]
      | false => rw [mapObjects_of_scalar ho ha, mapObjects_of_scalar ho ha]

end MapObjects

end Json.Tree

namespace Transformer

section MapObjects

variable {f : Selection → Text} {g : Tree → Tree} {d : Document}

/-- A function on objects as texts writes what a function on objects gives. -/
def Writes (f : Selection → Text) (g : Tree → Tree) : Prop :=
  ∀ s t, s.Shows t → t.isObject = true → f s = (g t).source

theorem mapObjects_scalar (f : Selection → Text) (hobject : d.root.isObject = false)
    (harray : d.root.isArray = false) : mapObjects f d.source = d.source := by
  have hshows := Evaluator.shows_document d
  rw [mapObjects, isObject_of_shows hshows, hobject, if_neg Bool.false_ne_true,
    isArray_of_shows hshows, harray, if_neg Bool.false_ne_true]

/-- The objects of a document are changed in its tree. The space around it is left out. -/
theorem mapObjects_source (hf : Writes f g)
    (hcontainer : d.root.isObject = true ∨ d.root.isArray = true) :
    mapObjects f d.source = (d.root.mapObjects g).source := by
  have hshows := Evaluator.shows_document d
  cases hobject : d.root.isObject with
  | true =>
      rw [mapObjects, isObject_of_shows hshows, hobject, if_pos rfl,
        hf _ _ hshows hobject,
        Tree.mapObjects_of_isObject hobject]
  | false =>
      have harray : d.root.isArray = true := by simpa [hobject] using hcontainer
      have hitems : ((document d.source).array.map fun e => if e.isObject then f e else e.raw) =
          d.root.elements.map fun e => (if e.isObject then g e else e).source := by
        refine map_eq_of_forall₂ ((forall₂_array hshows harray).imp fun s t hst => ?_)
        rw [isObject_of_shows hst]
        cases ht : t.isObject with
        | true => exact hf s t hst ht
        | false => exact hst.2
      rw [mapObjects, isObject_of_shows hshows, hobject, if_neg Bool.false_ne_true,
        isArray_of_shows hshows, harray, if_pos rfl, hitems, Tree.mapObjects_of_isArray harray,
        Tree.source_arrayOf, List.map_map]
      rfl

theorem isObject_or_isArray_mapObjects (hobject : ∀ t, (g t).isObject = true) {t : Tree}
    (hcontainer : t.isObject = true ∨ t.isArray = true) :
    (t.mapObjects g).isObject = true ∨ (t.mapObjects g).isArray = true := by
  rcases hcontainer with h | h
  · rw [Tree.mapObjects_of_isObject h]
    exact .inl (hobject t)
  · rw [Tree.mapObjects_of_isArray h]
    exact .inr (Tree.isArray_arrayOf _)

/-- So a document does not change again, if its tree does not. -/
theorem mapObjects_source_again (hf : Writes f g) (hobject : ∀ t, (g t).isObject = true)
    (hagain : ∀ t, g (g t) = g t) (d : Document) :
    mapObjects f (mapObjects f d.source) = mapObjects f d.source := by
  by_cases hcontainer : d.root.isObject = true ∨ d.root.isArray = true
  · have hout := mapObjects_source hf (d := .bare (d.root.mapObjects g))
      (isObject_or_isArray_mapObjects hobject hcontainer)
    rw [Document.source_bare, Document.bare, Tree.mapObjects_again hobject hagain] at hout
    rw [mapObjects_source hf hcontainer, hout]
  · rw [not_or, Bool.not_eq_true, Bool.not_eq_true] at hcontainer
    have hsame := mapObjects_scalar f hcontainer.1 hcontainer.2
    rw [hsame, hsame]

end MapObjects

/-! ## Texts that are filled -/

/-- Defaults as they are written. -/
def defaultTrees (defaults : List (Text × Value)) : List (Text × Tree) :=
  defaults.map fun m => (m.1, m.2.tree)

theorem names_defaultTrees (defaults : List (Text × Value)) :
    names (defaultTrees defaults) = names defaults := by
  rw [names, defaultTrees, List.map_map]
  rfl

theorem lookup_defaultTrees (defaults : List (Text × Value)) (name : Text) :
    (defaultTrees defaults).lookup name = (defaults.lookup name).map Value.tree :=
  lookup_map (fun _ => Value.tree) defaults name

/-- The text of a member, or that of the default for its name in place of null. -/
def filledText (defaults : List (Text × Value)) (m : Text × Kind × Text) : Text :=
  if m.2.1 == .null then ((defaults.lookup m.1).map Value.encode).getD m.2.2 else m.2.2

theorem source_orDefault (defaults : List (Text × Value)) (name : Text) (v : Tree) :
    (Tree.orDefault (defaultTrees defaults) name v).source =
      filledText defaults (name, v.kind, v.source) := by
  rw [Tree.orDefault, filledText, lookup_defaultTrees]
  split
  · cases defaults.lookup name with
    | none => rfl
    | some default => exact default.source_tree
  · rfl

section Written

variable {s : Selection} {t : Tree}

/-- The members with defaults in place of null, as they are written. -/
theorem map_filled_members (defaults : List (Text × Value)) (h : s.Shows t)
    (hobject : t.isObject = true) :
    (s.members.map fun m => match defaults.lookup m.1 with
      | some default => (m.1, if m.2.kind == .null then default.encode else m.2.raw)
      | none => (m.1, m.2.raw)) =
      (firstMembers t.members).map fun m =>
        (m.1, (Tree.orDefault (defaultTrees defaults) m.1 m.2).source) := by
  have hfilled := congrArg (List.map fun m => (m.1, filledText defaults m))
    (map_members_of_shows h hobject)
  rw [List.map_map, List.map_map] at hfilled
  simp only [source_orDefault]
  refine Eq.trans (List.map_congr_left fun m _ => ?_) hfilled
  rw [Function.comp_apply, filledText]
  cases defaults.lookup m.1 <;> simp

/-- A name is absent from the members that are read if it is absent from the object. -/
theorem any_members_eq (h : s.Shows t) (hobject : t.isObject = true) (name : Text) :
    (!s.members.any (·.1 == name)) = decide (name ∉ names t.members) := by
  have hfirst := congrArg names (map_members_of_shows h hobject)
  rw [names, names, List.map_map, List.map_map] at hfirst
  have hnames : names s.members = (names t.members).eraseDups :=
    hfirst.trans (names_firstMembers _)
  rw [Bool.eq_iff_iff, Bool.not_eq_true', ← Bool.not_eq_true, any_name_iff, hnames,
    List.mem_eraseDups, decide_eq_true_iff]

/-- The defaults that an object lacks, as they are written. -/
theorem map_added_defaults (defaults : List (Text × Value)) (h : s.Shows t)
    (hobject : t.isObject = true) :
    (defaults.filter fun m => !s.members.any (·.1 == m.1)).map (fun m => (m.1, m.2.encode)) =
      ((defaultTrees defaults).filter fun m => m.1 ∉ names t.members).map
        fun m => (m.1, m.2.source) := by
  rw [defaultTrees, List.filter_map, List.map_map,
    List.filter_congr fun m _ => any_members_eq h hobject m.1]
  exact List.map_congr_left fun m _ => by simp [Value.source_tree]

end Written

/-- The text of an object is filled as the object is. -/
theorem withDefaults_writes (defaults : List (Text × Value)) :
    Writes (withDefaults defaults) (Tree.withDefaults (defaultTrees defaults)) := by
  intro s t h hobject
  rw [Tree.withDefaults, Tree.source_objectOf, Tree.filled, List.map_append, List.map_map]
  have hown := map_filled_members defaults h hobject
  have hadded := map_added_defaults defaults h hobject
  exact congrArg composeObject (congrArg₂ (· ++ ·) hown hadded)

/-! ## What is filled -/

/--
A text that fills an object with defaults: every name of the object or of the defaults is there
once, those of the object first, and null gives way to the default for a name.
-/
structure Filled (defaults : List (Text × Value)) (t : Tree) (out : Text) : Prop where
  /-- It is an object of the grammar, written without space. -/
  composed : ∃ ms : List (Text × Tree), out = (Tree.objectOf ms).source
  names : (Json.members out).map (fun m => Quoted.text m.key.raw) =
    (Json.names t.members).eraseDups ++ (Json.names defaults).filter (· ∉ Json.names t.members)
  distinct : ((Json.members out).map fun m => Quoted.text m.key.raw).Nodup
  /-- What is not null, or has no default, is spelled as it was. -/
  kept : ∀ m ∈ Json.members out, ∀ v, t.field (Quoted.text m.key.raw) = some v →
    v.kind ≠ .null ∨ defaults.lookup (Quoted.text m.key.raw) = none → m.value.raw = v.source
  /-- What is null or absent is the default. -/
  gap : ∀ m ∈ Json.members out, ∀ default,
    defaults.lookup (Quoted.text m.key.raw) = some default →
      (∀ v, t.field (Quoted.text m.key.raw) = some v → v.kind = .null) →
        m.value.raw = default.encode

/-- The text under a name is that of the first member with the name, or that of the default. -/
theorem raw_of_mem_members {defaults : List (Text × Value)} (h : (names defaults).Nodup) {t : Tree}
    {m : Member} (hm : m ∈ Json.members (t.withDefaults (defaultTrees defaults)).source) :
    (∀ v, t.field (Quoted.text m.key.raw) = some v →
        m.value.raw = filledText defaults (Quoted.text m.key.raw, v.kind, v.source)) ∧
      (t.field (Quoted.text m.key.raw) = none →
        ∀ default, defaults.lookup (Quoted.text m.key.raw) = some default →
          m.value.raw = default.encode) := by
  have hmem := List.mem_map_of_mem (f := fun m => (Quoted.text m.key.raw, m.value.raw)) hm
  rw [Tree.named_members_source, Tree.withDefaults, Tree.members_objectOf] at hmem
  obtain ⟨named, hnamed, heq⟩ := List.mem_map.1 hmem
  obtain ⟨hname, hvalue⟩ := Prod.mk.inj heq
  rw [← names_defaultTrees] at h
  have hlookup := lookup_of_mem (Tree.nodup_filled h t) hnamed
  rw [Tree.lookup_filled, hname, lookup_defaultTrees] at hlookup
  constructor
  · intro v hv
    rw [hv, Option.map_some, Option.some_or, Option.some.injEq] at hlookup
    rw [← hvalue, ← hlookup, source_orDefault]
  · intro hnone default hdefault
    rw [hnone, Option.map_none, Option.none_or, hdefault, Option.map_some,
      Option.some.injEq] at hlookup
    rw [← hvalue, ← hlookup, default.source_tree]

theorem filled_withDefaults {defaults : List (Text × Value)} (h : (names defaults).Nodup)
    (t : Tree) : Filled defaults t (t.withDefaults (defaultTrees defaults)).source := by
  have hnames : (Json.members (t.withDefaults (defaultTrees defaults)).source).map
      (fun m => Quoted.text m.key.raw) = names (t.filled (defaultTrees defaults)) := by
    have hscan := congrArg (List.map (·.1))
      (t.withDefaults (defaultTrees defaults)).named_members_source
    rwa [List.map_map, List.map_map, Tree.withDefaults, Tree.members_objectOf] at hscan
  refine ⟨⟨_, rfl⟩, ?_, ?_, ?_, ?_⟩
  · rw [hnames, Tree.names_filled, names_defaultTrees]
  · rw [hnames]
    exact Tree.nodup_filled (by rwa [names_defaultTrees]) t
  · intro m hm v hv hkept
    rw [(raw_of_mem_members h hm).1 v hv, filledText]
    rcases hkept with hvalue | hnone
    · simp [hvalue]
    · simp [hnone]
  · intro m hm default hdefault hgap
    cases hfield : t.field (Quoted.text m.key.raw) with
    | none => exact (raw_of_mem_members h hm).2 hfield default hdefault
    | some v =>
        rw [(raw_of_mem_members h hm).1 v hfield, filledText]
        simp [hgap v hfield, hdefault]

/--
In a well-formed document the defaults of an argument fill gaps only. An object becomes one in which
every name of its own and of the defaults is once, with the default where its first value is null or
absent, and spelled as it was elsewhere. In an array this happens to all objects, and the other
elements stay as they are spelled. Any other document stays as it is. To fill what has been filled
changes nothing.
-/
theorem fillDefaults_fills (follow : Follow) {json argument : Text}
    {defaults : List (Text × Value)} (hjson : wellFormed none json = true)
    (hargument : defaults? argument = some defaults) :
    (∃ d : Document, d.source = json) ∧
      (∀ d : Document, d.source = json →
        (d.root.isObject = true → Filled defaults d.root (fillDefaults follow json argument)) ∧
        (d.root.isArray = true →
          (∃ items, fillDefaults follow json argument = composeArray items) ∧
            List.Forall₂
              (fun e v => if e.isObject then Filled defaults e v.raw else v.raw = e.source)
              d.root.elements (Json.elements (fillDefaults follow json argument))) ∧
        (d.root.isObject = false → d.root.isArray = false →
          fillDefaults follow json argument = json)) ∧
      fillDefaults follow (fillDefaults follow json argument) argument =
        fillDefaults follow json argument := by
  have hwrites := withDefaults_writes defaults
  have hdistinct := nodup_of_defaults? hargument
  have hfill : ∀ t, fillDefaults follow t argument = mapObjects (withDefaults defaults) t := by
    intro t
    rw [fillDefaults, withArgument, hargument]
  obtain ⟨root, hroot, -⟩ := wellFormed_iff.1 hjson
  refine ⟨⟨root, hroot⟩, ?_, ?_⟩
  · rintro d rfl
    rw [hfill]
    refine ⟨fun hobject => ?_, fun harray => ⟨?_, ?_⟩, mapObjects_scalar _⟩
    · rw [mapObjects_source hwrites (.inl hobject), Tree.mapObjects_of_isObject hobject]
      exact filled_withDefaults hdistinct d.root
    · rw [mapObjects_source hwrites (.inr harray), Tree.mapObjects_of_isArray harray,
        Tree.source_arrayOf]
      exact ⟨_, rfl⟩
    · have hraws := Tree.raws_elements_source
        (d.root.mapObjects (Tree.withDefaults (defaultTrees defaults)))
      rw [Tree.mapObjects_of_isArray harray, Tree.elements_arrayOf, List.map_map] at hraws
      rw [mapObjects_source hwrites (.inr harray), Tree.mapObjects_of_isArray harray]
      refine (forall₂_of_map_eq hraws.symm).imp fun e v hv => ?_
      rw [← hv, Function.comp_apply]
      cases e.isObject with
      | true => exact filled_withDefaults hdistinct e
      | false => rfl
  · subst hroot
    rw [hfill, hfill]
    refine mapObjects_source_again hwrites (fun t => Tree.isObject_objectOf _) (fun t => ?_) root
    exact Tree.withDefaults_again (by rwa [names_defaultTrees]) t

/-- An object with a repeated name, and values that are null. -/
def nullMembers : Document :=
  .bare (.objectOf [(['a'], Value.null.tree), (['a'], .ofNat 1), (['b'], Value.null.tree),
    (['c'], .ofNat 2)])

/-- One null gives way to its default, another is null by default, and one default is added. -/
theorem fillDefaults_fills_of_nulls :
    wellFormed none nullMembers.source = true ∧ nullMembers.root.isObject = true ∧
      (∃ defaults, defaults? "\x7b\"d\":[3 ],\"b\":null,\"a\":5\x7d".toList = some defaults) ∧
      (Json.members (fillDefaults (fun _ => .error .empty) nullMembers.source
        "\x7b\"d\":[3 ],\"b\":null,\"a\":5\x7d".toList)).map
          (fun m => Quoted.text m.key.raw) = [['a'], ['b'], ['c'], ['d']] ∧
      fillDefaults (fun _ => .error .empty)
          "\x7b\"a\":5,\"b\":null,\"c\":2,\"d\":[3]\x7d".toList
          "\x7b\"d\":[3 ],\"b\":null,\"a\":5\x7d".toList =
        "\x7b\"a\":5,\"b\":null,\"c\":2,\"d\":[3]\x7d".toList := by
  have hwf : wellFormed none nullMembers.source = true := by decide +kernel
  have hnames : (defaults? "\x7b\"d\":[3 ],\"b\":null,\"a\":5\x7d".toList).map names =
      some [['d'], ['b'], ['a']] := by
    decide +kernel
  have hout : fillDefaults (fun _ => .error .empty) nullMembers.source
      "\x7b\"d\":[3 ],\"b\":null,\"a\":5\x7d".toList =
        "\x7b\"a\":5,\"b\":null,\"c\":2,\"d\":[3]\x7d".toList := by
    decide +kernel
  obtain ⟨defaults, hdefaults, hthree⟩ := Option.map_eq_some_iff.1 hnames
  have hfilled := (fillDefaults_fills (fun _ => .error .empty) hwf hdefaults).2
  refine ⟨hwf, rfl, ⟨defaults, hdefaults⟩, ((hfilled.1 nullMembers rfl).1 rfl).names.trans ?_, ?_⟩
  · rw [hthree]
    decide +kernel
  · rw [← hout]
    exact hfilled.2

end Transformer

end DotPath
