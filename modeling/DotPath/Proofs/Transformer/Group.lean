import DotPath.Proofs.Evaluator.Gathered
import DotPath.Proofs.Indexed.Group
import DotPath.Proofs.Transformer.Reading

/-!
# Columns that are grouped into rows

An object of arrays is a table that is given by columns: the members that are arrays, under their
keys. It is turned into an array of objects, one for each row of the table. As many rows are made as
the longest column has elements. A member that is no array has no part in them.

Where the names of the members are distinct, the way back is a path: the values of one name,
collected from the rows, are the elements of the column, however long the other columns are.

## Main definitions

* `Json.Tree.columns`: the members of an object that are arrays.

## Main results

* `groupColumns_source`: the rows of a document.
* `groupColumns_transposes`: what the rows consist of, and what is collected from them.
-/

namespace DotPath

open Json Selection

/-- The elements of the members that are arrays, under the keys of the members. -/
def Json.Tree.columns (t : Tree) : Table Key Tree :=
  t.entries.filterMap fun e => if e.2.isArray then some (e.1, e.2.elements) else none

theorem Json.Tree.mem_columns_iff {t : Tree} {c : Key × List Tree} :
    c ∈ t.columns ↔ ∃ e ∈ t.entries, e.2.isArray = true ∧ (e.1, e.2.elements) = c := by
  rw [columns, List.mem_filterMap]
  refine exists_congr fun e => and_congr_right fun _ => ?_
  cases e.2.isArray <;> simp

/-- The rows of an object of arrays, each an object. -/
def Json.Tree.grouped (t : Tree) : List Tree :=
  (Table.rows t.columns).map objectOfKeys

namespace Transformer

/-! ## Rows of documents -/

theorem columns_source (d : Document) :
    columns d.source = d.root.columns.map fun c => (c.1.source, c.2.map Tree.source) := by
  rw [columns, spelledMembers_of_shows (Evaluator.shows_document d), List.filterMap_map,
    Tree.columns, List.map_filterMap]
  refine List.filterMap_congr fun e _ => ?_
  rw [Function.comp_apply]
  dsimp only
  rw [e.2.opensArray_source, e.2.raws_elements_source]
  split <;> rfl

theorem groupColumns_eq (follow : Follow) (json argument : Text) :
    groupColumns follow json argument =
      if (document json).isObject then
        composeArray ((Table.rows (columns json)).map composeMembers)
      else json := by
  rw [Table.rows, List.map_map, Table.height, List.foldl_map]
  rfl

/-- A document that is an object is grouped into an array of its rows. -/
theorem groupColumns_source (follow : Follow) {d : Document} (hobject : d.root.isObject = true)
    (argument : Text) :
    groupColumns follow d.source argument = (Tree.arrayOf d.root.grouped).source := by
  rw [groupColumns_eq, isObject_of_shows (Evaluator.shows_document d), hobject, if_pos rfl,
    columns_source, Table.rows_map, Tree.source_arrayOf, Tree.grouped, List.map_map, List.map_map]
  refine congrArg composeArray (List.map_congr_left fun r _ => ?_)
  exact (Tree.source_objectOfKeys r).symm

/-! ## Columns from rows -/

/-- The columns under their decoded names. -/
theorem decoded_columns (t : Tree) :
    (t.columns.map fun c => (Quoted.text c.1.source, c.2)) =
      (t.members.filter (·.2.isArray)).map fun m => (m.1, m.2.elements) := by
  rw [Tree.columns, List.map_filterMap, t.members_eq, List.filter_map, List.map_map,
    ← List.filterMap_eq_map, List.filterMap_filter]
  refine List.filterMap_congr fun e _ => ?_
  rw [Function.comp_apply]
  dsimp only
  split <;> rfl

/-- Where names are distinct, the values with one name in the rows are the column. -/
theorem filterMap_field_grouped {t : Tree} (hnodup : (names t.members).Nodup) {m : Text × Tree}
    (hm : m ∈ t.members) (harray : m.2.isArray = true) :
    t.grouped.filterMap (·.field m.1) = m.2.elements := by
  have hdecoded := decoded_columns t
  have hdistinct : (names (t.columns.map fun c => (Quoted.text c.1.source, c.2))).Nodup := by
    rw [hdecoded, names, List.map_map]
    exact hnodup.sublist (List.filter_sublist.map _)
  have hcolumn : (m.1, m.2.elements) ∈ t.columns.map fun c => (Quoted.text c.1.source, c.2) := by
    rw [hdecoded]
    exact List.mem_map_of_mem (List.mem_filter.2 ⟨hm, harray⟩)
  have hrows := Table.rows_map (fun key : Key => Quoted.text key.source) id t.columns
  simp only [List.map_id, id] at hrows
  have hback := Table.filterMap_lookup_rows hdistinct hcolumn
  rw [hrows, List.filterMap_map] at hback
  rw [Tree.grouped, List.filterMap_map, ← hback]
  refine List.filterMap_congr fun r _ => ?_
  rw [Function.comp_apply, Tree.field_eq, Tree.members_eq, Tree.entries_objectOfKeys]
  rfl

/-- What is collected from an array, one by one and as an array. -/
theorem collected (ev : Evaluator) {d : Document} (harray : d.root.isArray = true) (each : Path)
    (heach : Path.navigates each = true) :
    (ev.evalAll d.source [.collect each]).map (·.raw) =
        (d.root.elements.filterMap fun e => e.follow ev.options.maxDepth each).map Tree.source ∧
      (ev.eval d.source [.collect each]).raw = composeArray
        ((d.root.elements.filterMap fun e => e.follow ev.options.maxDepth each).map
          Tree.source) := by
  have hshows := Evaluator.shows_document d
  constructor
  · have hall : ev.evalAll d.source [.collect each] =
        if (ev.eval d.source []).isPresent then
          ev.items (ev.eval d.source []) (.collect each) else [] :=
      @Evaluator.evalAll_concat ev d.source [] (.collect each) rfl fun lines _ => nofun
    rw [ev.eval_nil, hshows.isPresent, if_pos rfl, Evaluator.items,
      isArray_of_shows hshows, harray, if_pos rfl] at hall
    rw [hall]
    exact map_eq_of_forall₂ ((forall₂_present (forall₂_array hshows harray) fun s t hst =>
      ev.resolve_agrees each heach hst).imp fun s t hst => hst.2)
  · have hpath : Path.navigates [.collect each] = true := by
      rw [Path.navigates, Segment.navigates, heach]
      rfl
    have hagrees := ev.eval_agrees d hpath
    rw [Tree.follow, Tree.followStep, if_pos harray] at hagrees
    exact hagrees.2.trans (Tree.source_arrayOf _)

/--
In a well-formed document that is an object, the members that are arrays are the columns of a table,
and the document is grouped into the rows of the table. These are objects with a member for every
column that is long enough, spelled as in the document and in the same order, and there are as many
of them as the longest column has elements. If the names of the members are distinct, the values
that are collected from the rows under the name of a column are its elements, as they are written.

To let the rows grow with the columns comes to the same.
-/
theorem groupColumns_transposes (follow : Follow) {json : Text}
    (hjson : wellFormed none json = true) (argument : Text) :
    (∃ d : Document, d.source = json) ∧
      ∀ d : Document, d.source = json → d.root.isObject = true →
        Indexed.group json = .some (groupColumns follow json argument) ∧
        (Json.elements (groupColumns follow json argument)).map (·.raw) =
          d.root.grouped.map Tree.source ∧
        groupColumns follow json argument = composeArray (d.root.grouped.map Tree.source) ∧
        (∀ r ∈ d.root.grouped, r.isObject = true) ∧
        d.root.grouped.map Tree.entries = Table.rows d.root.columns ∧
        (∀ e ∈ d.root.entries, e.2.isArray = true →
          e.2.elements.length ≤ d.root.grouped.length) ∧
        (d.root.grouped = [] ∨ ∃ e ∈ d.root.entries, e.2.isArray = true ∧
          e.2.elements.length = d.root.grouped.length) ∧
        ((names d.root.members).Nodup → ∀ m ∈ d.root.members, m.2.isArray = true →
          ∀ ev : Evaluator,
            (ev.evalAll (groupColumns follow json argument) [.collect [.field m.1]]).map (·.raw) =
                m.2.elements.map Tree.source ∧
              (ev.eval (groupColumns follow json argument) [.collect [.field m.1]]).raw =
                composeArray (m.2.elements.map Tree.source)) := by
  obtain ⟨root, hroot, -⟩ := wellFormed_iff.1 hjson
  refine ⟨⟨root, hroot⟩, ?_⟩
  rintro d rfl hobject
  have hout := groupColumns_source follow hobject argument
  have hlength : d.root.grouped.length = Table.height d.root.columns := by
    rw [Tree.grouped, List.length_map, Table.length_rows]
  refine ⟨?_, ?_, ?_, ?_, ?_, ?_, ?_, ?_⟩
  · rw [Indexed.group_eq, groupColumns_eq]
  · rw [hout, Tree.raws_elements_source, Tree.elements_arrayOf]
  · rw [hout, Tree.source_arrayOf]
  · intro r hr
    obtain ⟨cells, -, rfl⟩ := List.mem_map.1 hr
    exact Tree.isObject_objectOfKeys cells
  · rw [Tree.grouped, List.map_map]
    exact (List.map_congr_left fun r _ => Tree.entries_objectOfKeys r).trans (List.map_id _)
  · intro e he harray
    rw [hlength]
    exact Table.le_height (Tree.mem_columns_iff.2 ⟨e, he, harray, rfl⟩)
  · rcases Table.exists_height_eq d.root.columns with hzero | ⟨c, hc, hheight⟩
    · exact .inl (List.eq_nil_of_length_eq_zero (hlength.trans hzero))
    · obtain ⟨e, he, harray, rfl⟩ := Tree.mem_columns_iff.1 hc
      exact .inr ⟨e, he, harray, hheight.trans hlength.symm⟩
  · intro hnodup m hm harray ev
    have hisArray : (Document.bare (.arrayOf d.root.grouped)).root.isArray = true :=
      Tree.isArray_arrayOf _
    have hfield : (fun r : Tree => r.follow ev.options.maxDepth [.field m.1]) = (·.field m.1) := by
      funext r
      rw [Tree.follow, Tree.followStep]
      cases r.field m.1 <;> rfl
    have hcollected := collected ev hisArray [.field m.1] rfl
    rw [Document.source_bare, Document.bare, Tree.elements_arrayOf, hfield,
      filterMap_field_grouped hnodup hm harray] at hcollected
    rw [hout]
    exact hcollected

/-- Two columns of unequal length, one of them under a name with a quote, and a number. -/
def unequalColumns : Document :=
  .bare (.objectOf [("\"é".toList, .arrayOf [.ofNat 1, .ofNat 2]), (['b'], .ofNat 7),
    (['c'], .arrayOf [.ofNat 3])])

/-- There are two rows, and the longer column is collected from both. -/
theorem groupColumns_transposes_of_unequal :
    wellFormed none unequalColumns.source = true ∧ unequalColumns.root.isObject = true ∧
      (names unequalColumns.root.members).Nodup ∧
      Indexed.group unequalColumns.source =
        .some "[\x7b\"\\\"é\":1,\"c\":3\x7d,\x7b\"\\\"é\":2\x7d]".toList ∧
      (Evaluator.evalAll ⟨⟨true, 256⟩, fun _ => none⟩
        "[\x7b\"\\\"é\":1,\"c\":3\x7d,\x7b\"\\\"é\":2\x7d]".toList
          [.collect [.field "\"é".toList]]).map (·.raw) = [['1'], ['2']] := by
  have hwf : wellFormed none unequalColumns.source = true := by decide +kernel
  have hnames : (names unequalColumns.root.members).Nodup := by decide +kernel
  have hout : groupColumns (fun _ => .error .empty) unequalColumns.source [] =
      "[\x7b\"\\\"é\":1,\"c\":3\x7d,\x7b\"\\\"é\":2\x7d]".toList := by
    decide +kernel
  have hcolumn : ("\"é".toList, Tree.arrayOf [.ofNat 1, .ofNat 2]) ∈
      unequalColumns.root.members := by
    rw [unequalColumns, Document.bare, Tree.members_objectOf]
    exact List.mem_cons_self
  obtain ⟨hgrown, -, -, -, -, -, -, hback⟩ :=
    (groupColumns_transposes (fun _ => .error .empty) hwf []).2 unequalColumns rfl rfl
  have hcollected := (hback hnames _ hcolumn rfl ⟨⟨true, 256⟩, fun _ => none⟩).1
  rw [hout] at hgrown hcollected
  exact ⟨hwf, rfl, hnames, hgrown, hcollected⟩

end Transformer

end DotPath
