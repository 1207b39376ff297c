import DotPath.Proofs.Indexed.Selection
import DotPath.Proofs.Transformer.Columns
import DotPath.Transformer.Structure

/-!
# Rows that grow with the columns

A table of columns can be turned into rows in one pass. Each cell of a column is put behind what is
in its row, and a row is added when the column is the first to reach so far. So at any time the rows
are those of the table of what has been read: the columns before, and a part of the current one.
Since a column is read without gaps, a row that is added is always the next one, and no cell is ever
put into a row that is not there.

## Main definitions

* `group`: an object of arrays as an array of objects.

## Main results

* `placeCell_rows`: one more cell of the last column.
* `group_eq`: the rows are those of the whole table.
-/

namespace DotPath.Indexed

open Json

/-- The rows of a table that is being read. -/
abbrev Rows := List (List (Text × Text))

/-- The rows with another one, if there are no more than up to an index. -/
def grow (rows : Rows) (i : Nat) : Rows :=
  if rows.length ≤ i then rows ++ [[]] else rows

/-- Puts a cell behind what is in a row; the row is added if it is the next one. -/
def placeCell (rows : Rows) (i : Nat) (cell : Text × Text) : Part Rows :=
  .assert (i < (grow rows i).length) fun _ => .some ((grow rows i).modify i (· ++ [cell]))

/-- Puts the elements of a column into the rows from an index on. -/
def placeColumn (key value : Text) (i : Nat) (rows : Rows) : List Span → Part Rows
  | [] => pure rows
  | e :: rest => do
    let rows ← placeCell rows i (key, ← slice value e.start e.stop)
    placeColumn key value (i + 1) rows rest

/-- Puts the elements of a member into the rows, if it is an array. -/
def placeMember (rows : Rows) (m : Text × Text) : Part Rows := do
  if m.2.asOctets[0]? == some '[' then
    placeColumn m.1 m.2 0 rows (← elements m.2.asOctets 0)
  else pure rows

/-- Keys and values of an object as they are spelled. -/
def spelledMembers (src : Text) : Part (List (Text × Text)) := do
  match ← firstValue src with
  | none => return []
  | some root =>
    (← members src.asOctets root.start).mapM fun m => do
      return (← slice src m.1.start m.1.stop, ← slice src m.2.start m.2.stop)

/-- An object of arrays as an array of objects; any other text as it is. -/
def group (src : Text) : Part Text := do
  if (← document src).isObject then
    let rows ← (← spelledMembers src).foldlM placeMember []
    return composeArray (rows.map composeMembers)
  else return src

/-! ## Members -/

theorem spelledMembers_eq (src : Text) :
    spelledMembers src = .some (Transformer.spelledMembers src) := by
  rw [spelledMembers, firstValue_eq, some_bind, Transformer.spelledMembers, Selection.document]
  have hroot := (Place.start_liesIn src).skipSpace
  have hslices : ∀ m ∈ membersAt (Place.start src).skipSpace,
      (do return (← slice src (spans m).1.start (spans m).1.stop,
        ← slice src (spans m).2.start (spans m).2.stop) : Part (Text × Text)) =
          .some (m.key.raw, m.value.raw) := by
    intro m hm
    have hkey : slice src (spans m).1.start (spans m).1.stop = .some m.key.raw :=
      slice_of (key_of_mem_membersAt hroot hm).1.1
    have hvalue : slice src (spans m).2.start (spans m).2.stop = .some m.value.raw :=
      slice_of (isIn_of_mem_membersAt hroot hm).1
    rw [hkey, some_bind, hvalue]
    exact some_bind _ _
  rw [firstValue?]
  cases hvalue : (Place.start src).skipSpace.value? with
  | none => rfl
  | some r =>
      obtain ⟨root, next⟩ := r
      have hstart : (Span.of root).start = (Place.start src).skipSpace.offset :=
        (Place.eq_of_value? hvalue).2.1
      dsimp only [Option.map_some]
      rw [hstart, members_place (ends_skipSpace (ends_start src)), some_bind, mapM_map hslices,
        membersAt_eq hvalue, List.map_map]
      rfl

/-! ## Rows -/

/-- A column that has not been read yet makes no difference. -/
theorem rows_concat_nil (table : Table Text Text) (key : Text) :
    Table.rows (table ++ [(key, [])]) = table.rows := by
  have hcells : Table.cells (table ++ [(key, [])]) = table.cells := by
    funext i
    rw [Table.cells_concat]
    exact List.append_nil _
  rw [Table.rows, hcells, Table.height_concat, Table.rows]
  exact congrArg (fun n => (List.range n).map table.cells) (Nat.max_zero _)

theorem getElem?_grow (table : Table Text Text) (key : Text) (column : List Text) (i : Nat) :
    (grow (Table.rows (table ++ [(key, column)])) column.length)[i]? =
      if i < max table.height (column.length + 1) then
        some (Table.cells (table ++ [(key, column)]) i) else none := by
  have hheight : Table.height (table ++ [(key, column)]) = max table.height column.length :=
    Table.height_concat table (key, column)
  have hlength := Table.length_rows (table ++ [(key, column)])
  rw [grow, hlength]
  by_cases hgrow : Table.height (table ++ [(key, column)]) ≤ column.length
  · rw [if_pos hgrow]
    by_cases hi : i < Table.height (table ++ [(key, column)])
    · rw [List.getElem?_append_left (by omega), Table.getElem?_rows, if_pos hi, if_pos (by omega)]
    · rw [List.getElem?_append_right (by omega), hlength, Table.cells_eq_nil (Nat.le_of_not_lt hi)]
      by_cases hnext : i = column.length
      · rw [if_pos (by omega), show i - Table.height (table ++ [(key, column)]) = 0 by omega]
        rfl
      · rw [if_neg (by omega), List.getElem?_eq_none]
        rw [List.length_singleton]
        omega
  · have hsame :
        Table.height (table ++ [(key, column)]) = max table.height (column.length + 1) := by
      omega
    rw [if_neg hgrow, Table.getElem?_rows, hsame]

/-- One more cell of the last column. -/
theorem placeCell_rows (table : Table Text Text) (key : Text) (column : List Text) (v : Text) :
    placeCell (Table.rows (table ++ [(key, column)])) column.length (key, v) =
      .some (Table.rows (table ++ [(key, column ++ [v])])) := by
  have hheight : Table.height (table ++ [(key, column ++ [v])]) =
      max table.height (column.length + 1) := by
    rw [Table.height_concat, List.length_append, List.length_singleton]
  have hrow := getElem?_grow table key column column.length
  rw [if_pos (by omega)] at hrow
  obtain ⟨hthere, -⟩ := List.getElem?_eq_some_iff.1 hrow
  rw [placeCell, Part.assert_pos hthere]
  refine congrArg Part.some (List.ext_getElem? fun i => ?_)
  rw [List.getElem?_modify, getElem?_grow, Table.getElem?_rows, hheight, Table.cells_concat_cell]
  by_cases hi : column.length = i
  · subst hi
    have hlt : column.length < max table.height (column.length + 1) := by omega
    simp only [hlt, if_true]
    rfl
  · simp only [hi, Ne.symm hi, if_false, List.append_nil]
    exact id_map _

/-- The elements of a value are put behind those that have been read. -/
theorem placeColumn_rows (table : Table Text Text) (key : Text) (column : List Text) {value : Text}
    {es : List Occurrence} (hes : ∀ e ∈ es, StandsAt value e.raw e.offset) :
    placeColumn key value column.length (Table.rows (table ++ [(key, column)])) (es.map .of) =
      .some (Table.rows (table ++ [(key, column ++ es.map (·.raw))])) := by
  induction es generalizing column with
  | nil =>
      rw [List.map_nil, List.map_nil, List.append_nil]
      rfl
  | cons e es ih =>
      have hrest := ih (column ++ [e.raw]) fun e' he' => hes e' (List.mem_cons_of_mem e he')
      rw [List.length_append, List.length_singleton, List.append_assoc, List.singleton_append]
        at hrest
      rw [List.map_cons, placeColumn, slice_of (hes e List.mem_cons_self), some_bind,
        placeCell_rows, some_bind, hrest]
      rfl

/-- The columns of a table that is given by members. -/
theorem foldlM_placeMember (ms : List (Text × Text)) (table : Table Text Text) :
    ms.foldlM placeMember table.rows = .some (Table.rows (table ++ ms.filterMap fun m =>
      if opensArray m.2 then some (m.1, (Json.elements m.2).map (·.raw)) else none)) := by
  induction ms generalizing table with
  | nil =>
      rw [List.filterMap_nil, List.append_nil]
      rfl
  | cons m ms ih =>
      rw [List.foldlM_cons, placeMember, octets_opensArray, List.filterMap_cons]
      cases harray : opensArray m.2 with
      | false =>
          rw [if_neg Bool.false_ne_true, if_neg Bool.false_ne_true]
          exact (some_bind _ _).trans (ih table)
      | true =>
          have hcolumn := placeColumn_rows table m.1 []
            fun e he => (isIn_of_mem_elements (t := m.2) he).1
          rw [rows_concat_nil, List.nil_append, List.length_nil] at hcolumn
          rw [if_pos rfl, if_pos rfl, elements_eq, some_bind, hcolumn, some_bind, ih,
            List.append_assoc, List.singleton_append]

/-- Rows that grow with the columns are, for every text, those of its table. -/
theorem group_eq (src : Text) :
    group src = .some
      (if (Selection.document src).isObject then
        composeArray ((Table.rows (Transformer.columns src)).map composeMembers)
      else src) := by
  have hrows := foldlM_placeMember (Transformer.spelledMembers src) []
  rw [group, document_eq, some_bind]
  split
  · rw [spelledMembers_eq, some_bind]
    have hempty : (Table.rows ([] : Table Text Text)) = [] := rfl
    rw [hempty] at hrows
    rw [hrows, some_bind]
    rfl
  · rfl

end DotPath.Indexed
