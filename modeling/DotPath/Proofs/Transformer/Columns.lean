import DotPath.Proofs.Json.Merged

/-!
# Columns and rows

A table is given by its columns, each under a name. The columns need not be of the same length. Row
`i` has a cell for every column that is long enough, under the name of the column, and there are as
many rows as the longest column has cells.

No cell is lost or moved by this: where the names are distinct, the cells with one name, taken from
the rows in order, are the column that they came from.

## Main definitions

* `rows`: the rows of a table.

## Main results

* `filterMap_lookup_rows`: the column under a name, from the rows.
* `le_height`, `exists_height_eq`: how many rows there are.
-/

namespace DotPath

variable {α β γ δ : Type}

/-- A table: its columns with their names. -/
abbrev Table (α β : Type) := List (α × List β)

namespace Table

/-! ## Height -/

/-- The number of cells in the longest column. -/
def height (table : Table α β) : Nat :=
  (table.map (·.2.length)).foldl max 0

theorem height_concat (table : Table α β) (c : α × List β) :
    height (table ++ [c]) = max table.height c.2.length := by
  rw [height, List.map_append, List.foldl_append]
  rfl

theorem le_height {table : Table α β} {c : α × List β} (hc : c ∈ table) :
    c.2.length ≤ table.height := by
  induction table using List.reverseRecOn with
  | nil => cases hc
  | append_singleton table last ih =>
      rw [height_concat]
      rcases List.mem_append.1 hc with hc | hc
      · exact Nat.le_trans (ih hc) (Nat.le_max_left _ _)
      · rw [List.mem_singleton.1 hc]
        exact Nat.le_max_right _ _

theorem exists_height_eq (table : Table α β) :
    table.height = 0 ∨ ∃ c ∈ table, c.2.length = table.height := by
  induction table using List.reverseRecOn with
  | nil => exact .inl rfl
  | append_singleton table last ih =>
      rw [height_concat]
      by_cases hlast : height table ≤ last.2.length
      · exact .inr ⟨last, by simp, (Nat.max_eq_right hlast).symm⟩
      · rw [Nat.max_eq_left (Nat.le_of_not_le hlast)]
        rcases ih with hzero | ⟨c, hc, hlength⟩
        · omega
        · exact .inr ⟨c, List.mem_append_left _ hc, hlength⟩

/-! ## Rows -/

/-- Row `i`: a cell for every column that is long enough. -/
def cells (table : Table α β) (i : Nat) : List (α × β) :=
  table.filterMap fun c => c.2[i]?.map (c.1, ·)

/-- The rows of a table. -/
def rows (table : Table α β) : List (List (α × β)) :=
  (List.range table.height).map table.cells

theorem cells_concat (table : Table α β) (c : α × List β) (i : Nat) :
    cells (table ++ [c]) i = table.cells i ++ (c.2[i]?.map (c.1, ·)).toList := by
  rw [cells, List.filterMap_append]
  cases hcell : c.2[i]? <;> simp [cells, hcell]

/-- Below the longest column there are no cells. -/
theorem cells_eq_nil {table : Table α β} {i : Nat} (h : table.height ≤ i) : table.cells i = [] := by
  refine List.filterMap_eq_nil_iff.2 fun c hc => ?_
  rw [List.getElem?_eq_none (Nat.le_trans (le_height hc) h)]
  rfl

theorem length_rows (table : Table α β) : table.rows.length = table.height := by
  rw [rows, List.length_map, List.length_range]

theorem getElem?_rows (table : Table α β) (i : Nat) :
    table.rows[i]? = if i < table.height then some (table.cells i) else none := by
  rw [rows, List.getElem?_map]
  by_cases hi : i < table.height
  · rw [List.getElem?_range hi, if_pos hi]
    rfl
  · rw [List.getElem?_eq_none (by simpa using hi), if_neg hi]
    rfl

example :
    Table.rows [("x", [1, 2]), ("y", []), ("z", [3])] = [[("x", 1), ("z", 3)], [("x", 2)]] :=
  rfl

/-- A cell at the end of the last column is at the end of one row. -/
theorem cells_concat_cell (table : Table α β) (name : α) (column : List β) (v : β) (i : Nat) :
    cells (table ++ [(name, column ++ [v])]) i =
      cells (table ++ [(name, column)]) i ++ if i = column.length then [(name, v)] else [] := by
  rw [cells_concat, cells_concat, List.append_assoc]
  congr 1
  dsimp only
  by_cases hi : i = column.length
  · subst hi
    simp
  · rw [if_neg hi, List.append_nil]
    by_cases hlt : i < column.length
    · rw [List.getElem?_append_left hlt]
    · have hpast : column.length + 1 ≤ i := by omega
      rw [List.getElem?_eq_none (by simpa using hpast), List.getElem?_eq_none (by omega)]

/-- Names and cells may be changed before or after. -/
theorem rows_map (f : α → γ) (g : β → δ) (table : Table α β) :
    rows (table.map fun c => (f c.1, c.2.map g)) =
      table.rows.map (List.map fun m => (f m.1, g m.2)) := by
  have hheight : height (table.map fun c => (f c.1, c.2.map g)) = table.height := by
    rw [height, List.map_map, height]
    refine congrArg (List.foldl max 0) (List.map_congr_left fun c _ => ?_)
    exact List.length_map g
  rw [rows, hheight, rows, List.map_map]
  refine List.map_congr_left fun i _ => ?_
  rw [cells, List.filterMap_map, Function.comp_apply, cells, List.map_filterMap]
  refine List.filterMap_congr fun c _ => ?_
  rw [Function.comp_apply, List.getElem?_map, Option.map_map, Option.map_map]
  rfl

/-! ## Columns from rows -/

/-- The names in a row are names of columns. -/
theorem mem_names_of_mem_cells {table : Table Text β} {i : Nat} {name : Text}
    (h : name ∈ Json.names (table.cells i)) : name ∈ Json.names table := by
  obtain ⟨m, hm, rfl⟩ := List.mem_map.1 h
  obtain ⟨c, hc, hcell⟩ := List.mem_filterMap.1 hm
  obtain ⟨v, -, rfl⟩ := Option.map_eq_some_iff.1 hcell
  exact List.mem_map_of_mem (f := (·.1)) hc

/-- The cell of a row under a name is that of the column. -/
theorem lookup_cells {table : Table Text β} (hnodup : (Json.names table).Nodup)
    {name : Text} {column : List β} (hc : (name, column) ∈ table) (i : Nat) :
    (table.cells i).lookup name = column[i]? := by
  induction table with
  | nil => cases hc
  | cons c table ih =>
      obtain ⟨hnew, hrest⟩ := List.nodup_cons.1 hnodup
      rw [cells, List.filterMap_cons]
      rcases List.mem_cons.1 hc with rfl | hc
      · dsimp only
        cases hcell : column[i]? with
        | some v =>
            rw [Option.map_some, List.lookup_cons, beq_self_eq_true]
        | none =>
            rw [Option.map_none]
            exact Json.lookup_eq_none_iff.2 fun hname => hnew (mem_names_of_mem_cells hname)
      · have hne : name ≠ c.1 := by
          rintro rfl
          exact hnew (List.mem_map_of_mem (f := (·.1)) hc)
        rw [← ih hrest hc]
        cases c.2[i]? with
        | some v =>
            rw [Option.map_some]
            dsimp only
            rw [List.lookup_cons, beq_false_of_ne hne]
            rfl
        | none => rfl

theorem filterMap_range_getElem? (column : List β) (n : Nat) :
    (List.range n).filterMap (column[·]?) = column.take n := by
  induction n with
  | zero => rfl
  | succ n ih =>
      rw [List.range_succ, List.filterMap_append, ih, List.take_add_one]
      cases hcell : column[n]? <;> simp [hcell]

/-- Where names are distinct, the cells with a name are the column under it. -/
theorem filterMap_lookup_rows {table : Table Text β} (hnodup : (Json.names table).Nodup)
    {name : Text} {column : List β} (hc : (name, column) ∈ table) :
    table.rows.filterMap (·.lookup name) = column := by
  have hcells : (fun r : List (Text × β) => r.lookup name) ∘ table.cells = (column[·]?) :=
    funext fun i => lookup_cells hnodup hc i
  rw [rows, List.filterMap_map, hcells, filterMap_range_getElem?,
    List.take_of_length_le (le_height hc)]

end Table

end DotPath
