import ChartTemplate.Proofs.Table.Rows
import ChartTemplate.Proofs.Walk.Address

/-!
# The two views of a table

Templates see the cells of a row by name (`Table.named?`), specifications by position
(`Table.positioned?`). A row that can be selected carries its selection name among the named cells, so
the views differ in a column of the name `selection`: `Table.Built.views` says what each of them shows
for every cell of a table that was read.

The constructors give every row its number for a selection name (`Numbered`) and cells under the names
of the columns only (`Table.RowsFor.mem_keys`); that a row has a cell for every column is part of a table
(`Table.covered`).
-/

namespace ChartTemplate

/-- The tables that are read from documents, positional data or comma-separated values. -/
inductive Table.Built (t : Table) : Prop where
  | json (j : Json) (h : Table.ofJson j = .ok t)
  | raw (columns : List Column) (rows : List (List Json)) (h : Table.ofRaw columns rows = .ok t)
  | csv (text : String) (h : Table.ofCsv text = .ok t)

/-- The cell of a row under a name, as templates see it. -/
def Table.named? (t : Table) (i : Nat) (name : String) : Option Json :=
  t.toJson.at? [.key "rows", .index i, .key name]

/-- The cell of a row at a position, as specifications see it. -/
def Table.positioned? (t : Table) (i j : Nat) : Option Json :=
  t.dataset.toJson.at? [.key "source", .index i, .index j]

/-! ## Selection names -/

/-- Rows that can be selected by their numbers, counted from `k`. -/
def Numbered (k : Nat) (rows : List Row) : Prop :=
  ∀ i r, rows[i]? = some r → r.selection = some (selectionName (k + i))

namespace Table

variable {columns : List Column} {t : Table}

inductive RowsFor (columns : List Column) : List Row → Prop where
  | objects {items : List Members} {rows : List Row} (h : objectRows columns 0 items = .ok rows) :
      RowsFor columns rows
  | raw {data : List (List Json)} {rows : List Row} (h : rawRows columns 0 data = .ok rows) :
      RowsFor columns rows
  | records (records : List (List String)) : RowsFor columns (records.mapIdx (Csv.rowOf columns))

theorem RowsFor.exists_rowsMade {rows : List Row} (h : RowsFor columns rows) :
    ∃ (α : Type) (gives : α → Entries Cell → Prop) (xs : List α), RowsMade gives 0 xs rows ∧
      ∀ x cells, gives x cells → Entries.keys cells = columns.map Column.name := by
  cases h with
  | objects h => exact ⟨_, _, _, rowsMade_objectRows h, fun _ _ hcells => (objectCells_eq_ok hcells).1⟩
  | raw h =>
    exact ⟨_, _, _, rowsMade_rawRows h, fun _ _ hcells => (rawCells_eq_ok hcells.1 hcells.2).1⟩
  | records records =>
    refine ⟨_, _, records, by simpa using rowsMade_rowOf columns 0 records, ?_⟩
    rintro record cells rfl
    exact keys_recordCells columns record

theorem RowsFor.numbered {rows : List Row} (h : RowsFor columns rows) : Numbered 0 rows := by
  obtain ⟨_, _, _, hmade, -⟩ := h.exists_rowsMade
  exact hmade.selection

theorem RowsFor.mem_keys {rows : List Row} (h : RowsFor columns rows) :
    ∀ r ∈ rows, ∀ name, name ∈ Entries.keys r.cells ↔ name ∈ columns.map Column.name := by
  obtain ⟨_, _, _, hmade, hkeys⟩ := h.exists_rowsMade
  exact hmade.mem_keys hkeys

theorem Built.exists_make (h : t.Built) :
    ∃ columns rows, Table.make columns rows = .ok t ∧ RowsFor columns rows := by
  cases h with
  | json j h =>
    cases j with
    | arr js =>
      obtain ⟨items, -, h⟩ := exists_of_bind_eq_ok h
      obtain ⟨rows, hrows, h⟩ := exists_of_bind_eq_ok h
      exact ⟨_, rows, h, .objects hrows⟩
    | _ => cases h
  | raw columns data h =>
    obtain ⟨rows, hrows, h⟩ := exists_of_bind_eq_ok h
    exact ⟨columns, rows, h, .raw hrows⟩
  | csv text h =>
    dsimp only [ofCsv] at h
    split at h
    · cases h
    · split at h
      · rename_i t' hmake
        obtain rfl := Except.ok.inj h
        exact ⟨_, _, hmake, .records _⟩
      · cases h

theorem Built.rowsFor (h : t.Built) : RowsFor t.columns t.rows := by
  obtain ⟨columns, rows, hmake, hrows⟩ := h.exists_make
  obtain ⟨-, -, hcolumns, hr⟩ := make_eq_ok_iff.1 hmake
  rw [hcolumns, hr]
  exact hrows

/-! ## Cells -/

theorem exists_cell {r : Row} {c : Column} (hr : r ∈ t.rows) (hc : c ∈ t.columns) :
    ∃ cell, r.get? c.name = some cell :=
  Option.isSome_iff_exists.1 (t.covered r hr c hc)

theorem named?_eq {i : Nat} {r : Row} (hr : t.rows[i]? = some r) (name : String) :
    t.named? i name = r.toJson.at? [.key name] := by
  have hrows : (t.rows.map Row.toJson)[i]? = some r.toJson := by rw [List.getElem?_map, hr]; rfl
  show (t.rows.map Row.toJson)[i]?.bind (·.at? [.key name]) = _
  rw [hrows, Option.bind_some]

theorem positioned?_eq {i j : Nat} {r : Row} {c : Column} (hr : t.rows[i]? = some r)
    (hc : t.columns[j]? = some c) :
    t.positioned? i j = some ((r.get? c.name).getD .null).toJson := by
  simp [positioned?, dataset, Dataset.toJson, Json.at?, Entries.get?_cons, hr, hc]

end Table

theorem Row.at?_toJson (r : Row) (name : String) :
    r.toJson.at? [.key name] =
      ((if name = "selection" then r.selection.map Json.str else none).or
        ((r.get? name).map Cell.toJson)) := by
  have hcells : Entries.get? (r.cells.map fun c => (c.1, c.2.toJson)) name =
      (r.get? name).map Cell.toJson :=
    Entries.get?_map (fun _ c => c.toJson) r.cells name
  cases hselection : r.selection with
  | none => simp [Row.toJson, Json.at?, hselection, hcells]
  | some s =>
    by_cases hname : name = "selection"
    · simp [Row.toJson, Json.at?, hselection, hname]
    · simp [Row.toJson, Json.at?, hselection, hname, hcells, Entries.get?_insert_of_ne (Ne.symm hname)]

/-- **The two views of a cell.** The positional view shows the cell that the row has for the column. So
does the view by names, except that it shows the row's selection name in a column of the name
`selection`. -/
theorem Table.Built.views {t : Table} (hbuilt : t.Built) {i j : Nat} {r : Row} {c : Column}
    (hr : t.rows[i]? = some r) (hc : t.columns[j]? = some c) :
    ∃ cell, r.get? c.name = some cell ∧
      t.positioned? i j = some cell.toJson ∧
      t.named? i c.name =
        some (if c.name = "selection" then .str (selectionName i) else cell.toJson) := by
  obtain ⟨cell, hcell⟩ := exists_cell (List.mem_of_getElem? hr) (List.mem_of_getElem? hc)
  have hselection : r.selection = some (selectionName i) := by
    simpa using hbuilt.rowsFor.numbered i r hr
  refine ⟨cell, hcell, by rw [positioned?_eq hr hc, hcell, Option.getD_some], ?_⟩
  rw [named?_eq hr, Row.at?_toJson, hselection, hcell]
  split <;> rfl

/-- A row with a cell for a column of the name `selection`. -/
def selectionRow : Row := ⟨[("Region", .text "North"), ("selection", .text "x")], some "row:0"⟩

/-- A table with a column of the name `selection`. -/
def selections : Table where
  columns := [⟨"Region", 0, none⟩, ⟨"selection", 1, none⟩]
  rows := [selectionRow]
  distinct := by decide
  covered := by decide

theorem ofJson_selections :
    Table.ofJson (.arr [.obj [("Region", .str "North"), ("selection", .str "x")]]) =
      .ok selections := rfl

/-- A cell that both views show. -/
theorem views_selections :
    selections.Built ∧ ∃ cell, selectionRow.get? "Region" = some cell ∧
      selections.positioned? 0 0 = some cell.toJson ∧
      selections.named? 0 "Region" =
        some (if "Region" = "selection" then .str (selectionName 0) else cell.toJson) :=
  have hbuilt : selections.Built := .json _ ofJson_selections
  ⟨hbuilt, hbuilt.views (i := 0) (j := 0) (c := ⟨"Region", 0, none⟩) rfl rfl⟩

/-- A cell that the view by names does not show. -/
theorem views_differ :
    selections.Built ∧ selections.positioned? 0 1 = some (.str "x") ∧
      selections.named? 0 "selection" = some (.str "row:0") :=
  ⟨.json _ ofJson_selections, rfl, rfl⟩

end ChartTemplate
