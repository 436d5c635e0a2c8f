import ChartTemplate.Proofs.Spec.Fallback
import ChartTemplate.Proofs.Table.Checks

/-!
# Vectors of a table

A chart gets the values of a column from one of two places: binding looks the name up in every row
(`columnVector`), and a mapping looks up its place among the dimensions of the dataset and takes what
stands there (`Dataset.vector`). The vectors are the same for every column. Under any other name the
dataset has nulls only, so there they are the same exactly if no row has anything to show
(`columnVector_eq_iff`), which holds in tables that were read: their rows have no other cells.
-/

namespace ChartTemplate.Table

variable {t : Table} {name : String}

/-! ## Ways to a table -/

/-- The ways in which a table comes about. -/
inductive Made (t : Table) : Prop where
  | empty (h : t = Table.empty)
  | make (columns : List Column) (rows : List Row) (h : Table.make columns rows = .ok t)
  | read (h : t.Built)

theorem nodup_and_covers_of_make {columns : List Column} {rows : List Row}
    (h : Table.make columns rows = .ok t) : t.names.Nodup ∧ Covers t.columns t.rows := by
  obtain ⟨hnodup, hcovers, hcolumns, hrows⟩ := make_eq_ok_iff.1 h
  rw [names, hcolumns, hrows]
  exact ⟨hnodup, hcovers⟩

theorem Made.nodup_and_covers (h : t.Made) : t.names.Nodup ∧ Covers t.columns t.rows := by
  cases h with
  | empty h =>
    subst h
    exact ⟨List.nodup_nil, fun _ hr => absurd hr List.not_mem_nil⟩
  | make columns rows h => exact nodup_and_covers_of_make h
  | read h =>
    obtain ⟨columns, rows, hmake, -⟩ := h.exists_make
    exact nodup_and_covers_of_make hmake

/-! ## The dataset -/

theorem length_source (t : Table) : t.dataset.source.length = t.rows.length := by
  simp [dataset]

theorem length_of_mem_source {row : List Cell} (h : row ∈ t.dataset.source) :
    row.length = t.dataset.dimensions.length := by
  obtain ⟨r, -, rfl⟩ := List.mem_map.1 h
  simp [dataset, names]

theorem position?_eq_none_iff : t.dataset.position? name = none ↔ name ∉ t.names := by
  simp only [Dataset.position?, List.findIdx?_eq_none_iff, dataset, beq_eq_false_iff_ne]
  exact ⟨fun h hmem => h name hmem rfl, fun h n hn heq => h (heq ▸ hn)⟩

theorem exists_column_of_position? {i : Nat} (h : t.dataset.position? name = some i) :
    ∃ c, t.columns[i]? = some c ∧ c.name = name := by
  obtain ⟨hi, hname, -⟩ := List.findIdx?_eq_some_iff_getElem.1 h
  have hlt : i < t.columns.length := by simpa [dataset, names] using hi
  refine ⟨t.columns[i], List.getElem?_eq_getElem hlt, ?_⟩
  simpa [dataset, names] using hname

theorem vector_eq (t : Table) (name : String) :
    t.dataset.vector name = t.rows.map fun r =>
      ((t.dataset.position? name).bind fun i =>
        (t.columns[i]?).map fun c => ((r.get? c.name).getD .null).toJson).getD .null := by
  rw [Dataset.vector]
  generalize t.dataset.position? name = place
  simp [dataset, Function.comp_def]

theorem vector_of_mem (h : name ∈ t.names) :
    t.dataset.vector name = (t.column name).map Cell.toJson := by
  rw [vector_eq, column, List.map_map]
  cases hposition : t.dataset.position? name with
  | none => exact absurd h (position?_eq_none_iff.1 hposition)
  | some i =>
    obtain ⟨c, hc, rfl⟩ := exists_column_of_position? hposition
    simp [hc, Function.comp_def]

theorem vector_of_not_mem (h : name ∉ t.names) :
    t.dataset.vector name = List.replicate t.rows.length .null := by
  simp [vector_eq, position?_eq_none_iff.2 h, List.map_const']

/-- Binding and the dataset have the same values under a name exactly if it is a column's or no row has
anything to show under it. -/
theorem columnVector_eq_iff (t : Table) (name : String) :
    columnVector t name = .arr (t.dataset.vector name) ↔
      name ∈ t.names ∨ ∀ r ∈ t.rows, ∀ cell, r.get? name = some cell → cell.toJson = .null := by
  by_cases h : name ∈ t.names
  · simp [columnVector, vector_of_mem h, h]
  · have hnull := columnOf_eq_nullColumn_iff t name
    rw [← columnVector_eq, nullColumn, ← vector_of_not_mem h] at hnull
    simpa [h] using hnull

/-- **Binding and the dataset read the same column.** A table has distinct column names and a cell for
every row and column, however it was made, and its dataset has a row for each row and a cell for each
dimension. Binding finds the same values under a name as the dataset exactly if it is a column's or no
row has anything to show under it; in a table that was read, it does so under every name. -/
theorem Made.vectors (hmade : t.Made) :
    t.names.Nodup ∧ (∀ r ∈ t.rows, ∀ c ∈ t.columns, ∃ cell, r.get? c.name = some cell) ∧
      t.dataset.source.length = t.rows.length ∧
      (∀ row ∈ t.dataset.source, row.length = t.dataset.dimensions.length) ∧
      (∀ name, columnVector t name = .arr (t.dataset.vector name) ↔
        name ∈ t.names ∨ ∀ r ∈ t.rows, ∀ cell, r.get? name = some cell → cell.toJson = .null) ∧
      (t.Built → ∀ name, columnVector t name = .arr (t.dataset.vector name)) := by
  obtain ⟨hnodup, hcovers⟩ := hmade.nodup_and_covers
  refine ⟨hnodup, ?_, length_source t, fun row => length_of_mem_source, columnVector_eq_iff t, ?_⟩
  · intro r hr c hc
    exact Option.isSome_iff_exists.1 (hcovers r hr c hc)
  · intro hbuilt name
    rw [columnVector_eq_iff]
    by_cases hname : name ∈ t.names
    · exact .inl hname
    · right
      intro r hr cell hcell
      rw [hbuilt.get?_eq_none hname hr] at hcell
      cases hcell

/-- Rows of which each lacks a field of the other. -/
def scattered : Table where
  columns := [⟨"City", 0, none⟩, ⟨"Sales", 1, none⟩]
  rows := [⟨[("City", .text "Oslo"), ("Sales", .null)], some "row:0"⟩,
    ⟨[("City", .null), ("Sales", .text "low")], some "row:1"⟩]
  distinct := by decide
  covered := by decide

theorem built_scattered : scattered.Built :=
  .json (.arr [.obj [("City", .str "Oslo")], .obj [("Sales", .str "low")]]) rfl

/-- The vectors of a column, and of a name that no column has. -/
theorem vectors_scattered :
    scattered.Made ∧ scattered.Built ∧
      columnVector scattered "Sales" = .arr (scattered.dataset.vector "Sales") ∧
      scattered.dataset.vector "Sales" = [.null, .str "low"] ∧
      columnVector scattered "Profit" = .arr (scattered.dataset.vector "Profit") ∧
      scattered.dataset.vector "Profit" = [.null, .null] := by
  have hmade : scattered.Made := .read built_scattered
  obtain ⟨-, -, -, -, hcolumns, hall⟩ := hmade.vectors
  have hsales : "Sales" ∈ scattered.names := by decide
  exact ⟨hmade, built_scattered, (hcolumns "Sales").2 (.inl hsales), rfl, hall built_scattered "Profit",
    rfl⟩

end ChartTemplate.Table
