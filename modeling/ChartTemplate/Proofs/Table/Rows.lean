import ChartTemplate.Proofs.Entries
import ChartTemplate.Proofs.InPlace.Work
import ChartTemplate.Proofs.Table.Checks
import ChartTemplate.Table.Csv

/-!
# Rows that are made for columns

However a table is read, each entry of the input becomes a row with a cell for every column, which can
be selected by its number. `RowsMade` says this with the cells that an entry gives left open; what
follows for the rows (`RowsMade.mem_keys`, `RowsMade.selection`) does not depend on where they come from.
-/

namespace ChartTemplate

open Entries (keys get?)

/-! ## Cells -/

section Cells

variable {kind : Option ColumnKind} {j : Json} {cell : Cell}

theorem Cell.ofJson_eq_ok_iff : Cell.ofJson kind j = .ok cell ↔ Cell.ofJson? kind j = some cell := by
  rw [Cell.ofJson]
  cases Cell.ofJson? kind j <;> simp

/-- The cell of an object under a name: null if it has no such member. -/
def cellUnder (ms : Members) (name : String) : Option Cell :=
  match get? ms name with
  | some v => Cell.ofJson? none v
  | none => some .null

theorem ofJson_member_iff {ms : Members} {name : String} :
    Cell.ofJson none ((get? ms name).getD .null) = .ok cell ↔ cellUnder ms name = some cell := by
  rw [Cell.ofJson_eq_ok_iff, cellUnder]
  cases get? ms name <;> rfl

end Cells

namespace Table

variable {α : Type} {columns : List Column} {rows : List Row}

/-! ## Rows of entries -/

/-- Rows made of some entries, numbered from `k`, with the cells that each entry gives. -/
inductive RowsMade (gives : α → Entries Cell → Prop) : Nat → List α → List Row → Prop where
  | nil (k : Nat) : RowsMade gives k [] []
  | cons {k : Nat} {x : α} {cells : Entries Cell} {xs : List α} {rows : List Row} (h : gives x cells)
      (rest : RowsMade gives (k + 1) xs rows) :
      RowsMade gives k (x :: xs) (⟨Entries.ofList cells, some (selectionName k)⟩ :: rows)

section RowsMade

variable {gives : α → Entries Cell → Prop} {k : Nat} {xs : List α}

theorem RowsMade.selection (h : RowsMade gives k xs rows) :
    ∀ i r, rows[i]? = some r → r.selection = some (selectionName (k + i)) := by
  induction h with
  | nil => simp
  | cons _ _ ih =>
    intro i r hr
    cases i with
    | zero =>
      cases hr
      rfl
    | succ i => exact (ih i r hr).trans (by rw [Nat.add_right_comm, Nat.add_assoc])

theorem RowsMade.mem_keys (h : RowsMade gives k xs rows)
    (hkeys : ∀ x cells, gives x cells → keys cells = columns.map Column.name) :
    ∀ r ∈ rows, ∀ name, name ∈ keys r.cells ↔ name ∈ columns.map Column.name := by
  induction h with
  | nil => simp
  | cons hcells _ ih =>
    intro r hr name
    rcases List.mem_cons.1 hr with rfl | hr
    · rw [Entries.mem_keys_ofList, hkeys _ _ hcells]
    · exact ih r hr name

theorem RowsMade.covers (h : RowsMade gives k xs rows)
    (hkeys : ∀ x cells, gives x cells → keys cells = columns.map Column.name) :
    Covers columns rows := by
  intro r hr c hc
  rw [Row.get?, Entries.get?_isSome_iff, h.mem_keys hkeys r hr]
  exact List.mem_map_of_mem hc

theorem RowsMade.forall₂ (h : RowsMade gives k xs rows) :
    List.Forall₂ (fun x r => ∃ cells, gives x cells ∧ r.cells = Entries.ofList cells) xs rows := by
  induction h with
  | nil => exact .nil
  | cons hcells _ ih => exact .cons ⟨_, hcells, rfl⟩ ih

end RowsMade

/-! ## Objects -/

theorem objectCells_eq_ok {ms : Members} {cells : Entries Cell}
    (h : objectCells ms columns = .ok cells) :
    keys cells = columns.map Column.name ∧ ∀ e ∈ cells, cellUnder ms e.1 = some e.2 := by
  induction columns generalizing cells with
  | nil =>
    cases h
    exact ⟨rfl, fun _ he => absurd he List.not_mem_nil⟩
  | cons c columns ih =>
    obtain ⟨cell, hcell, h⟩ := exists_of_bind_eq_ok h
    obtain ⟨rest, hrest, h⟩ := exists_of_bind_eq_ok h
    cases h
    obtain ⟨hkeys, hcells⟩ := ih hrest
    refine ⟨by rw [Entries.keys_cons, hkeys, List.map_cons], ?_⟩
    intro e he
    rcases List.mem_cons.1 he with rfl | he
    · exact ofJson_member_iff.1 hcell
    · exact hcells e he

theorem rowsMade_objectRows {k : Nat} {items : List Members}
    (h : objectRows columns k items = .ok rows) :
    RowsMade (fun ms cells => objectCells ms columns = .ok cells) k items rows := by
  induction items generalizing k rows with
  | nil =>
    cases h
    exact .nil k
  | cons ms items ih =>
    obtain ⟨cells, hcells, h⟩ := exists_of_bind_eq_ok h
    obtain ⟨rest, hrest, h⟩ := exists_of_bind_eq_ok h
    cases h
    exact .cons hcells (ih hrest)

/-! ## Positional rows -/

theorem rawCells_eq_ok {js : List Json} {cells : Entries Cell} (hwidth : js.length = columns.length)
    (h : rawCells columns js = .ok cells) :
    keys cells = columns.map Column.name ∧
      List.Forall₂ (fun c v => ∃ cell, (c.name, cell) ∈ cells ∧ Cell.ofJson? c.kind v = some cell)
        columns js := by
  induction columns generalizing js cells with
  | nil =>
    obtain rfl := List.length_eq_zero_iff.1 hwidth
    cases h
    exact ⟨rfl, .nil⟩
  | cons c columns ih =>
    cases js with
    | nil => cases hwidth
    | cons j js =>
      obtain ⟨cell, hcell, h⟩ := exists_of_bind_eq_ok h
      obtain ⟨rest, hrest, h⟩ := exists_of_bind_eq_ok h
      cases h
      obtain ⟨hkeys, hcells⟩ := ih (Nat.succ.inj hwidth) hrest
      refine ⟨by rw [Entries.keys_cons, hkeys, List.map_cons], .cons ?_ ?_⟩
      · exact ⟨cell, List.mem_cons_self, Cell.ofJson_eq_ok_iff.1 hcell⟩
      · exact hcells.imp fun _ _ ⟨cell, hmem, hv⟩ => ⟨cell, List.mem_cons_of_mem _ hmem, hv⟩

theorem rowsMade_rawRows {k : Nat} {data : List (List Json)} (h : rawRows columns k data = .ok rows) :
    RowsMade (fun js cells => js.length = columns.length ∧ rawCells columns js = .ok cells) k data
      rows := by
  induction data generalizing k rows with
  | nil =>
    cases h
    exact .nil k
  | cons js data ih =>
    rw [rawRows] at h
    split at h
    · cases h
    · rename_i hwidth
      obtain ⟨cells, hcells, h⟩ := exists_of_bind_eq_ok h
      obtain ⟨rest, hrest, h⟩ := exists_of_bind_eq_ok h
      cases h
      exact .cons ⟨not_not.1 hwidth, hcells⟩ (ih hrest)

/-! ## Records -/

def recordCells (columns : List Column) (record : List String) : Entries Cell :=
  columns.map fun c => (c.name, Csv.cellOf (c.kind.getD .text) (record[c.index]?.getD ""))

theorem keys_recordCells (columns : List Column) (record : List String) :
    keys (recordCells columns record) = columns.map Column.name := by
  simp [keys, recordCells, Function.comp_def]

theorem rowsMade_rowOf (columns : List Column) (k : Nat) (records : List (List String)) :
    RowsMade (fun record cells => cells = recordCells columns record) k records
      (records.mapIdx fun i => Csv.rowOf columns (k + i)) := by
  induction records generalizing k with
  | nil => exact .nil k
  | cons record records ih =>
    rw [List.mapIdx_cons]
    refine .cons rfl ?_
    have hnext := ih (k + 1)
    simpa only [Nat.add_assoc, Nat.add_comm 1] using hnext

end Table

end ChartTemplate
