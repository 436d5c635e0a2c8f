import ChartTemplate.Proofs.Table.Rows

/-!
# Kinds of columns

The kind of a column of comma-separated values is found from its cells, which are then read as that
kind. `inferFrom_eq_iff` says what the search finds after the cells it has seen: a kind other than text
exactly if all cells are of it. That does not depend on their order, and it leaves no cell unread
(`denotes_cellOf`), so a column of a table has a null exactly for each empty cell (`column_ofCsv`).
-/

namespace ChartTemplate

open Entries (keys get?)

namespace Csv

variable {cells : List String} {cell : String} {kind : ColumnKind}

/-! ## The kind of all cells -/

/-- There is a cell that is not empty, and all such cells are of a kind. -/
def AllOf (kind : ColumnKind) (cells : List String) : Prop :=
  (∃ cell ∈ cells, cell ≠ "") ∧ ∀ cell ∈ cells, cell ≠ "" → kindOf? cell = some kind

theorem kindOf?_ne_text (cell : String) : kindOf? cell ≠ some .text := by
  unfold kindOf?
  split
  · simp
  · split
    · simp
    · split <;> simp

theorem inferFrom_eq_iff {seen : Option ColumnKind} (hkind : kind ≠ .text) :
    inferFrom seen cells = kind ↔
      (seen = some kind ∨ seen = none ∧ cells ≠ []) ∧ ∀ cell ∈ cells, kindOf? cell = some kind := by
  induction cells generalizing seen with
  | nil => cases seen <;> simp [inferFrom, Ne.symm hkind]
  | cons cell cells ih =>
    rw [List.forall_mem_cons]
    cases hcell : kindOf? cell with
    | none => simp [inferFrom, hcell, Ne.symm hkind]
    | some k =>
      cases seen with
      | none =>
        simp only [inferFrom, hcell]
        rw [ih]
        simp
      | some l =>
        simp only [inferFrom, hcell]
        by_cases hl : k = l
        · rw [if_pos hl, ih, hl]
          simp
        · rw [if_neg hl]
          refine iff_of_false (Ne.symm hkind) ?_
          rintro ⟨hseen, hk, -⟩
          simp only [Option.some.injEq, reduceCtorEq, false_and, or_false] at hseen hk
          exact hl (hk.trans hseen.symm)

theorem inferKind_eq_iff (hkind : kind ≠ .text) : inferKind cells = kind ↔ AllOf kind cells := by
  have hne : (cells.filter fun c => !c.isEmpty) ≠ [] ↔ ∃ cell ∈ cells, cell ≠ "" := by
    simp [List.filter_eq_nil_iff]
  have hall : (∀ cell ∈ cells.filter fun c => !c.isEmpty, kindOf? cell = some kind) ↔
      ∀ cell ∈ cells, cell ≠ "" → kindOf? cell = some kind := by
    simp [List.mem_filter]
  rw [inferKind, inferFrom_eq_iff hkind, hne, hall, AllOf]
  simp

theorem inferKind_eq_text_iff : inferKind cells = .text ↔ ∀ kind, ¬ AllOf kind cells := by
  constructor
  · intro htext kind hall
    by_cases hkind : kind = .text
    · subst hkind
      obtain ⟨⟨cell, hcell, hne⟩, hcells⟩ := hall
      exact kindOf?_ne_text cell (hcells cell hcell hne)
    · exact hkind ((inferKind_eq_iff hkind).2 hall ▸ htext)
  · intro h
    by_contra hkind
    exact h _ ((inferKind_eq_iff hkind).1 rfl)

theorem AllOf.perm {cells' : List String} (h : AllOf kind cells) (hperm : cells.Perm cells') :
    AllOf kind cells' := by
  obtain ⟨⟨cell, hcell, hne⟩, hcells⟩ := h
  exact ⟨⟨cell, hperm.mem_iff.1 hcell, hne⟩, fun c hc => hcells c (hperm.mem_iff.2 hc)⟩

theorem inferKind_perm {cells' : List String} (hperm : cells.Perm cells') :
    inferKind cells = inferKind cells' := by
  by_cases htext : inferKind cells' = .text
  · rw [htext, inferKind_eq_text_iff]
    exact fun kind hall => inferKind_eq_text_iff.1 htext kind (hall.perm hperm)
  · exact (inferKind_eq_iff htext).2 (((inferKind_eq_iff htext).1 rfl).perm hperm.symm)

/-! ## Reading cells as their kind -/

/-- What a text that is not empty denotes in a column of a kind. -/
inductive Denotes : ColumnKind → String → Cell → Prop where
  | number {text : String} {x : Float} (h : readFloat? text = some x) :
      Denotes .number text (.number x)
  | yes : Denotes .boolean "true" (.bool true)
  | no : Denotes .boolean "false" (.bool false)
  | dateTime {text : String} {t : Instant} (h : Instant.ofIso? text = some t) :
      Denotes .dateTime text (.date t)
  | text (text : String) : Denotes .text text (.text text)

theorem Denotes.ne_null {c : Cell} (h : Denotes kind cell c) : c ≠ .null := by
  cases h <;> simp

theorem denotes_of_kindOf? (hne : cell ≠ "") (h : kindOf? cell = some kind) :
    Denotes kind cell (cellOf kind cell) := by
  have hempty : cell.isEmpty = false := by simpa using hne
  unfold kindOf? at h
  split at h
  · rename_i hnumber
    cases h
    obtain ⟨x, hx⟩ := Option.isSome_iff_exists.1 hnumber
    simpa [cellOf, hempty, hx] using Denotes.number hx
  · split at h
    · rename_i hboolean
      cases h
      rcases Bool.or_eq_true_iff.1 hboolean with h | h
      · rw [beq_iff_eq.1 h]
        exact .yes
      · rw [beq_iff_eq.1 h]
        exact .no
    · split at h
      · rename_i hdate
        cases h
        obtain ⟨t, ht⟩ := Option.isSome_iff_exists.1 hdate
        simpa [cellOf, hempty, Cell.ofTimestamp, ht] using Denotes.dateTime ht
      · cases h

theorem denotes_cellOf (hcell : cell ∈ cells) (hne : cell ≠ "") :
    Denotes (inferKind cells) cell (cellOf (inferKind cells) cell) := by
  by_cases htext : inferKind cells = .text
  · have hempty : cell.isEmpty = false := by simpa using hne
    rw [htext]
    simpa [cellOf, hempty] using Denotes.text cell
  · exact denotes_of_kindOf? hne (((inferKind_eq_iff htext).1 rfl).2 cell hcell hne)

theorem cellOf_empty (kind : ColumnKind) : cellOf kind "" = .null := rfl

theorem cellOf_eq_null_iff (hcell : cell ∈ cells) :
    cellOf (inferKind cells) cell = .null ↔ cell = "" := by
  constructor
  · intro hnull
    by_contra hne
    exact (denotes_cellOf hcell hne).ne_null hnull
  · rintro rfl
    exact cellOf_empty _

/-! ## Columns of a text -/

/-- The records of a text below its names, with their fields trimmed. -/
def bodyOf (text : String) : List (List String) :=
  (records text).tail.map fun record => record.map trim

/-- The cells below the `k`th name of a text. -/
def columnCells (text : String) (k : Nat) : List String :=
  (bodyOf text).map fun record => record.getD k ""

theorem columnsFrom_perm {records records' : List (List String)} (hperm : records.Perm records')
    (i : Nat) (names : List String) : columnsFrom records i names = columnsFrom records' i names := by
  induction names generalizing i with
  | nil => rfl
  | cons name names ih =>
    rw [columnsFrom, columnsFrom, ih, inferKind_perm (hperm.filterMap fun r => r[i]?)]

theorem getElem?_columnsFrom {records : List (List String)} {names : List String} {i k : Nat}
    {c : Column} (h : (columnsFrom records i names)[k]? = some c) :
    k < names.length ∧ c.index = i + k ∧
      c.kind = some (inferKind (records.filterMap fun r => r[i + k]?)) := by
  induction names generalizing i k with
  | nil => simp [columnsFrom] at h
  | cons name names ih =>
    cases k with
    | zero =>
      cases h
      exact ⟨Nat.succ_pos _, rfl, rfl⟩
    | succ k =>
      obtain ⟨hlt, hindex, hkind⟩ := ih h
      have hplace : i + 1 + k = i + (k + 1) := by omega
      rw [hplace] at hindex hkind
      exact ⟨Nat.succ_lt_succ hlt, hindex, hkind⟩

theorem length_of_firstUneven? {width : Nat} {body : List (List String)}
    (h : firstUneven? width body = none) : ∀ record ∈ body, record.length = width := by
  simpa [firstUneven?, List.findIdx?_eq_none_iff] using h

theorem get?_rowOf {columns : List Column} (hnodup : (columns.map Column.name).Nodup) {c : Column}
    (hc : c ∈ columns) (i : Nat) (record : List String) :
    (rowOf columns i record).get? c.name =
      some (cellOf (c.kind.getD .text) (record[c.index]?.getD "")) := by
  have hkeys : (keys (Table.recordCells columns record)).Nodup := by
    rwa [Table.keys_recordCells]
  show get? (Entries.ofList (Table.recordCells columns record)) c.name = _
  rw [Entries.ofList_eq_self hkeys]
  exact Entries.get?_of_mem hkeys (List.mem_map.2 ⟨c, hc, rfl⟩)

/-- A table that is read from a text has its records for rows, each as long as the line of names. -/
theorem ofCsv_eq_ok {text : String} {t : Table} (h : Table.ofCsv text = .ok t) :
    ∃ names : List String, (∀ record ∈ bodyOf text, record.length = names.length) ∧
      (t.columns.map Column.name).Nodup ∧ t.columns = columnsFrom (bodyOf text) 0 names ∧
      t.rows = (bodyOf text).mapIdx (rowOf t.columns) := by
  dsimp only [Table.ofCsv] at h
  split at h
  · cases h
  · rename_i huneven
    split at h
    · rename_i t' hmake
      cases h
      obtain ⟨hnodup, -, hcolumns, hrows⟩ := Table.make_eq_ok_iff.1 hmake
      rw [← hcolumns] at hnodup hrows
      refine ⟨_, ?_, hnodup, hcolumns, hrows⟩
      intro record hrecord
      obtain ⟨fields, hfields, rfl⟩ := List.mem_map.1 hrecord
      rw [List.length_map, List.length_map]
      exact length_of_firstUneven? huneven fields hfields
    · cases h

theorem column_ofCsv {text : String} {t : Table} (h : Table.ofCsv text = .ok t) {k : Nat} {c : Column}
    (hc : t.columns[k]? = some c) :
    c.kind = some (inferKind (columnCells text k)) ∧
      t.column c.name = (columnCells text k).map (cellOf (inferKind (columnCells text k))) := by
  obtain ⟨names, hlength, hnodup, hcolumns, hrows⟩ := ofCsv_eq_ok h
  have hplace := hc
  rw [hcolumns] at hplace
  obtain ⟨hlt, hindex, hkind⟩ := getElem?_columnsFrom hplace
  rw [Nat.zero_add] at hindex hkind
  have hfield : ∀ record ∈ bodyOf text, record[k]? = some (record.getD k "") := by
    intro record hrecord
    have hk : k < record.length := by rw [hlength record hrecord]; exact hlt
    simp [hk]
  have hcells : (bodyOf text).filterMap (fun record => record[k]?) = columnCells text k :=
    (List.filterMap_congr hfield).trans (congrFun List.filterMap_eq_map _)
  rw [hcells] at hkind
  refine ⟨hkind, ?_⟩
  have hmem : c ∈ t.columns := List.mem_of_getElem? hc
  rw [Table.column, hrows]
  generalize inferKind (columnCells text k) = kind at hkind ⊢
  refine List.ext_getElem? fun i => ?_
  simp only [columnCells, List.getElem?_map, List.getElem?_mapIdx]
  cases hrecord : (bodyOf text)[i]? with
  | none => rfl
  | some record =>
    simp only [Option.map_some, get?_rowOf hnodup hmem, hkind, hindex,
      hfield record (List.mem_of_getElem? hrecord), Option.getD_some]

/-- **Kinds of columns.** The kind of some cells is a number, a truth value or an instant exactly if
there is a cell that is not empty and all of these are such, and text otherwise; so it is the same in
every order of the rows. Every cell that is not empty can be read as that kind, and only the empty cells
become null. In a table that is read from a text, each column has the kind of its cells, and as many
values other than null as there are cells that are not empty. -/
theorem kinds :
    (∀ cells kind, kind ≠ .text → (inferKind cells = kind ↔ AllOf kind cells)) ∧
    (∀ cells, inferKind cells = .text ↔ ∀ kind, ¬ AllOf kind cells) ∧
    (∀ cells cells' : List String, cells.Perm cells' → inferKind cells = inferKind cells') ∧
    (∀ (records records' : List (List String)) i names, records.Perm records' →
      columnsFrom records i names = columnsFrom records' i names) ∧
    (∀ cells, ∀ cell ∈ cells, cell ≠ "" →
      Denotes (inferKind cells) cell (cellOf (inferKind cells) cell)) ∧
    (∀ cells, ∀ cell ∈ cells, cellOf (inferKind cells) cell = .null ↔ cell = "") ∧
    ∀ text t, Table.ofCsv text = .ok t → ∀ (k : Nat) (c : Column), t.columns[k]? = some c →
      c.kind = some (inferKind (columnCells text k)) ∧
      t.column c.name = (columnCells text k).map (cellOf (inferKind (columnCells text k))) ∧
      (t.column c.name).countP (· ≠ .null) = (columnCells text k).countP (· ≠ "") := by
  refine ⟨fun _ _ => inferKind_eq_iff, fun _ => inferKind_eq_text_iff, fun _ _ => inferKind_perm,
    fun _ _ i names hperm => columnsFrom_perm hperm i names, fun _ _ => denotes_cellOf,
    fun _ _ => cellOf_eq_null_iff, ?_⟩
  intro text t h k c hc
  obtain ⟨hkind, hcolumn⟩ := column_ofCsv h hc
  refine ⟨hkind, hcolumn, ?_⟩
  rw [hcolumn, List.countP_map]
  refine List.countP_congr fun cell hcell => ?_
  simp [cellOf_eq_null_iff hcell]

/-- Two columns of three cells each, of which the middle ones are empty. -/
theorem kinds_units :
    let text := "Units,Note\n2,few\n,\n30,1\n"
    inferKind ["2", "", "30"] = .number ∧ inferKind ["30", "2", ""] = .number ∧
      inferKind ["few", "", "1"] = .text ∧ Denotes .number "30" (cellOf .number "30") ∧
      (∀ cell ∈ ["2", "", "30"], cellOf .number cell = .null ↔ cell = "") ∧
      ∃ t, Table.ofCsv text = .ok t ∧ t.column "Units" = [.number 2, .null, .number 30] ∧
        (t.column "Note").countP (· ≠ .null) = 2 := by
  intro text
  obtain ⟨hkind, htext, hperm, -, hdenotes, hnull, htable⟩ := kinds
  have hnumber : inferKind ["2", "", "30"] = .number :=
    (hkind _ .number (by decide)).2 ⟨⟨"2", by decide, by decide⟩, by decide +kernel⟩
  have hother : ∀ kind, ¬ AllOf kind ["few", "", "1"] := fun kind hall =>
    absurd (hall.2 "few" (by decide) (by decide)) (by cases kind <;> decide +kernel)
  obtain ⟨t, ht, hcolumns⟩ : ∃ t, Table.ofCsv "Units,Note\n2,few\n,\n30,1\n" = .ok t ∧
      t.columns = [⟨"Units", 0, some .number⟩, ⟨"Note", 1, some .text⟩] := ⟨_, rfl, by rfl⟩
  obtain ⟨-, hunits, -⟩ := htable text t ht 0 ⟨"Units", 0, some .number⟩ (by rw [hcolumns]; rfl)
  obtain ⟨-, -, hnotes⟩ := htable text t ht 1 ⟨"Note", 1, some .text⟩ (by rw [hcolumns]; rfl)
  refine ⟨hnumber, ?_, (htext _).2 hother, ?_, ?_, t, ht, hunits.trans ?_, hnotes.trans ?_⟩
  · exact (hperm _ ["30", "2", ""] (by decide)).symm.trans hnumber
  · exact hnumber ▸ hdenotes ["2", "", "30"] "30" (by decide) (by decide)
  · exact hnumber ▸ hnull ["2", "", "30"]
  · decide +kernel
  · decide +kernel

end Csv

end ChartTemplate
