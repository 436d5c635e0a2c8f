import ChartTemplate.Table.Cell

/-!
# Tables

A `Table` has columns with distinct names and rows that give every column a cell. `Table.make`
checks both; the other constructors build the rows first. Templates see a table as rows of named
cells (`Table.toJson`), specifications as a `Dataset`, whose rows are positional.
-/

namespace ChartTemplate

structure Column where
  /-- The name under which the column is shown and found. -/
  name : String
  /-- The place of the column. -/
  index : Nat
  /-- The declared kind of data. -/
  kind : Option ColumnKind
deriving DecidableEq, Repr

structure Row where
  /-- The cells by column name. -/
  cells : Entries Cell
  /-- The name under which the row can be selected. -/
  selection : Option String
deriving DecidableEq

/-- Columns with distinct names, and rows with a cell for every column. -/
structure Table where
  columns : List Column
  rows : List Row
  /-- No two columns have the same name. -/
  distinct : (columns.map Column.name).Nodup
  /-- Every row has a cell for every column. -/
  covered : ∀ r ∈ rows, ∀ c ∈ columns, (Entries.get? r.cells c.name).isSome
deriving DecidableEq

/-- Why data do not make up a table. -/
inductive TableError where
  /-- Two columns have the same name. -/
  | duplicateColumn (name : String)
  /-- A row has no cell for a column. -/
  | missingValue (row : Nat) (column : String)
  /-- A positional row has too few or too many cells. -/
  | rowWidth (row found expected : Nat)
  /-- The document is not an array of objects. -/
  | notAnArray
  /-- An array or object stands where a cell is expected. -/
  | unsupportedValue (value : Json)

def TableError.message : TableError → String
  | duplicateColumn name => s!"Duplicate column name '{name}'"
  | missingValue row column => s!"Row {row} has no value for column '{column}'"
  | rowWidth row found expected =>
    s!"Row {row} has {found} values but the table declares {expected} columns"
  | notAnArray => "Input data must be a JSON array of objects"
  | unsupportedValue value => "Unsupported value type for field '" ++ value.compress ++ "'"

/-- The cell of a document, or the error that it is none. -/
def Cell.ofJson (kind : Option ColumnKind) (j : Json) : Except TableError Cell :=
  match Cell.ofJson? kind j with
  | some c => .ok c
  | none => .error (.unsupportedValue j)

/-- The name under which the `i`th row can be selected. -/
def selectionName (i : Nat) : String :=
  s!"row:{i}"

namespace Row

def get? (r : Row) (name : String) : Option Cell :=
  Entries.get? r.cells name

/-- The cells by column name; a row that can be selected ends with its selection name, in the place
of a column of the name `selection` if there is one. -/
def toJson (r : Row) : Json :=
  let cells : Members := r.cells.map fun c => (c.1, c.2.toJson)
  .obj (match r.selection with
    | some s => Entries.insert cells "selection" (.str s)
    | none => cells)

end Row

/-- Names of dimensions, and rows with one cell for each. -/
structure Dataset where
  dimensions : List String
  source : List (List Cell)
deriving DecidableEq

namespace Table

/-- The table without columns and rows. -/
def empty : Table := ⟨[], [], List.nodup_nil, fun _ h => absurd h List.not_mem_nil⟩

/-- The first name that occurs a second time in a list. -/
def firstRepeated? (seen : List String) : List String → Option String
  | [] => none
  | name :: names => if seen.contains name then some name else firstRepeated? (name :: seen) names

/-- The first row, counted from `i`, without a cell for some column, with that column. -/
def firstGap? (columns : List Column) (i : Nat) : List Row → Option (Nat × String)
  | [] => none
  | r :: rs =>
    match columns.find? fun c => (r.get? c.name).isNone with
    | some c => some (i, c.name)
    | none => firstGap? columns (i + 1) rs

theorem nodup_of_firstRepeated?_eq_none {seen names : List String}
    (h : firstRepeated? seen names = none) : names.Nodup ∧ ∀ name ∈ names, name ∉ seen := by
  induction names generalizing seen with
  | nil => exact ⟨List.nodup_nil, fun _ h => absurd h List.not_mem_nil⟩
  | cons name names ih =>
    rw [firstRepeated?] at h
    split at h
    · exact absurd h (Option.some_ne_none _)
    · rename_i hseen
      have hname : name ∉ seen := by simpa using hseen
      obtain ⟨hnodup, hfresh⟩ := ih h
      refine ⟨List.nodup_cons.2 ⟨fun hm => hfresh name hm List.mem_cons_self, hnodup⟩, ?_⟩
      intro other hother
      rcases List.mem_cons.1 hother with rfl | hother
      · exact hname
      · exact fun hm => hfresh other hother (List.mem_cons_of_mem _ hm)

theorem covered_of_firstGap?_eq_none {columns : List Column} {i : Nat} {rows : List Row}
    (h : firstGap? columns i rows = none) :
    ∀ r ∈ rows, ∀ c ∈ columns, (Entries.get? r.cells c.name).isSome := by
  induction rows generalizing i with
  | nil => exact fun _ h => absurd h List.not_mem_nil
  | cons r rows ih =>
    rw [firstGap?] at h
    split at h
    · exact absurd h (Option.some_ne_none _)
    · rename_i hfind
      intro r' hr' c hc
      rcases List.mem_cons.1 hr' with rfl | hr'
      · have := List.find?_eq_none.1 hfind c hc
        simpa [Row.get?, Option.isSome_iff_ne_none] using this
      · exact ih h r' hr' c hc

/-- The table of columns and rows, if the names are distinct and no cell is missing. -/
def make (columns : List Column) (rows : List Row) : Except TableError Table :=
  match hnames : firstRepeated? [] (columns.map Column.name) with
  | some name => .error (.duplicateColumn name)
  | none =>
    match hcells : firstGap? columns 0 rows with
    | some (i, name) => .error (.missingValue i name)
    | none => .ok ⟨columns, rows, (nodup_of_firstRepeated?_eq_none hnames).1,
        covered_of_firstGap?_eq_none hcells⟩

/-- The cells of a positional row, named by their columns. -/
def rawCells : List Column → List Json → Except TableError (List (String × Cell))
  | c :: cs, j :: js => do
    let cell ← Cell.ofJson c.kind j
    let rest ← rawCells cs js
    pure ((c.name, cell) :: rest)
  | _, _ => pure []

/-- The rows of positional data, counted from `i`. -/
def rawRows (columns : List Column) (i : Nat) : List (List Json) → Except TableError (List Row)
  | [] => pure []
  | js :: rest => do
    if js.length ≠ columns.length then
      throw (.rowWidth i js.length columns.length)
    let cells ← rawCells columns js
    let rows ← rawRows columns (i + 1) rest
    pure (⟨Entries.ofList cells, some (selectionName i)⟩ :: rows)

def ofRaw (columns : List Column) (rows : List (List Json)) : Except TableError Table := do
  make columns (← rawRows columns 0 rows)

/-- The members of every item of an array of objects. -/
def objects : List Json → Except TableError (List Members)
  | [] => pure []
  | .obj ms :: js => do
    let rest ← objects js
    pure (ms :: rest)
  | _ :: _ => throw .notAnArray

/-- Adds the names that a list does not hold yet at its end. -/
def addNames (names new : List String) : List String :=
  new.foldl (fun acc name => if acc.contains name then acc else acc ++ [name]) names

/-- Columns without a kind, numbered from `i`. -/
def untypedColumns (i : Nat) : List String → List Column
  | [] => []
  | name :: names => ⟨name, i, none⟩ :: untypedColumns (i + 1) names

/-- The cells of an object, one for each column, null where the object has no member. -/
def objectCells (ms : Members) : List Column → Except TableError (List (String × Cell))
  | [] => pure []
  | c :: cs => do
    let cell ← Cell.ofJson none ((Entries.get? ms c.name).getD .null)
    let rest ← objectCells ms cs
    pure ((c.name, cell) :: rest)

/-- The rows of a list of objects, counted from `i`. -/
def objectRows (columns : List Column) (i : Nat) : List Members → Except TableError (List Row)
  | [] => pure []
  | ms :: rest => do
    let cells ← objectCells ms columns
    let rows ← objectRows columns (i + 1) rest
    pure (⟨Entries.ofList cells, some (selectionName i)⟩ :: rows)

/-- The table of an array of objects: its columns are all keys, in the order in which they first
come. -/
def ofJson (j : Json) : Except TableError Table :=
  match j with
  | .arr js => do
    let items ← objects js
    let names := items.foldl (fun acc ms => addNames acc (Entries.keys ms)) []
    let columns := untypedColumns 0 names
    make columns (← objectRows columns 0 items)
  | _ => throw .notAnArray

def isEmpty (t : Table) : Bool :=
  t.rows.isEmpty

def names (t : Table) : List String :=
  t.columns.map Column.name

def hasColumn (t : Table) (name : String) : Bool :=
  t.columns.any fun c => c.name == name

/-- The cells of a column, row by row; nulls if there is no such column. -/
def column (t : Table) (name : String) : List Cell :=
  t.rows.map fun r => (r.get? name).getD .null

/-- The table as templates see it: rows of named cells, and the columns. -/
def toJson (t : Table) : Json :=
  .obj [("rows", .arr (t.rows.map Row.toJson)),
    ("columns", .arr (t.columns.map fun c =>
      .obj [("displayName", .str c.name), ("index", .num (.int c.index))]))]

def dataset (t : Table) : Dataset where
  dimensions := t.names
  source := t.rows.map fun r => t.columns.map fun c => (r.get? c.name).getD .null

end Table

namespace Dataset

def toJson (d : Dataset) : Json :=
  .obj [("dimensions", .arr (d.dimensions.map Json.str)),
    ("source", .arr (d.source.map fun row => .arr (row.map Cell.toJson)))]

def position? (d : Dataset) (name : String) : Option Nat :=
  d.dimensions.findIdx? fun n => n == name

/-- The documents of a dimension, row by row; nulls if there is no such dimension. -/
def vector (d : Dataset) (name : String) : List Json :=
  d.source.map fun row => (((d.position? name).bind fun i => row[i]?).map Cell.toJson).getD .null

end Dataset

end ChartTemplate
