import ChartTemplate.Table.Basic

/-!
# Comma-separated values

`Csv.records` splits a text into records of fields: records end with any line break, blank lines
between records are skipped, a field may stand in quotes, and a quote in such a field is written
twice. `Table.ofCsv` takes the first record as the names of the columns and finds the kind of each
column from its cells.
-/

namespace ChartTemplate

namespace Csv

/-- Where in a record the reader is. -/
inductive Mode where
  /-- Before the first field of a record. -/
  | startRecord
  /-- Before a field. -/
  | startField
  /-- In a field without quotes, or after the quoted part of a field. -/
  | inField
  /-- Between the quotes of a field. -/
  | inQuotes
  /-- After a quote in a quoted field. -/
  | afterQuote
deriving DecidableEq, Repr

/-- What has been read. The lists hold the latest entry first. -/
structure State where
  /-- The reader's place. -/
  mode : Mode
  /-- The characters of the current field. -/
  field : List Char
  /-- The finished fields of the current record. -/
  fields : List String
  /-- The finished records. -/
  records : List (List String)

namespace State

def start : State := ⟨.startRecord, [], [], []⟩

/-- Adds a character to the current field. -/
def push (s : State) (mode : Mode) (c : Char) : State :=
  { s with mode, field := c :: s.field }

def endField (s : State) : State :=
  { s with mode := .startField, field := [], fields := String.ofList s.field.reverse :: s.fields }

/-- Ends the current field and record. -/
def endRecord (s : State) : State :=
  let s := s.endField
  { s with mode := .startRecord, fields := [], records := s.fields.reverse :: s.records }

/-- Reads a character outside quotes. -/
def plain (s : State) (c : Char) : State :=
  if c == ',' then s.endField
  else if c == '\n' || c == '\r' then s.endRecord
  else s.push .inField c

/-- Reads a character at the start of a field. -/
def opening (s : State) (c : Char) : State :=
  if c == '"' then { s with mode := .inQuotes } else s.plain c

def step (s : State) (c : Char) : State :=
  match s.mode with
  | .startRecord => if c == '\n' || c == '\r' then s else s.opening c
  | .startField => s.opening c
  | .inField => s.plain c
  | .inQuotes => if c == '"' then { s with mode := .afterQuote } else s.push .inQuotes c
  | .afterQuote => if c == '"' then s.push .inQuotes c else s.plain c

/-- Ends the last record at the end of the text. -/
def finish (s : State) : List (List String) :=
  match s.mode with
  | .startRecord => s.records.reverse
  | _ => s.endRecord.records.reverse

end State

/-- Drops a byte order mark at the start. -/
def skipMark : List Char → List Char
  | '\uFEFF' :: cs => cs
  | cs => cs

def records (text : String) : List (List String) :=
  ((skipMark text.toList).foldl State.step State.start).finish

/-- The kind of a cell that is not empty, if it is no text. -/
def kindOf? (cell : String) : Option ColumnKind :=
  if (readFloat? cell).isSome then some .number
  else if cell == "true" || cell == "false" then some .boolean
  else if (Instant.ofIso? cell).isSome then some .dateTime
  else none

/-- The kind of a column of which the earlier cells have the kind `seen`. -/
def inferFrom (seen : Option ColumnKind) : List String → ColumnKind
  | [] => seen.getD .text
  | cell :: cells =>
    match kindOf? cell, seen with
    | none, _ => .text
    | some k, none => inferFrom (some k) cells
    | some k, some l => if k = l then inferFrom seen cells else .text

/-- The kind of a column: that of all its cells that are not empty, and else text. -/
def inferKind (cells : List String) : ColumnKind :=
  inferFrom none (cells.filter fun c => !c.isEmpty)

/-- The cell that a text denotes in a column of the given kind; null if it is empty. -/
def cellOf (kind : ColumnKind) (cell : String) : Cell :=
  if cell.isEmpty then .null
  else match kind with
    | .number => ((readFloat? cell).map Cell.number).getD .null
    | .boolean => .bool (cell == "true")
    | .dateTime => Cell.ofTimestamp cell
    | .text => .text cell

/-- Why a text holds no table. -/
inductive Error where
  /-- A record, counted from one, has another number of fields than the first line. -/
  | unequalLength (record : Nat)
  /-- The records make up no table. -/
  | table (e : TableError)

def Error.message : Error → String
  | unequalLength record => s!"Failed to read CSV record {record}"
  | table e => "Invalid CSV table: " ++ e.message

/-- The number, counted from one, of the first record that has not `width` fields. -/
def firstUneven? (width : Nat) (records : List (List String)) : Option Nat :=
  (records.findIdx? fun r => r.length != width).map (· + 1)

/-- Columns of the given names, numbered from `i`, with the kinds of their cells. -/
def columnsFrom (records : List (List String)) (i : Nat) : List String → List Column
  | [] => []
  | name :: names =>
    ⟨name, i, some (inferKind (records.filterMap fun r => r[i]?))⟩ :: columnsFrom records (i + 1) names

def rowOf (columns : List Column) (i : Nat) (record : List String) : Row :=
  ⟨Entries.ofList (columns.map fun c =>
      (c.name, cellOf (c.kind.getD .text) ((record[c.index]?).getD ""))),
    some (selectionName i)⟩

end Csv

/-- The table of a text of comma-separated values with a line of names. -/
def Table.ofCsv (text : String) : Except Csv.Error Table :=
  let all := Csv.records text
  let header := all.headD []
  let body := all.tail
  match Csv.firstUneven? header.length body with
  | some n => .error (.unequalLength n)
  | none =>
    let body := body.map fun r => r.map trim
    let columns := Csv.columnsFrom body 0 (header.map trim)
    match Table.make columns (body.mapIdx (Csv.rowOf columns)) with
    | .ok t => .ok t
    | .error e => .error (.table e)

end ChartTemplate
