import ChartTemplate.Table.Basic
import ChartTemplate.Value.Lists

/-!
# Columns as text

The cells of columns as texts in quotes, or a message if a column is missing.
-/

namespace ChartTemplate.Table

def columnValues (t : Table) (name : String) : List Value :=
  (t.column name).map Cell.toValue

/-- The message for missing columns. -/
def notFound (names : String) : Value :=
  .text ("Column \"" ++ names ++ "\" not found")

def columnText (t : Table) (name : String) : Value :=
  if t.hasColumn name then .text (Value.quotedValues (t.columnValues name)) else notFound name

/-- The texts of a column without repetitions. -/
def distinctText (t : Table) (name : String) : Value :=
  if t.hasColumn name then .text (Value.quotedValues (Value.distinct (t.columnValues name)))
  else notFound name

def selectRow (names : List String) (r : Row) : List Value :=
  names.map fun name => ((r.get? name).map Cell.toValue).getD .undefined

/-- The texts of some columns, row by row. -/
def selectText (t : Table) (names : List String) : Value :=
  let missing := names.filter fun name => !t.hasColumn name
  if missing.isEmpty then
    .text ("[" ++ Value.joinTexts "," (t.rows.map fun r => Value.quotedValues (selectRow names r)) ++
      "]")
  else notFound (Value.joinTexts "," missing)

end ChartTemplate.Table
