import ChartTemplate.Json.Printer
import ChartTemplate.Value.Document

/-!
# Cells

A cell is a scalar of a table: null, a truth value, a number, a text or an instant.
-/

namespace ChartTemplate

/-- The kind of data that a column declares. -/
inductive ColumnKind where
  | text
  | number
  | boolean
  /-- Instants, delivered as ISO timestamps. -/
  | dateTime
deriving DecidableEq, Repr

inductive Cell where
  | null
  | bool (b : Bool)
  | number (x : Float)
  | text (s : String)
  | date (t : Instant)
deriving DecidableEq

namespace Cell

/-- The document of a cell; an instant becomes its ISO text. -/
def toJson : Cell → Json
  | null => .null
  | bool b => .bool b
  | number x => .ofFloat x
  | text s => .str s
  | date t => .str t.isoText

def toValue : Cell → Value
  | null => .null
  | bool b => .bool b
  | number x => .number x
  | text s => .text s
  | date t => .date t

/-- The instant that a text names, or null if it names none. -/
def ofTimestamp (s : String) : Cell :=
  ((Instant.ofIso? s).map date).getD null

/-- The cell of a document in a column of the given kind; arrays and objects are none. -/
def ofJson? (kind : Option ColumnKind) : Json → Option Cell
  | .null => some null
  | .bool b => some (bool b)
  | .num n => some (number n.toFloat)
  | .str s => some (if kind = some .dateTime then ofTimestamp s else text s)
  | .arr _ | .obj _ => none

end Cell

end ChartTemplate
