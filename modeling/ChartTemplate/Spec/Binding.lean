import ChartTemplate.Spec.Relaxed
import ChartTemplate.Spec.Source
import ChartTemplate.Spec.Walk
import ChartTemplate.Table.Basic

/-!
# Binding columns

`bind` puts the cells of the column that a source field names into the field without the suffix.
-/

namespace ChartTemplate

/-- The documents of a column, row by row; nulls if there is no such column. -/
def columnVector (t : Table) (name : String) : Json :=
  .arr ((t.column name).map Cell.toJson)

/-- The member `key` with a default value, if it is not there. -/
def Members.withDefault (ms : Members) (key : String) (v : Json) : Members :=
  if Entries.contains ms key then ms else Entries.insert ms key v

/-- A chart with options and series, even if they are empty. -/
def completeChart (spec : Json) : Json :=
  match spec with
  | .obj ms =>
    .obj (Members.withDefault (Members.withDefault ms "options" (.obj [])) "series" (.arr []))
  | _ => emptyChart

/-- The name of the column that a member holds; empty if it holds no text. -/
def referenceOf (ms : Members) (key : String) : String :=
  match Entries.get? ms key with
  | some (.str name) => name
  | _ => ""

def bindMember (t : Table) (key : String) (ms : Members) : Members :=
  match stripSourceSuffix? key with
  | some base => Entries.insert ms base (columnVector t (referenceOf ms key))
  | none => ms

/-- The visitor that binds source fields to the columns of a table. -/
def bindVisitor (t : Table) : Visitor Unit :=
  .ofMember fun s key ms _ => (s, bindMember t key ms)

/-- A bound on the number of documents that binding adds: a column for each field. -/
def bindRoom (t : Table) (spec : Json) : Nat :=
  spec.size * (t.rows.length + 1)

/-- Completes a chart and binds its source fields to the columns of a table. -/
def bind (spec : Json) (t : Table) : Json :=
  let spec := completeChart spec
  (walk (bindVisitor t) (bindRoom t spec) () spec "").2

end ChartTemplate
