import ChartTemplate.Spec.Relaxed
import ChartTemplate.Spec.Source
import ChartTemplate.Spec.Walk
import ChartTemplate.Table.Basic

/-!
# Checking and changing references

`verify` lists the references of a specification to columns that a table does not have. `applyMapping`
gives references new columns, by the names under which `verify` reports them.
-/

namespace ChartTemplate

/-- A reference to a column that is missing. -/
structure Unresolved where
  /-- The attribute, or the path of the source field. -/
  reference : String
  /-- The column that it names. -/
  column : String
deriving DecidableEq, Repr

/-- New columns for references. -/
abbrev Mapping := Entries String

def mappingRoot : String := "options"

def namesColumn (columns : List String) (j : Json) : Bool :=
  match j with
  | .str name => columns.contains name
  | _ => false

def unresolvedAttributes (columns : List String) (encode : Json) : List Unresolved :=
  match encode with
  | .obj ms =>
    (ms.filter fun m => !namesColumn columns m.2).map fun m => ⟨m.1, documentText m.2⟩
  | _ => []

def unresolvedOf (columns : List String) (key : String) (ms : Members) (path : String) :
    List Unresolved :=
  match Entries.get? ms key with
  | none => []
  | some v =>
    (if key == encodeKey then unresolvedAttributes columns v else []) ++
      if (stripSourceSuffix? key).isSome && !namesColumn columns v then
        [⟨memberPath path key, documentText v⟩]
      else []

/-- The visitor that collects missing references. -/
def verifyVisitor (columns : List String) : Visitor (List Unresolved) :=
  .ofMember fun found key ms path => (found ++ unresolvedOf columns key ms path, ms)

/-- The references of a specification to columns that are not among the given ones, in order. -/
def verify (text : String) (columns : List String) : List Unresolved :=
  if isConfigured text then
    (walk (verifyVisitor columns) 0 [] (safeParse text) mappingRoot).1
  else []

/-- Gives the attributes of an encoding their new columns. -/
def remapAttributes (mapping : Mapping) (encode : Json) : Json :=
  match encode with
  | .obj ms => .obj (ms.map fun m => (m.1, ((Entries.get? mapping m.1).map Json.str).getD m.2))
  | j => j

/-- Gives the attributes of a member their new columns, if it is an encoding. -/
def remapEncode (mapping : Mapping) (key : String) (ms : Members) : Members :=
  if key == encodeKey then Entries.modify ms key (remapAttributes mapping) else ms

/-- Gives a source field its new column, and the field without the suffix the column's values. -/
def remapSource (mapping : Mapping) (dataset : Dataset) (key path : String) (ms : Members) :
    Members :=
  match stripSourceSuffix? key, Entries.get? mapping (memberPath path key) with
  | some base, some column =>
    Entries.insert (Entries.insert ms base (.arr (dataset.vector column))) key (.str column)
  | _, _ => ms

/-- The document of a dataset without its rows. -/
def dimensionsJson (dataset : Dataset) : Json :=
  .obj [("dimensions", .arr (dataset.dimensions.map Json.str))]

/-- The visitor that changes the references that a mapping names. -/
def remapVisitor (mapping : Mapping) (dataset : Dataset) : Visitor Unit :=
  .ofMember fun s key ms path =>
    (s, remapSource mapping dataset key path (remapEncode mapping key ms))

/-- A specification with the references that a mapping names changed. -/
def remap (spec : Json) (mapping : Mapping) (dataset : Dataset) : Json :=
  (walk (remapVisitor mapping dataset) (spec.size * (dataset.source.length + 1)) () spec
    mappingRoot).2

def attachDataset (spec : Json) (dataset : Dataset) : Json :=
  match spec with
  | .obj ms => .obj (Entries.insert ms "dataset" (dimensionsJson dataset))
  | j => j

/-- The specification of a text with the references that a mapping names changed, and with the
dimensions of the dataset. -/
def appliedSpec (text : String) (mapping : Mapping) (dataset : Dataset) : Json :=
  let spec := safeParse text
  attachDataset (if isConfigured text then remap spec mapping dataset else spec) dataset

def applyMapping (text : String) (mapping : Mapping) (dataset : Dataset) : String :=
  (appliedSpec text mapping dataset).compress

end ChartTemplate
