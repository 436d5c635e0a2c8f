import ChartTemplate.CommandLine.Help
import ChartTemplate.Json.Indented
import ChartTemplate.Session
import ChartTemplate.Table.Csv

/-!
# Running commands

`run` gives what a command prints, or why it fails, from its arguments, the files that it may read and
its standard input. Template, mapping, options and data are read in this order, and the first that
cannot be had is told.
-/

namespace ChartTemplate.CommandLine

/-- What a command may read. -/
structure Surroundings where
  /-- The texts of files by their names. -/
  file? : String → Option String
  /-- The text of standard input. -/
  input : String

/-- Why a command fails. -/
inductive CommandError where
  | noSource
  | unreadable (path : String)
  /-- A data file cannot be opened. -/
  | unopened (path : String)
  /-- A data file is no JSON text. -/
  | unparsed (path : String)
  /-- The document in a data file is no table. -/
  | noTable (path : String)
  /-- A data file is no table of comma-separated values. -/
  | csv (e : Csv.Error)
  /-- Standard input is no table of comma-separated values. -/
  | csvInput
  /-- A file of options cannot be read. -/
  | unreadableConfig (path : String)
  /-- A file of options holds something else. -/
  | badConfig (path : String)
  /-- A file of a mapping holds something else. -/
  | badMapping (path : String)
  | notRendered (f : Failure)

/-- The first line that is told about an error in comma-separated values. -/
def csvSummary : Csv.Error → String
  | .unequalLength n => (Csv.Error.unequalLength n).message
  | .table _ => "Invalid CSV table"

/-- The first line that is told about an error. -/
def CommandError.message : CommandError → String
  | noSource => "Provide a template file or --inline text"
  | unreadable path => "Failed to read " ++ path
  | unopened path => "Failed to open " ++ path
  | unparsed path => "Failed to parse " ++ path
  | noTable path => "Invalid table in " ++ path
  | csv e => csvSummary e
  | csvInput => "Failed to read CSV from stdin"
  | unreadableConfig path => "Failed to read config " ++ path
  | badConfig path => "Failed to parse config " ++ path
  | badMapping path => "Mapping " ++ path ++ " must be a JSON object of strings"
  | notRendered f => "Template failed to render: " ++ f.diagnostic.message

abbrev Running (α : Type) := Except CommandError α

/-- Whether the name of a file ends in `.json`, in any case, after a name that is not empty. -/
def isJsonFile (path : String) : Bool :=
  let name := (path.toList.reverse.takeWhile fun c => c != '/')
  (name.take 5).map Char.toLower == "nosj.".toList && 5 < name.length

/-- The template text, and whether standard input was read for it. -/
def readSource (w : Surroundings) (g : Given) : Running (String × Bool) :=
  match g.values.get? "inline", g.file with
  | some text, _ => pure (String.ofList (expandBreaks text.toList), false)
  | none, some path =>
    if path = "-" then pure (w.input, true)
    else
      match w.file? path with
      | some text => pure (text, false)
      | none => throw (.unreadable path)
  | none, none => throw .noSource

def tableOfJson (path text : String) : Running Table :=
  match Json.parse? text with
  | none => throw (.unparsed path)
  | some j =>
    match Table.ofJson j with
    | .ok t => pure t
    | .error _ => throw (.noTable path)

/-- The table: of the data file, or of what is left of standard input. -/
def readTable (w : Surroundings) (g : Given) (inputRead : Bool) : Running Table :=
  match g.values.get? "data" with
  | none =>
    match Table.ofCsv (if inputRead then "" else w.input) with
    | .ok t => pure t
    | .error _ => throw .csvInput
  | some path =>
    match w.file? path, isJsonFile path with
    | none, true => throw (.unreadable path)
    | none, false => throw (.unopened path)
    | some text, true => tableOfJson path text
    | some text, false => (Table.ofCsv text).mapError .csv

/-- The options of the file that is named for them. -/
def readConfig (w : Surroundings) (g : Given) : Running RenderOptions :=
  match g.values.get? "config" with
  | none => pure .standard
  | some path =>
    match w.file? path with
    | none => throw (.unreadableConfig path)
    | some text =>
      match RenderOptions.ofText? text with
      | some o => pure o
      | none => throw (.badConfig path)

def lengthOption? (g : Given) (name : String) : Option Nat :=
  (g.values.get? name).bind length?

/-- The options, with the lengths that are given by themselves. -/
def readOptions (w : Surroundings) (g : Given) : Running RenderOptions := do
  let o ← readConfig w g
  return { o with
    width := (lengthOption? g "width").getD o.width
    height := (lengthOption? g "height").getD o.height }

def mappingOf? (j : Json) : Option Mapping :=
  j.members?.bind fun ms => ms.mapM fun m => m.2.text?.map fun s => (m.1, s)

/-- The mapping of the file that is named for it. -/
def readMapping (w : Surroundings) (path : String) : Running Mapping :=
  match w.file? path with
  | none => throw (.unreadable path)
  | some text =>
    match (Json.parse? text).bind mappingOf? with
    | some m => pure m
    | none => throw (.badMapping path)

/-- The document of a missing reference. -/
def Unresolved.toJson (u : Unresolved) : Json :=
  .obj [(u.reference, .str u.column)]

def printChart (g : Given) (c : RenderedChart) : Running String :=
  match g.values.contains "strict", c.failure with
  | true, some f => throw (.notRendered f)
  | _, _ => if g.values.contains "raw" then pure c.text else pure c.chart.indented

/-- What a command prints, without the last line break. -/
def output (w : Surroundings) (c : CommandName) (g : Given) :
    Except Fault (Running String) :=
  ExceptT.run do
    let (source, inputRead) ← liftExcept (readSource w g)
    match c with
    | .render =>
      let o ← liftExcept (readOptions w g)
      let t ← liftExcept (readTable w g inputRead)
      let (_, chart) ← (Session.start source o).render t
      liftExcept (printChart g chart)
    | .verify =>
      let t ← liftExcept (readTable w g inputRead)
      return (Json.arr (((Session.start source .standard).verify t).map Unresolved.toJson)).indented
    | .apply =>
      let m ← liftExcept (readMapping w ((g.values.get? "mapping").getD ""))
      let t ← liftExcept (readTable w g inputRead)
      return ((Session.start source .standard).apply m t).source
    | .columns => return (Json.arr ((chartColumns source).map Json.str)).indented
where
  /-- A step that reads something. -/
  liftExcept {α : Type} (r : Running α) : ExceptT CommandError (Except Fault) α :=
    ExceptT.mk (pure r)

/-- How a run ends. -/
inductive Outcome where
  /-- It prints a text. -/
  | printed (text : String)
  | failed (e : CommandError)
  /-- Its arguments cannot be understood. -/
  | misused
  /-- It is cut off. -/
  | aborted (f : Fault)

def run (w : Surroundings) (args : List String) : Outcome :=
  match readArguments args with
  | .error (.help topic) => .printed (helpText topic ++ "\n")
  | .error .usage => .misused
  | .ok (c, g) =>
    match output w c g with
    | .ok (.ok text) => .printed (text ++ "\n")
    | .ok (.error e) => .failed e
    | .error f => .aborted f

/-- Whether a run reads standard input: for the template, or for want of a data file. -/
def readsInput (args : List String) : Bool :=
  match readArguments args with
  | .ok (c, g) =>
    g.file == some "-" || (c != .columns && !g.values.contains "data")
  | .error _ => false

def filesOf (args : List String) : List String :=
  match readArguments args with
  | .ok (_, g) =>
    g.file.toList ++ (["data", "config", "mapping"].filterMap fun name => g.values.get? name)
  | .error _ => []

end ChartTemplate.CommandLine
