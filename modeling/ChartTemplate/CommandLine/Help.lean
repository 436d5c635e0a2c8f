import ChartTemplate.CommandLine.Arguments

/-!
# Help texts
-/

namespace ChartTemplate.CommandLine

def programName : String := "chartbind"

/-- Lines of a name and a description, the descriptions in one column. -/
def table (rows : List (String × String)) : List String :=
  let width := (rows.map fun r => r.1.length).foldl max 0
  rows.map fun r => "  " ++ r.1 ++ "".pushn ' ' (width + 2 - r.1.length) ++ r.2

def lines (ls : List String) : String :=
  "\n".intercalate ls

def OptionSpec.form (o : OptionSpec) : String :=
  match o.kind with
  | .flag => "--" ++ o.name
  | _ => "--" ++ o.name ++ " <" ++ o.name.map Char.toUpper ++ ">"

def helpRow : String × String := ("-h, --help", "Print help")

def overview : String :=
  lines (["Render chart templates against tabular data and bind column references", "",
      "Usage: " ++ programName ++ " <COMMAND>", "", "Commands:"] ++
    table ((CommandName.all.map fun c => (c.name, c.about)) ++
      [("help", "Print this message or the help of the given subcommand(s)")]) ++
    ["", "Options:"] ++ table [helpRow])

def CommandName.help (c : CommandName) : String :=
  let required := (c.options.filter OptionSpec.required).map fun o => o.form ++ " "
  lines ([c.about, "",
      "Usage: " ++ programName ++ " " ++ c.name ++ " [OPTIONS] " ++ String.join required ++
        "[SOURCE]", "", "Arguments:"] ++
    table [("[SOURCE]", "Template or specification file ('-' reads stdin)")] ++
    ["", "Options:"] ++
    table ((c.options.map fun o => ("    " ++ o.form, o.about)) ++ [helpRow]))

/-- The help text about a command or about all of them. -/
def helpText (topic : Option CommandName) : String :=
  (topic.map CommandName.help).getD overview

end ChartTemplate.CommandLine
