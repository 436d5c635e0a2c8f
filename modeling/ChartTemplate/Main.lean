import ChartTemplate.CommandLine.Run

/-!
# The program

`main` reads the files and the standard input that its arguments ask for, runs the command, and writes
its outcome: a text to standard output with the code 0, an error with the code 1, or the code 2 for
arguments that cannot be understood.
-/

open ChartTemplate.CommandLine

def readFile? (path : String) : IO (Option String) := do
  try
    return some (← IO.FS.readFile path)
  catch _ =>
    return none

/-- The texts of the files that can be read, by their names. -/
def readFiles (paths : List String) : IO (List (String × String)) := do
  let texts ← paths.mapM fun path => do
    return (path, ← readFile? path)
  return texts.filterMap fun p => p.2.map fun text => (p.1, text)

def main (args : List String) : IO UInt32 := do
  let files ← readFiles (filesOf args)
  let input ← if readsInput args then (← IO.getStdin).readToEnd else pure ""
  match run ⟨fun path => files.lookup path, input⟩ args with
  | .printed text =>
    IO.print text
    return 0
  | .failed e =>
    IO.eprintln ("Error: " ++ e.message)
    return 1
  | .misused =>
    IO.eprintln ("Usage: " ++ programName ++ " <COMMAND>")
    return 2
  | .aborted _ => return 101
