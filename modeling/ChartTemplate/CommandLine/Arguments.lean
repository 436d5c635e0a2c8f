import ChartTemplate.Entries
import ChartTemplate.Numeric.Read

/-!
# Arguments of the command line

The commands with their options, and how arguments are read:

* an option is `--name value` or `--name=value`, a flag `--name`, and each may be given once,
* the first argument that is neither is the template file, and there is only one,
* after `--` nothing is an option,
* `-h` and `--help` ask for help as soon as they are met.
-/

namespace ChartTemplate.CommandLine

/-- What an option takes. -/
inductive OptionKind where
  | flag
  | text
  /-- The name of a file, which is not empty. -/
  | path
  /-- An integer of 32 bits without sign. -/
  | length
deriving DecidableEq, Repr

structure OptionSpec where
  name : String
  kind : OptionKind
  /-- Whether it must be given. -/
  required : Bool
  /-- What is told about it. -/
  about : String
deriving DecidableEq, Repr

inductive CommandName where
  | render | verify | apply | columns
deriving DecidableEq, Repr

def inlineOption : OptionSpec :=
  ⟨"inline", .text, false, "Template text given inline; literal '\\n' sequences become newlines"⟩

def dataOption (about : String) : OptionSpec := ⟨"data", .path, false, about⟩

namespace CommandName

def all : List CommandName := [render, verify, apply, columns]

def name : CommandName → String
  | render => "render"
  | verify => "verify"
  | apply => "apply"
  | columns => "columns"

def ofName? (name : String) : Option CommandName :=
  all.find? fun c => c.name == name

def about : CommandName → String
  | render => "Render a template and print the bound chart JSON"
  | verify => "List column references the data cannot satisfy"
  | apply => "Rewrite column references using a JSON mapping file"
  | columns => "List the columns a specification declares in its dataset"

def options : CommandName → List OptionSpec
  | render =>
    [inlineOption, dataOption "CSV or JSON data file (CSV on stdin when omitted)",
      ⟨"config", .path, false, "JSON config with width, height, palette and variables"⟩,
      ⟨"width", .length, false, ""⟩, ⟨"height", .length, false, ""⟩,
      ⟨"raw", .flag, false, "Print the rendered template text instead of the bound chart"⟩,
      ⟨"strict", .flag, false, "Exit with an error when the template fails to render"⟩]
  | verify => [inlineOption, dataOption ""]
  | apply =>
    [inlineOption, ⟨"mapping", .path, true, "JSON object mapping references to column names"⟩,
      dataOption ""]
  | columns => [inlineOption]

end CommandName

/-- What the arguments of a command say. -/
structure Given where
  file : Option String
  /-- The options with their values; flags have an empty one. -/
  values : Entries String
deriving DecidableEq, Repr

/-- Why arguments do not say what to do. -/
inductive Refusal where
  /-- Help is asked for, about a command or about all of them. -/
  | help (topic : Option CommandName)
  /-- They cannot be understood. -/
  | usage
deriving DecidableEq, Repr

/-- A text of an optional sign and digits as a length. -/
def length? (text : String) : Option Nat :=
  let n := match text.toList with
    | '+' :: r => readNat? r
    | '-' :: r => (readNat? r).filter fun n => n = 0
    | r => readNat? r
  n.filter fun n => n < 4294967296

def OptionKind.accepts (k : OptionKind) (value : String) : Bool :=
  match k with
  | .flag => false
  | .text => true
  | .path => !value.isEmpty
  | .length => (length? value).isSome

/-- Whether an argument looks like an option. A hyphen alone does not. -/
def looksLikeOption (arg : String) : Bool :=
  match arg.toList with
  | '-' :: _ :: _ => true
  | _ => false

/-- The name and the value in an argument that joins them. -/
def splitValue (cs : List Char) : String × Option String :=
  match cs.dropWhile fun c => c != '=' with
  | _ :: value => (String.ofList (cs.takeWhile fun c => c != '='), some (String.ofList value))
  | [] => (String.ofList cs, none)

namespace Given

def setFile (g : Given) (arg : String) : Except Refusal Given :=
  if g.file.isSome || arg.isEmpty then throw .usage else pure { g with file := some arg }

def setOption (g : Given) (o : OptionSpec) (value : String) : Except Refusal Given :=
  if g.values.contains o.name || !o.kind.accepts value then throw .usage
  else pure { g with values := g.values.insert o.name value }

def setFlag (g : Given) (o : OptionSpec) : Except Refusal Given :=
  if g.values.contains o.name then throw .usage
  else pure { g with values := g.values.insert o.name "" }

/-- Reads the arguments of a command, the first ones of which say what is given already. -/
def readFrom (c : CommandName) (g : Given) : List String → Except Refusal Given
  | [] => pure g
  | "--" :: args => args.foldlM setFile g
  | arg :: args =>
    match arg.toList with
    | '-' :: '-' :: cs =>
      let (name, value) := splitValue cs
      match c.options.find? (fun o => o.name == name), value with
      | none, value =>
        if name = "help" && value.isNone then throw (.help (some c)) else throw .usage
      | some o, some value => do readFrom c (← g.setOption o value) args
      | some o, none =>
        if o.kind = .flag then do readFrom c (← g.setFlag o) args
        else
          match args with
          | value :: args =>
            if looksLikeOption value then throw .usage
            else do readFrom c (← g.setOption o value) args
          | [] => throw .usage
    | '-' :: 'h' :: _ => throw (.help (some c))
    | '-' :: _ :: _ => throw .usage
    | _ => do readFrom c (← g.setFile arg) args

end Given

/-- Refuses arguments that lack what a command needs, or name both a file and a text. -/
def complete (c : CommandName) (g : Given) : Except Refusal Given :=
  if (g.file.isSome && g.values.contains "inline") ||
      c.options.any fun o => o.required && !g.values.contains o.name then throw .usage
  else pure g

/-- Reads what follows the word that asks for help. -/
def helpTopic : List String → Refusal
  | [] => .help none
  | [name] =>
    match CommandName.ofName? name with
    | some c => .help (some c)
    | none => .usage
  | _ => .usage

def readArguments (args : List String) : Except Refusal (CommandName × Given) :=
  match args with
  | [] => throw .usage
  | "help" :: args => throw (helpTopic args)
  | arg :: args =>
    match CommandName.ofName? arg with
    | some c => do
      let g ← Given.readFrom c ⟨none, []⟩ args
      return (c, ← complete c g)
    | none =>
      if arg = "--help" || "-h".toList.isPrefixOf arg.toList then throw (.help none)
      else throw .usage

end ChartTemplate.CommandLine
