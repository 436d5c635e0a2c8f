import ChartTemplate.Json.Parser
import ChartTemplate.Json.Printer
import ChartTemplate.Text.Blank

/-!
# Reading specifications

A specification is JSON text in which comments, and a comma before a closing bracket or brace, are
allowed. `relax` drops both outside of texts; `safeParse` reads what is left and always gives a
document.
-/

namespace ChartTemplate

/-- The chart without content. -/
def emptyChart : Json :=
  .obj [("options", .obj []), ("series", .arr [])]

/-- Drops the text up to the end of a block comment. The flag says that the last character was an
asterisk. -/
def skipBlock : Bool → List Char → List Char
  | _, [] => []
  | star, c :: cs => if star && c == '/' then cs else skipBlock (c == '*') cs

/-- Drops the text up to the end of the line. -/
def skipLine (cs : List Char) : List Char :=
  cs.dropWhile fun c => c != '\n'

/-- Whether blanks and then a closing bracket or brace follow. -/
def closesAfterBlanks (cs : List Char) : Bool :=
  match trimLeft cs with
  | c :: _ => c == ']' || c == '}'
  | [] => false

theorem length_skipBlock_le (star : Bool) (cs : List Char) :
    (skipBlock star cs).length ≤ cs.length := by
  induction cs generalizing star with
  | nil => exact Nat.le_refl _
  | cons c cs ih =>
    rw [skipBlock]
    split
    · exact Nat.le_succ _
    · exact Nat.le_succ_of_le (ih _)

theorem length_skipLine_le (cs : List Char) : (skipLine cs).length ≤ cs.length :=
  (List.dropWhile_sublist _).length_le

mutual

/-- Drops comments and trailing commas outside of texts. A block comment leaves a space, a line
comment its line break. -/
def relaxChars : List Char → List Char
  | [] => []
  | '"' :: cs => '"' :: relaxText cs
  | '/' :: '/' :: cs => relaxChars (skipLine cs)
  | '/' :: '*' :: cs => ' ' :: relaxChars (skipBlock false cs)
  | ',' :: cs => if closesAfterBlanks cs then relaxChars cs else ',' :: relaxChars cs
  | c :: cs => c :: relaxChars cs
termination_by cs => cs.length
decreasing_by
  all_goals simp only [List.length_cons]
  all_goals try have := length_skipLine_le cs
  all_goals try have := length_skipBlock_le false cs
  all_goals omega

/-- Keeps the rest of a text up to its closing quote; a backslash protects one character. -/
def relaxText : List Char → List Char
  | [] => []
  | '"' :: cs => '"' :: relaxChars cs
  | '\\' :: c :: cs => '\\' :: c :: relaxText cs
  | c :: cs => c :: relaxText cs
termination_by cs => cs.length

end

/-- Drops comments and trailing commas outside of texts. -/
def relax (text : String) : String :=
  String.ofList (relaxChars text.toList)

/-- Reads a specification: an empty object if the text is blank, and the chart without content if it
cannot be read. -/
def safeParse (text : String) : Json :=
  if (trimLeft text.toList).isEmpty then .obj []
  else (Json.parseChars? (relaxChars text.toList)).getD emptyChart

/-- Whether a text holds more than an empty object. -/
def isConfigured (text : String) : Bool :=
  !text.isEmpty && text != "\x7b\x7d"

/-- The name that an item of a list of dimensions gives, if it gives one. -/
def dimensionName? (j : Json) : Option String :=
  match j with
  | .str name => some name
  | .obj ms => (Entries.get? ms "name").bind Json.text?
  | _ => none

/-- The text of a document: a text itself, anything else as JSON. -/
def documentText (j : Json) : String :=
  match j with
  | .str s => s
  | j => j.compress

/-- The columns that a specification declares: the names of its dimensions, or else the first row of
its data. -/
def chartColumns (text : String) : List String :=
  if text.isEmpty then []
  else
    match (safeParse text).get? "dataset" with
    | none => []
    | some dataset =>
      match (dataset.get? "dimensions").bind Json.items? with
      | some ds => ds.filterMap dimensionName?
      | none =>
        let header := ((dataset.get? "source").bind Json.items?).bind fun rows =>
          rows.head?.bind Json.items?
        (header.getD []).map documentText

end ChartTemplate
