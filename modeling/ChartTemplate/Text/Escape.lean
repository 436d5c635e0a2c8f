/-!
# Escaping text in markup
-/

namespace ChartTemplate

/-- The form of a character in which it cannot end a text or an attribute. -/
def escapeMarkupChar (c : Char) : List Char :=
  match c with
  | '<' => "&lt;".toList
  | '>' => "&gt;".toList
  | '"' => "&quot;".toList
  | '&' => "&amp;".toList
  | '\'' => "&#x27;".toList
  | '\x60' => "&#x60;".toList
  | '=' => "&#x3D;".toList
  | c => [c]

def escapeMarkup (s : String) : String :=
  String.ofList (s.toList.flatMap escapeMarkupChar)

end ChartTemplate
