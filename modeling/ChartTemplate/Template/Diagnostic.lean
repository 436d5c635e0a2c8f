import ChartTemplate.Template.Render

/-!
# Diagnostics

A template that cannot be used or fails to render gives a diagnostic in the place of text.
-/

namespace ChartTemplate

/-- What is told about a failure. -/
structure Diagnostic where
  /-- What went wrong. -/
  message : String
  /-- Where it went wrong; empty if that is not known. -/
  trace : String
deriving DecidableEq, Repr

/-- The form in which a diagnostic takes the place of text. -/
def Diagnostic.inlineText (d : Diagnostic) : String :=
  "<h4>" ++ d.message ++ "</h4><pre>" ++ d.trace ++ "</pre>"

/-- Why there is no text. -/
inductive Failure where
  /-- The template is not fit for use. -/
  | template (e : TemplateError)
  /-- Rendering failed. -/
  | rendering (f : RenderFailure)
deriving DecidableEq

def Failure.diagnostic : Failure → Diagnostic
  | template e => ⟨e.message, "    at compile (" ++ e.position.text ++ ")"⟩
  | rendering f => ⟨f.error.message, (f.position.map fun p => "    at " ++ p.text).getD ""⟩

end ChartTemplate
