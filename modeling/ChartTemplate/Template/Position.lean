/-!
# Positions in a template

Lines and columns are counted in characters from one.
-/

namespace ChartTemplate

structure Position where
  line : Nat
  column : Nat
deriving DecidableEq, Repr

namespace Position

def start : Position := ⟨1, 1⟩

/-- The position of a part of a template that was not written down. -/
def unplaced : Position := ⟨0, 0⟩

def next (p : Position) (c : Char) : Position :=
  if c = '\n' then ⟨p.line + 1, 1⟩ else ⟨p.line, p.column + 1⟩

def advance (p : Position) (cs : List Char) : Position :=
  cs.foldl next p

def text (p : Position) : String :=
  s!"line {p.line}, column {p.column}"

end Position

end ChartTemplate
