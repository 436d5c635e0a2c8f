import ChartTemplate.Entries

/-!
# Palettes

A palette hands out its colors to keys in the order in which the keys are first asked for, over and
over. A key keeps the slot that it is given, and so its color.
-/

namespace ChartTemplate

/-- Colors, and the slots of the keys that have one. -/
structure Palette where
  /-- The colors; never empty. -/
  colors : List String
  assigned : Entries Nat
deriving DecidableEq, Repr

/-- The colors that are used when none are given. -/
def defaultColors : List String :=
  ["#118DFF", "#12239E", "#E66C37", "#6B007B", "#E044A7", "#744EC2", "#D9B300", "#D64550"]

namespace Palette

/-- The palette of a list of colors, or of the default ones if the list is empty. -/
def ofColors (colors : List String) : Palette :=
  ⟨if colors.isEmpty then defaultColors else colors, []⟩

def colorAt (p : Palette) (slot : Nat) : String :=
  p.colors.getD (slot % p.colors.length) ""

/-- The color of a key, and the palette afterwards. A new key gets the next slot. -/
def color (p : Palette) (key : String) : Palette × String :=
  match Entries.get? p.assigned key with
  | some slot => (p, p.colorAt slot)
  | none =>
    let next := p.assigned.length
    ({ p with assigned := Entries.insert p.assigned key next }, p.colorAt next)

end Palette

end ChartTemplate
