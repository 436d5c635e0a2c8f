import ChartTemplate.Palette
import ChartTemplate.Table.Basic

/-!
# Hosts

A host gives helpers colors for keys, and the marks of elements that select rows. What it remembers of
the keys it was asked for is the state `σ`. A palette is the host that is used when none is given.
-/

namespace ChartTemplate

/-- The services of a host. -/
class HostServices (σ : Type) where
  /-- The color of a key, and the host afterwards. -/
  color : σ → String → σ × String
  /-- The mark of an element that selects the `i`th row. -/
  selectionMark : σ → Nat → Row → String := fun _ i _ => s!"data-selection=true data-index=\"{i}\""
  /-- The mark of an element that clears the selection. -/
  selectionClearMark : σ → String := fun _ => "data-selection-clear=\"true\""

instance : HostServices Palette where
  color := Palette.color

end ChartTemplate
