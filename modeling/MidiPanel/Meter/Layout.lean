import MidiPanel.Surface.Basic

/-!
# Where the bars go

A layout places the bars of the meter: pixels on pixel panels, character columns and rows on
character panels. Lengths are natural numbers here, and exact; where the meter is drawn, words of 32
bits have to hold them.
-/

namespace MidiPanel

/-- The place of the bars on a panel. -/
structure MeterLayout where
  xOffset : Nat
  yOffset : Nat
  barSpacing : Nat
  barHeight : Nat
  /-- Keep a minimal bar visible for silent channels. -/
  drawBarBases : Bool
  deriving DecidableEq

namespace MeterLayout

/-- A meter over the whole of a panel: a margin and gaps of two pixels, or columns without gaps. -/
def forPanel (kind : PanelKind) (height : Nat) : MeterLayout :=
  match kind with
  | .graphical => ⟨2, 0, 2, height, true⟩
  | .character => ⟨0, 0, 0, height, true⟩

/-- A meter over the whole of a surface. -/
def forSurface {σ : Type} [Surface σ] (surface : σ) : MeterLayout :=
  forPanel (Surface.kind surface) (Surface.height surface)

end MeterLayout

/-- The width of each bar when `channels` bars and their gaps share a panel. Gaps as wide as the
panel leave no room. -/
def barWidth (panelWidth channels spacing : Nat) : Nat :=
  (panelWidth - channels * spacing) / channels

end MidiPanel
