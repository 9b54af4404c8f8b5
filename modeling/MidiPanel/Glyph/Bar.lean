/-!
# Bar glyphs of character panels

A character cell resolves nine fill levels. Level zero is the blank; levels one to eight are eight
glyphs that a panel keeps in its own memory, addressed by the codes `08` to `0f` so that no text
ever holds a zero byte.
-/

namespace MidiPanel.BarGlyph

/-- The fill levels that one cell can tell apart, beside the empty one. -/
def levelsPerCell : Nat := 8

/-- The code of an empty cell. -/
def blank : UInt8 := 0x20

/-- The code for a fill level: the blank for zero, a glyph for one to eight. -/
def code (level : Nat) : UInt8 := if level = 0 then blank else UInt8.ofNat (7 + level)

/-- The nine codes from empty to full. -/
def ramp : List UInt8 := (List.range 9).map code

/-- The eight rows of the glyph for `level`, top row first: the lowest `level` rows are lit, five
pixels wide. -/
def rows (level : Nat) : List UInt8 :=
  (List.range levelsPerCell).map fun row => if levelsPerCell ≤ row + level then 0x1F else 0

/-- How a terminal shows a panel code: bar glyphs as block elements, printable ASCII as itself. -/
def displayChar (code : UInt8) : Char :=
  if 0x08 ≤ code ∧ code ≤ 0x0F then Char.ofNat (0x2581 + (code.toNat - 8))
  else if 0x20 ≤ code ∧ code ≤ 0x7E then Char.ofNat code.toNat
  else '?'

end MidiPanel.BarGlyph
