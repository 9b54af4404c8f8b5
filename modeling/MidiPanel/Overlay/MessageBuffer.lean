/-!
# Message buffers

A message buffer holds up to twenty one-byte codes for the message overlays. Characters beyond
ASCII become question marks and text that does not fit is dropped. A spinner message keeps 18 cells
for the text, padded with spaces, then a gap, and shows the spinner glyph in the last cell.

Results:
* `length_setText`, `length_setSpinnerText`: the buffer never holds more than twenty codes.
-/

namespace MidiPanel

/-- The codes of a system message. -/
structure MessageBuffer where
  cells : List UInt8
  deriving DecidableEq

namespace MessageBuffer

/-- The number of cells. -/
def capacity : Nat := 20

/-- The cells for the text in front of a spinner. -/
def spinnerTextWidth : Nat := capacity - 2

def empty : MessageBuffer := ⟨[]⟩

/-- The code of an ASCII character; a question mark for any other. -/
def codeOf (c : Char) : UInt8 := if c.toNat < 0x80 then UInt8.ofNat c.toNat else 0x3F

/-- The first twenty characters of a text. -/
def setText (text : String) : MessageBuffer := ⟨(text.toList.take capacity).map codeOf⟩

/-- The first 18 characters of a text padded to 18 cells, a gap, and a glyph. -/
def setSpinnerText (text : String) (glyph : UInt8) : MessageBuffer :=
  let codes := (text.toList.take spinnerTextWidth).map codeOf
  ⟨codes ++ List.replicate (spinnerTextWidth - codes.length) 0x20 ++ [0x20, glyph]⟩

/-- Puts a glyph into the last cell, if the buffer is full. -/
def setGlyph (b : MessageBuffer) (glyph : UInt8) : MessageBuffer :=
  ⟨b.cells.set (capacity - 1) glyph⟩

/-- The buffer as text. A code beyond ASCII, which only a glyph in the last cell can be, begins a
sequence that is never completed: such a buffer has no text. -/
def text (b : MessageBuffer) : String :=
  if b.cells.all (· < 0x80) then String.ofList (b.cells.map fun code => Char.ofNat code.toNat)
  else ""

theorem length_setText (text : String) : (setText text).cells.length ≤ capacity := by
  simp only [setText, List.length_map, List.length_take]
  omega

theorem length_setSpinnerText (text : String) (glyph : UInt8) :
    (setSpinnerText text glyph).cells.length = capacity := by
  simp only [setSpinnerText, List.length_append, List.length_map, List.length_take,
    List.length_replicate, List.length_cons, List.length_nil, spinnerTextWidth, capacity]
  omega

end MessageBuffer
end MidiPanel
