import MidiPanel.Glyph.Bar
import MidiPanel.Surface.Basic

/-!
# Character panels

A character panel is a grid of one-byte codes: ASCII and the bar glyphs. It has a backlight, but no
pixels: rectangles and images are not supported. Text that does not fit its line is cut off at the
edge, and text that would start outside the panel is refused.
-/

namespace MidiPanel

/-- A panel of character cells. -/
structure CellPanel where
  columns : Nat
  rows : Nat
  cells : Vector (Vector UInt8 columns) rows
  backlight : Bool
  deriving DecidableEq

namespace CellPanel

/-- The code of the space character. -/
def space : UInt8 := 0x20

/-- A blank grid with the backlight on; a panel has at least one cell, and a word counts them. -/
def new (columns rows : Nat) : Except Fault CellPanel :=
  if columns = 0 ∨ rows = 0 then .error (.emptyPanel .character columns rows)
  else if UInt32.size ≤ columns * rows then .error .overflow
  else .ok ⟨columns, rows, .replicate rows (.replicate columns space), true⟩

/-- The codes that a text takes: one per byte of its UTF-8 form, a question mark for each byte
beyond ASCII. -/
def codes (text : String) : List UInt8 :=
  (text.toList.flatMap String.utf8EncodeChar).map fun byte => if byte < 0x80 then byte else 0x3F

/-- A line with codes written from `column` on, as far as they fit; `clearRest` blanks the cells
behind them. -/
def writeLine {columns : Nat} (line : Vector UInt8 columns) (codes : Array UInt8) (column : Nat)
    (clearRest : Bool) : Vector UInt8 columns :=
  line.mapFinIdx fun i old _ =>
    if i < column then old
    else match codes[i - column]? with
      | some code => code
      | none => if clearRest then space else old

/-- The codes of one row; a row below the last one reads as the last one. -/
def row (p : CellPanel) (row : Nat) : List UInt8 :=
  (p.cells[min row (p.rows - 1)]?).elim [] Vector.toList

/-- One row as text, bar glyphs shown as block elements. -/
def rowText (p : CellPanel) (row : Nat) : String :=
  String.ofList ((p.row row).map BarGlyph.displayChar)

/-- All rows as lines of text. -/
def toText (p : CellPanel) : String :=
  String.join ((List.range p.rows).map fun row => p.rowText row ++ "\n")

def perform (p : CellPanel) : Call → Except Fault CellPanel
  | .print text column row clearRest =>
    if h : row < p.rows ∧ column < p.columns then
      have := h.1
      let line := writeLine p.cells[row] (codes text).toArray column clearRest
      .ok { p with cells := p.cells.set row line }
    else .error (.outOfBounds column row)
  | .fillRect _ _ _ _ => .error .unsupported
  | .drawImage _ => .error .unsupported
  | .setBacklight on => .ok { p with backlight := on }
  | .clear => .ok { p with cells := .replicate p.rows (.replicate p.columns space) }
  | .flush => .ok p

instance : Surface CellPanel where
  kind _ := .character
  width p := p.columns
  height p := p.rows
  perform := perform

end CellPanel
end MidiPanel
