import MidiPanel.Glyph.Font
import MidiPanel.Surface.Basic
import MidiPanel.Surface.FrameBuffer
import MidiPanel.Text.Lines

/-!
# Pixel panels

A pixel panel keeps a frame, the images registered with it, its backlight and the number of frames
shown. A character cell is 6 pixels wide and 16 high; glyphs take the upper ten rows of a cell and
write lit and unlit pixels alike. Text, images and blanked lines are clipped at the edges, whereas a
filled rectangle must lie within the panel.
-/

namespace MidiPanel

/-- One bit per pixel: rows from the top, each padded to whole bytes, leftmost pixel highest. -/
structure Bitmap where
  width : Nat
  data : Array UInt8
  deriving DecidableEq

namespace Bitmap

def height (b : Bitmap) : Nat := b.data.size / FrameBuffer.bytesPerRow b.width

/-- Whether the pixel in column `x` of row `y` is lit. -/
def isLit (b : Bitmap) (x y : Nat) : Bool :=
  (b.data.getD (y * FrameBuffer.bytesPerRow b.width + x / 8) 0).toNat.testBit (7 - x % 8)

/-- Refuses data that is not one or more whole rows; the size reported is that of the rows begun. -/
def ofBytes (width : Nat) (data : Array UInt8) : Except Fault Bitmap :=
  let perRow := FrameBuffer.bytesPerRow width
  if perRow = 0 ∨ data.size = 0 ∨ data.size % perRow ≠ 0 then
    let rows := if perRow = 0 then 0 else (data.size + perRow - 1) / perRow
    .error (.imageSize (max rows 1 * max perRow 1) data.size)
  else .ok ⟨width, data⟩

end Bitmap

/-- A panel of single pixels. -/
structure PixelPanel where
  frame : FrameBuffer
  images : List (ImageId × Bitmap)
  backlight : Bool
  flushes : Nat
  deriving DecidableEq

namespace PixelPanel

def cellWidth : Nat := Font.width

def cellHeight : Nat := 16

/-- A dark frame with the backlight on; a panel has at least one pixel. -/
def new (width height : Nat) : Except Fault PixelPanel :=
  if width = 0 ∨ height = 0 then .error (.emptyPanel .graphical width height)
  else .ok ⟨.filled width height false, [], true, 0⟩

/-- Keeps an image under an id, in place of the one before. -/
def register (p : PixelPanel) (id : ImageId) (width : Nat) (data : Array UInt8) :
    Except Fault PixelPanel :=
  (Bitmap.ofBytes width data).map fun bitmap =>
    { p with images := (id, bitmap) :: p.images.filter (·.1 ≠ id) }

/-- Draws one line of glyphs side by side from a corner on. -/
def drawLine (frame : FrameBuffer) (left top : Int) : List Char → FrameBuffer
  | [] => frame
  | c :: cs =>
    drawLine (frame.paint ⟨left, top, Font.width, Font.height⟩ (Font.isLit c))
      (left + Font.width) top cs

/-- Draws lines of glyphs below each other; a carriage return at the end of a line is no glyph. -/
def drawLines (frame : FrameBuffer) (left top : Int) : List (List Char) → FrameBuffer
  | [] => frame
  | line :: lines =>
    drawLines (drawLine frame left top (Lines.dropReturn line)) left (top + Font.height) lines

/-- The pixel position of a cell along one axis, as a signed word of 32 bits: cells too far out for
one lie before the edge. -/
def cellOrigin (index size : Nat) : Int := ((index * size : Nat) : Int).bmod UInt32.size

/-- Prints text from a character cell on. -/
def printText (frame : FrameBuffer) (text : String) (column row : Nat) (clearRest : Bool) :
    FrameBuffer :=
  let left := cellOrigin column cellWidth
  let top := cellOrigin row cellHeight
  let frame :=
    if clearRest then
      frame.fill ⟨left, top, frame.width - column * cellWidth, cellHeight⟩ false
    else frame
  drawLines frame left top (Lines.split (· == '\n') text.toList)

/-- Draws an image at the upper left corner, lit and unlit pixels alike. -/
def drawBitmap (frame : FrameBuffer) (b : Bitmap) : FrameBuffer :=
  frame.paint ⟨0, 0, b.width, b.height⟩ b.isLit

def perform (p : PixelPanel) : Call → Except Fault PixelPanel
  | .print text column row clearRest =>
    .ok { p with frame := printText p.frame text column row clearRest }
  | .fillRect x₁ y₁ x₂ y₂ =>
    let right := max x₁ x₂
    let bottom := max y₁ y₂
    if p.frame.width ≤ right ∨ p.frame.height ≤ bottom then .error (.outOfBounds right bottom)
    else
      let left := min x₁ x₂
      let top := min y₁ y₂
      .ok { p with frame := p.frame.fill ⟨left, top, right - left + 1, bottom - top + 1⟩ true }
  | .drawImage id =>
    match p.images.lookup id with
    | some bitmap => .ok { p with frame := drawBitmap p.frame bitmap }
    | none => .error (.unknownImage id)
  | .setBacklight on => .ok { p with backlight := on }
  | .clear => .ok { p with frame := p.frame.clear false }
  | .flush => .ok { p with flushes := p.flushes + 1 }

instance : Surface PixelPanel where
  kind _ := .graphical
  width p := p.frame.width
  height p := p.frame.height
  perform := perform

/-! ## Frames as text -/

/-- One line per row of pixels, `#` for a lit one and `.` for an unlit one. -/
def toAscii (p : PixelPanel) : String :=
  String.ofList <| p.frame.rows.flatMap fun row =>
    row.map (fun on => if on then '#' else '.') ++ ['\n']

/-- The frame as a plain portable bitmap: a mark, the size, then rows of digits. -/
def toPbm (p : PixelPanel) : String :=
  let row (pixels : List Bool) : String :=
    " ".intercalate (pixels.map fun on => if on then "1" else "0") ++ "\n"
  s!"P1\n{p.frame.width} {p.frame.height}\n" ++ String.join (p.frame.rows.map row)

end PixelPanel
end MidiPanel
