import MidiPanel.Glyph.Font
import MidiPanel.Surface.FrameBuffer

/-!
# The name plate

A full-screen image: a border of one pixel around the panel, and the name of the program in its
middle. Only the lit pixels of the name are drawn, so it leaves the border alone where it crosses it.
-/

namespace MidiPanel.Logo

/-- The name on the plate. -/
def name : String := "midimon"

/-- Whether a pixel lies on the edge of a grid of this size. -/
def onBorder (width height x y : Nat) : Bool :=
  x = 0 || y = 0 || x + 1 = width || y + 1 = height

/-- The lit points of a glyph at a corner. -/
def glyphPoints (c : Char) (left top : Int) : List (Int × Int) :=
  (Rect.points ⟨left, top, Font.width, Font.height⟩).filter fun (x, y) =>
    Font.isLit c (x - left).toNat (y - top).toNat

/-- The lit points of a line of glyphs at a corner. -/
def linePoints (left top : Int) : List Char → List (Int × Int)
  | [] => []
  | c :: cs => glyphPoints c left top ++ linePoints (left + Font.width) top cs

/-- The plate for a panel of this size. The name is centred: half of its width less one lies left of
the middle and half of its height less one above it. -/
def frame (width height : Nat) : FrameBuffer :=
  let cs := name.toList
  let left : Int := (width / 2 : Nat) - ((cs.length * Font.width - 1) / 2 : Nat)
  let top : Int := (height / 2 : Nat) - ((Font.height - 1) / 2 : Nat)
  let plate := (FrameBuffer.filled width height false).paint ⟨0, 0, width, height⟩
    (onBorder width height)
  plate.plotAll (linePoints left top cs) true

end MidiPanel.Logo
