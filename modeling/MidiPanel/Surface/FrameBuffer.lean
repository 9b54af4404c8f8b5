/-!
# Frame buffers

A frame buffer is a grid of pixels that are lit or not, stored row after row. Painting a rectangle
visits only the pixels that it shares with the buffer; plotting takes signed points one by one and
ignores those outside.

Packed into bytes, each row starts a new byte and its leftmost pixel is the highest bit of the
first one; the bits that pad the last byte of a row are zero.
-/

namespace MidiPanel

/-- A rectangle of pixels with a signed corner. -/
structure Rect where
  left : Int
  top : Int
  width : Nat
  height : Nat
  deriving DecidableEq

/-- The points of a rectangle, row by row. -/
def Rect.points (area : Rect) : List (Int × Int) :=
  (List.range area.height).flatMap fun dy : Nat =>
    (List.range area.width).map fun dx : Nat => (area.left + dx, area.top + dy)

/-- A grid of pixels, row after row. -/
structure FrameBuffer where
  width : Nat
  height : Nat
  pixels : Vector Bool (width * height)
  deriving DecidableEq

namespace FrameBuffer

theorem index_lt {width height x y : Nat} (hx : x < width) (hy : y < height) :
    y * width + x < width * height := by
  calc y * width + x < y * width + width := Nat.add_lt_add_left hx _
    _ = (y + 1) * width := (Nat.succ_mul y width).symm
    _ ≤ height * width := Nat.mul_le_mul_right width hy
    _ = width * height := Nat.mul_comm height width

/-- A buffer of one colour. -/
def filled (width height : Nat) (on : Bool) : FrameBuffer := ⟨width, height, .replicate _ on⟩

instance : Inhabited FrameBuffer := ⟨filled 0 0 false⟩

/-- The pixel in column `x` of row `y`, if there is one. -/
def get? (fb : FrameBuffer) (x y : Nat) : Option Bool :=
  if h : x < fb.width ∧ y < fb.height then
    have := index_lt h.1 h.2
    some fb.pixels[y * fb.width + x]
  else none

/-- Whether the pixel exists and is lit. -/
def isLit (fb : FrameBuffer) (x y : Nat) : Bool := (fb.get? x y).getD false

/-- Changes one pixel, if there is one. -/
def set (fb : FrameBuffer) (x y : Nat) (on : Bool) : FrameBuffer :=
  if h : x < fb.width ∧ y < fb.height then
    ⟨fb.width, fb.height, fb.pixels.set (y * fb.width + x) on (index_lt h.1 h.2)⟩
  else fb

/-- Gives every pixel one colour. -/
def clear (fb : FrameBuffer) (on : Bool) : FrameBuffer := filled fb.width fb.height on

/-- Changes the pixel at a signed point, if it lies in the buffer. -/
def plot (fb : FrameBuffer) (x y : Int) (on : Bool) : FrameBuffer :=
  if 0 ≤ x ∧ 0 ≤ y then fb.set x.toNat y.toNat on else fb

/-- Gives every point of a list one colour, point by point. -/
def plotAll (fb : FrameBuffer) (points : List (Int × Int)) (on : Bool) : FrameBuffer :=
  points.foldl (fun fb p => fb.plot p.1 p.2 on) fb

/-- The numbers below `bound` among the `length` numbers from `start` on. -/
def clipped (start : Int) (length bound : Nat) : List Nat :=
  List.range' start.toNat (min (start + length).toNat bound - start.toNat)

/-- Paints the part of a rectangle that lies in the buffer; `color` is given the offsets from the
rectangle's corner. -/
def paint (fb : FrameBuffer) (area : Rect) (color : Nat → Nat → Bool) : FrameBuffer :=
  let columns := clipped area.left area.width fb.width
  (clipped area.top area.height fb.height).foldl (fun fb (y : Nat) =>
    let dy := (y - area.top).toNat
    columns.foldl (fun fb (x : Nat) => fb.set x y (color (x - area.left).toNat dy)) fb) fb

/-- Gives the part of a rectangle that lies in the buffer one colour. -/
def fill (fb : FrameBuffer) (area : Rect) (on : Bool) : FrameBuffer := fb.paint area fun _ _ => on

/-! ## Reading a frame -/

/-- The number of lit pixels. -/
def litCount (fb : FrameBuffer) : Nat := fb.pixels.toList.count true

/-- One row of pixels, from the left. -/
def row (fb : FrameBuffer) (y : Nat) : List Bool := (List.range fb.width).map (fb.isLit · y)

/-- The rows of pixels, from the top. -/
def rows (fb : FrameBuffer) : List (List Bool) := (List.range fb.height).map fb.row

/-- The bytes that one row of pixels takes. -/
def bytesPerRow (width : Nat) : Nat := (width + 7) / 8

/-- Eight pixels from column `8 * i` on as a byte, the leftmost highest. -/
def byteAt (fb : FrameBuffer) (i y : Nat) : UInt8 :=
  UInt8.ofNat <| (List.range 8).foldl (fun byte bit =>
    2 * byte + (fb.isLit (8 * i + bit) y).toNat) 0

/-- The frame as an image: rows of bytes, top row first. -/
def toImageBytes (fb : FrameBuffer) : List UInt8 :=
  (List.range fb.height).flatMap fun y =>
    (List.range (bytesPerRow fb.width)).map fun i => fb.byteAt i y

end FrameBuffer
end MidiPanel
