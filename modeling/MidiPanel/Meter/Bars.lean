import MidiPanel.Glyph.Bar
import MidiPanel.Meter.Layout
import MidiPanel.Meter.Stroke
import MidiPanel.Single.Arithmetic

/-!
# Drawing the meter

A meter is a list of strokes, computed from levels and a layout. A pixel panel gets one filled
rectangle for each bar, growing up from the bottom, and one more, a single pixel high, for each peak
above zero. A character panel gets one print for each row of the meter; a column shows one channel
with eight levels to the cell. The first bar that would cross the right edge ends the meter.
-/

namespace MidiPanel.Meter

/-- The strokes of bars that stand side by side, from `channel` on. Each bar is placed, then drawn,
up to the first that crosses the right edge. -/
def sideBySide (place : Nat → List Int) (crosses : Nat → Bool) (draw : Nat → Single → List Stroke)
    (channel : Nat) : List Single → List Stroke
  | [] => []
  | level :: levels =>
    ⟨place channel, []⟩ ::
      if crosses channel then []
      else draw channel level ++ sideBySide place crosses draw (channel + 1) levels

/-! ## Pixels -/

/-- The height of a level in pixels above the lowest row, out of `top`. -/
def pixelHeight (level : Single) (top : Nat) : Nat :=
  (level.clamp 0 1 * Single.ofNat top).round

/-- The strokes for one bar and its peak cap between the columns `left` and `right`. -/
def barStrokes (layout : MeterLayout) (left right : Nat) (level : Single) (peak : Option Single) :
    List Stroke :=
  let top := layout.barHeight - 1
  let height := pixelHeight level top
  let upper := layout.yOffset + (top - height)
  let bar := if 0 < height ∨ layout.drawBarBases then
      [⟨[top - height, upper, upper + height], [.fillRect left upper right (upper + height)]⟩]
    else []
  let cap := match peak with
    | some peak =>
      let height := pixelHeight peak top
      let y := layout.yOffset + (top - height)
      if 0 < height then [⟨[top - height, y], [.fillRect left y right y]⟩] else []
    | none => []
  bar ++ cap

/-- The leftmost pixel column of a bar. -/
def barLeft (layout : MeterLayout) (width channel : Nat) : Nat :=
  layout.xOffset + channel * (width + layout.barSpacing)

/-- The numbers that place a bar: the distance from bar to bar, the distance to this bar, its left
column, the column behind it, and its right column. -/
def barPlace (layout : MeterLayout) (width channel : Nat) : List Int :=
  let left : Int := barLeft layout width channel
  [width + layout.barSpacing, channel * (width + layout.barSpacing), left, left + width,
    left + width - 1]

/-- The strokes for the bars from `channel` on, up to the first that crosses the right edge. -/
def barsFrom (layout : MeterLayout) (panelWidth width : Nat) (peak? : Nat → Option Single) :
    (channel : Nat) → List Single → List Stroke :=
  let left := barLeft layout width
  sideBySide (barPlace layout width) (fun channel => panelWidth ≤ left channel + width - 1)
    fun channel level =>
      barStrokes layout (left channel) (left channel + width - 1) level (peak? channel)

/-- The strokes that draw the first `channels` levels on a pixel panel with bars of the given width.
-/
def pixelStrokes (layout : MeterLayout) (panelWidth width : Nat) (levels : List Single)
    (peaks : Option (List Single)) (channels : Nat) : List Stroke :=
  if width = 0 ∨ layout.barHeight = 0 then []
  else ⟨[layout.barHeight - 1], []⟩ ::
    barsFrom layout panelWidth width (fun channel => peaks.bind (·[channel]?)) 0
      (levels.take channels)

/-- The stroke that adds up the gaps between bars. -/
def gapsStroke (channels spacing : Nat) : Stroke := ⟨[channels * spacing], []⟩

/-! ## Character cells -/

/-- The height of a level in eighths of a cell, out of `top`. -/
def cellHeight (layout : MeterLayout) (level : Single) : Nat :=
  let top := layout.barHeight * BarGlyph.levelsPerCell
  let height := (level.clamp 0 1 * Single.ofNat top).truncate
  if layout.drawBarBases ∧ height = 0 then 1 else height

/-- The code of the cell `fromBottom` cells above the lowest one in a column of this height. -/
def cellCode (height fromBottom : Nat) : UInt8 :=
  BarGlyph.code (min (height - fromBottom * BarGlyph.levelsPerCell) BarGlyph.levelsPerCell)

/-- The character column of a channel. -/
def barColumn (layout : MeterLayout) (channel : Nat) : Nat :=
  layout.xOffset + channel * (1 + layout.barSpacing)

/-- The numbers that place a bar: the distance from bar to bar, the distance to this bar, and its
column. -/
def columnPlace (layout : MeterLayout) (channel : Nat) : List Int :=
  [1 + layout.barSpacing, channel * (1 + layout.barSpacing), barColumn layout channel]

/-- The stroke that fills the column of a bar in the lines to be printed. If a cell is filled in
part, its row is worked out. -/
def columnStroke (layout : MeterLayout) (level : Single) : Stroke :=
  let height := cellHeight layout level
  let full : Int := (height / BarGlyph.levelsPerCell : Nat)
  ⟨if 0 < height % BarGlyph.levelsPerCell then [layout.barHeight - full - 1] else [], []⟩

/-- Columns and heights of the bars from `channel` on, up to the first past the right edge. -/
def columnsFrom (layout : MeterLayout) (columns : Nat) (channel : Nat) :
    List Single → List (Nat × Nat)
  | [] => []
  | level :: levels =>
    let column := barColumn layout channel
    if columns ≤ column then []
    else (column, cellHeight layout level) :: columnsFrom layout columns (channel + 1) levels

/-- One line of the meter: a cell for every bar, blanks everywhere else. -/
def cellLine (columns : Nat) (bars : List (Nat × Nat)) (fromBottom : Nat) : List UInt8 :=
  (List.range columns).map fun column =>
    match bars.lookup column with
    | some height => cellCode height fromBottom
    | none => BarGlyph.blank

/-- The stroke that prints one row of the meter. -/
def rowStroke (layout : MeterLayout) (columns : Nat) (bars : List (Nat × Nat)) (row : Nat) :
    Stroke :=
  let line := cellLine columns bars (layout.barHeight - 1 - row)
  let text := String.ofList (line.map fun code => Char.ofNat code.toNat)
  ⟨[layout.yOffset + row], [.print text 0 (layout.yOffset + row) false]⟩

/-- The strokes that draw the first `channels` levels on a character panel: the lines are filled bar
by bar, then printed. -/
def cellStrokes (layout : MeterLayout) (columns : Nat) (levels : List Single) (channels : Nat) :
    List Stroke :=
  if layout.barHeight = 0 then []
  else
    let levels := levels.take channels
    ⟨[layout.barHeight * BarGlyph.levelsPerCell], []⟩ ::
      sideBySide (columnPlace layout) (fun channel => columns ≤ barColumn layout channel)
        (fun _ level => [columnStroke layout level]) 0 levels ++
      (List.range layout.barHeight).map
        (rowStroke layout columns (columnsFrom layout columns 0 levels))

/-! ## Both -/

/-- The strokes that draw a meter on a panel of this kind and width. -/
def strokes (kind : PanelKind) (panelWidth : Nat) (layout : MeterLayout)
    (levels peaks : List Single) (channels : Nat) : List Stroke :=
  match kind with
  | .graphical =>
    gapsStroke channels layout.barSpacing ::
      pixelStrokes layout panelWidth (barWidth panelWidth channels layout.barSpacing) levels
        (some peaks) channels
  | .character => cellStrokes layout panelWidth levels channels

end MidiPanel.Meter
