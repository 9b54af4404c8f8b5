import MidiPanel.Proofs.Surface.Filling

/-!
# Text on pixel panels

Printable characters are set in cells side by side, one glyph to the cell. Glyphs are opaque: each
pixel of a cell gets the colour that its glyph has there, whatever it was. A row of cells is higher
than a glyph, so that a band below the text shows what it did before, as does the row right of the
text; printing can be told to blank both first. Cells that cross the right or the lower edge are cut
off there, and cells beyond the edges leave no mark.

How a text is set is left open: `Lettering` has the pixels that are written for it as a parameter,
`Lettering.Opaque` what is relied on. So is the clipping of the rectangle that is blanked.

Results:
* `FrameBuffer.get?_plotEach`, `PixelPanel.get?_drawLine`: every pixel behind pixels written one
  after the other, and behind a line of glyphs.
* `Lettering.Opaque.plotEach_eq`: opaque letterings draw the same.
* `PixelPanel.get?_printText`: every pixel behind a text.
* `PixelPanel.print_decides`: which pixels a print decides, and how.
-/

namespace MidiPanel

/-- A printable character of ASCII. -/
def Printable (c : Char) : Prop := 0x20 ≤ c.toNat ∧ c.toNat ≤ 0x7E

/-! ## Lines of glyphs -/

namespace Font

/-- The cell of a glyph whose upper left corner lies at this point. -/
def cell (left top : Int) : Rect := ⟨left, top, width, height⟩

/-- The colour at a point of a line of cells that begins at `(left, top)`; `none` outside them. -/
def colorAt? (left top : Int) (cs : List Char) (x y : Int) : Option Bool :=
  if left ≤ x ∧ top ≤ y ∧ y < top + height then
    cs[(x - left).toNat / width]?.map (isLit · ((x - left).toNat % width) (y - top).toNat)
  else none

variable {left top x y : Int} {cs : List Char}

theorem colorAt?_nil : colorAt? left top [] x y = none := by
  unfold colorAt?
  split <;> rfl

theorem colorAt?_of_lt (h : x < left) : colorAt? left top cs x y = none := by
  unfold colorAt?
  rw [if_neg (by omega)]

theorem contains_cell_iff :
    (cell left top).Contains x y ↔ (left ≤ x ∧ x < left + 6) ∧ top ≤ y ∧ y < top + 10 := Iff.rfl

/-- The first cell of a line, and the line behind it. -/
theorem colorAt?_cons (c : Char) : colorAt? left top (c :: cs) x y =
    if (cell left top).Contains x y then some (isLit c (x - left).toNat (y - top).toNat)
    else colorAt? (left + width) top cs x y := by
  unfold colorAt? width height
  by_cases hcell : (cell left top).Contains x y
  · have hin := contains_cell_iff.mp hcell
    have hfirst : (x - left).toNat / 6 = 0 := by omega
    have hcolumn : (x - left).toNat % 6 = (x - left).toNat := by omega
    rw [if_pos hcell, if_pos (by omega), hfirst, hcolumn]
    rfl
  · have hout := mt contains_cell_iff.mpr hcell
    rw [if_neg hcell]
    by_cases hlater : left + (6 : Nat) ≤ x ∧ top ≤ y ∧ y < top + (10 : Nat)
    · have hnext : (x - left).toNat / 6 = (x - (left + (6 : Nat))).toNat / 6 + 1 := by omega
      have hcolumn : (x - left).toNat % 6 = (x - (left + (6 : Nat))).toNat % 6 := by omega
      rw [if_pos (by omega), if_pos hlater, hnext, hcolumn, List.getElem?_cons_succ]
    · rw [if_neg (by omega), if_neg hlater]

end Font

/-! ## Pixels one after the other -/

namespace FrameBuffer

/-- Writes pixels in order, each with its colour; those outside the buffer are dropped. -/
def plotEach (fb : FrameBuffer) (writes : List ((Int × Int) × Bool)) : FrameBuffer :=
  writes.foldl (fun fb write => fb.plot write.1.1 write.1.2 write.2) fb

theorem sameSize_plotEach (fb : FrameBuffer) (writes : List ((Int × Int) × Bool)) :
    SameSize fb (fb.plotEach writes) := by
  refine sameSize_foldl (fun fb write => ?_) fb writes
  exact sameSize_plot fb write.1.1 write.1.2 write.2

/-- The last of the writes to a pixel counts. -/
theorem get?_plotEach (fb : FrameBuffer) (writes : List ((Int × Int) × Bool)) (x y : Nat) :
    (fb.plotEach writes).get? x y =
      (fb.get? x y).map fun old => (writes.reverse.lookup ((x : Int), (y : Int))).getD old := by
  unfold plotEach
  induction writes generalizing fb with
  | nil => simp
  | cons write writes ih =>
    obtain ⟨p, on⟩ := write
    rw [List.foldl_cons, ih, get?_plot, List.reverse_cons, List.lookup_append]
    cases hlater : writes.reverse.lookup ((x : Int), (y : Int)) with
    | some later =>
      split
      · rw [Option.map_map]
        rfl
      · rfl
    | none =>
      by_cases hp : ((x : Int), (y : Int)) = p
      · subst hp
        simp [Function.comp_def]
      · have hp' : ¬((x : Int) = p.1 ∧ (y : Int) = p.2) := fun h => hp (Prod.ext h.1 h.2)
        have hother : (((x : Int), (y : Int)) == p) = false := by simpa using hp
        rw [if_neg hp', List.lookup_cons, hother]
        simp

end FrameBuffer

/-! ## Letterings -/

/-- How text is set: the pixels that are written for a text whose first cell has its upper left
corner at `(left, top)`, each with its colour, in the order of writing. -/
structure Lettering where
  writes (left top : Int) (cs : List Char) : List ((Int × Int) × Bool)

/-- For printable characters whose cells fit in words: every pixel of the cells is written, in the
end with the colour that its glyph has there, and no other pixel is. -/
structure Lettering.Opaque (lettering : Lettering) : Prop where
  lookup_writes {left top : Int} {cs : List Char} (hcs : ∀ c ∈ cs, Printable c)
    (hfits : Rect.Fits ⟨left, top, Font.width * cs.length, Font.height⟩) (x y : Int) :
    (lettering.writes left top cs).reverse.lookup (x, y) = Font.colorAt? left top cs x y

namespace Lettering

/-- The pixels of one cell after the other, those of a cell row by row. -/
def cellWrites (left top : Int) : List Char → List ((Int × Int) × Bool)
  | [] => []
  | c :: cs =>
    ((Font.cell left top).points.map fun p =>
        (p, Font.isLit c (p.1 - left).toNat (p.2 - top).toNat)) ++
      cellWrites (left + Font.width) top cs

/-- Sets one glyph after the other. -/
def byCells : Lettering := ⟨cellWrites⟩

theorem lookup_map_mk (ps : List (Int × Int)) (color : Int × Int → Bool) (p : Int × Int) :
    (ps.map fun p => (p, color p)).lookup p = if p ∈ ps then some (color p) else none := by
  induction ps with
  | nil => rfl
  | cons q ps ih =>
    rw [List.map_cons, List.lookup_cons]
    by_cases hp : p = q
    · subst hp
      simp
    · have hother : (p == q) = false := by simpa using hp
      simp [hother, hp, ih]

theorem lookup_cellWrites (left top : Int) (cs : List Char) (x y : Int) :
    (cellWrites left top cs).reverse.lookup (x, y) = Font.colorAt? left top cs x y := by
  induction cs generalizing left with
  | nil => exact Font.colorAt?_nil.symm
  | cons c cs ih =>
    rw [cellWrites, List.reverse_append, List.lookup_append, ih, ← List.map_reverse,
      lookup_map_mk, Font.colorAt?_cons]
    simp only [List.mem_reverse, Rect.mem_points]
    by_cases hcell : (Font.cell left top).Contains x y
    · -- the cells behind the first one lie right of it
      have hlater : x < left + Font.width := hcell.1.2
      rw [if_pos hcell, if_pos hcell, Font.colorAt?_of_lt hlater]
      rfl
    · rw [if_neg hcell, if_neg hcell, Option.or_none]

theorem byCells_opaque : byCells.Opaque where
  lookup_writes _ _ x y := lookup_cellWrites _ _ _ x y

end Lettering

namespace PixelPanel

open FrameBuffer

/-! ## One line -/

/-- The cells of the line get the colours of their glyphs, all other pixels keep theirs. -/
theorem get?_drawLine (fb : FrameBuffer) (left top : Int) (cs : List Char) (x y : Nat) :
    (drawLine fb left top cs).get? x y =
      (fb.get? x y).map fun old => (Font.colorAt? left top cs x y).getD old := by
  induction cs generalizing fb left with
  | nil => simp [drawLine, Font.colorAt?_nil]
  | cons c cs ih =>
    rw [drawLine, ih, Font.colorAt?_cons]
    show ((fb.paint (Font.cell left top) (Font.isLit c)).get? x y).map _ = _
    rw [get?_paint]
    by_cases hcell : (Font.cell left top).Contains x y
    · have hlater : (x : Int) < left + Font.width := hcell.1.2
      rw [if_pos hcell, if_pos hcell, Font.colorAt?_of_lt hlater, Option.map_map]
      rfl
    · rw [if_neg hcell, if_neg hcell]

end PixelPanel

/-- Whatever is opaque writes a line as the panel draws it. -/
theorem Lettering.Opaque.plotEach_eq {lettering : Lettering} (h : lettering.Opaque) {left top : Int}
    {cs : List Char} (hcs : ∀ c ∈ cs, Printable c)
    (hfits : Rect.Fits ⟨left, top, Font.width * cs.length, Font.height⟩) (fb : FrameBuffer) :
    fb.plotEach (lettering.writes left top cs) = PixelPanel.drawLine fb left top cs := by
  obtain ⟨hwidth, hheight⟩ := fb.sameSize_plotEach (lettering.writes left top cs)
  obtain ⟨hwidth', hheight'⟩ := PixelPanel.sameSize_drawLine fb left top cs
  refine FrameBuffer.ext_get? ⟨hwidth.trans hwidth'.symm, hheight.trans hheight'.symm⟩ ?_
  intro x y
  rw [FrameBuffer.get?_plotEach, PixelPanel.get?_drawLine, h.lookup_writes hcs hfits]

/-! ## Printable text -/

namespace Printable

variable {cs : List Char} (h : ∀ c ∈ cs, Printable c)

include h

/-- There are no breaks in it. -/
theorem split_eq : Lines.split (· == '\n') cs = [cs] := by
  induction cs with
  | nil => rfl
  | cons c cs ih =>
    have hbreak : (c == '\n') = false := by
      rw [beq_eq_false_iff_ne]
      rintro rfl
      exact absurd (h '\n' List.mem_cons_self).1 (by decide)
    rw [Lines.split, hbreak, ih fun c' hc' => h c' (List.mem_cons_of_mem c hc')]
    rfl

/-- It does not end in a carriage return. -/
theorem dropReturn_eq : Lines.dropReturn cs = cs := by
  unfold Lines.dropReturn
  split
  next hreturn =>
    exact absurd (h '\r' (List.mem_of_getLast? hreturn)).1 (by decide)
  next => rfl

end Printable

namespace PixelPanel

open FrameBuffer

variable {lettering : Lettering} {clipping : Clipping} {frame : FrameBuffer} {text : String}
  {column row : Nat}

theorem cellOrigin_of_lt {index size : Nat} (h : index * size < 0x80000000) :
    cellOrigin index size = (index * size : Nat) := by
  have hhalf : ((UInt32.size : Nat) : Int) / 2 = 0x80000000 := by decide
  have hhalf' : (((UInt32.size : Nat) : Int) + 1) / 2 = 0x80000000 := by decide
  unfold cellOrigin
  rw [Int.bmod_eq_of_le (by omega) (by omega)]

/-- The corner of a text whose cells fit in signed words does so too. -/
theorem corner_lt {n : Nat} (hcolumn : 6 * (column + n) < 0x80000000)
    (hrow : 16 * (row + 1) < 0x80000000) :
    column * cellWidth < 0x80000000 ∧ row * cellHeight < 0x80000000 := by
  unfold cellWidth cellHeight Font.width
  omega

/-- What is blanked: the rest of a row of cells, from a column on. -/
def restOfRow (frame : FrameBuffer) (column row : Nat) : Rect :=
  ⟨(column * cellWidth : Nat), (row * cellHeight : Nat), frame.width - column * cellWidth,
    cellHeight⟩

/-- Printable text is set in one line of cells, over the blanked row or over what was there. -/
theorem printText_eq (htext : ∀ c ∈ text.toList, Printable c)
    (hcolumn : column * cellWidth < 0x80000000) (hrow : row * cellHeight < 0x80000000)
    (clearRest : Bool) :
    printText frame text column row clearRest =
      drawLine (if clearRest then frame.fill (restOfRow frame column row) false else frame)
        (column * cellWidth : Nat) (row * cellHeight : Nat) text.toList := by
  unfold printText
  rw [cellOrigin_of_lt hcolumn, cellOrigin_of_lt hrow, Printable.split_eq htext]
  dsimp only [drawLines]
  rw [Printable.dropReturn_eq htext]
  rfl

/-- Every pixel behind printable text: in its cells that of the glyph, in what is blanked an unlit
one, elsewhere the one before. -/
theorem get?_printText (htext : ∀ c ∈ text.toList, Printable c)
    (hcolumn : column * cellWidth < 0x80000000) (hrow : row * cellHeight < 0x80000000)
    (clearRest : Bool) (x y : Nat) :
    (printText frame text column row clearRest).get? x y = (frame.get? x y).map fun old =>
      (Font.colorAt? (column * cellWidth : Nat) (row * cellHeight : Nat) text.toList x y).getD
        (if clearRest = true ∧ (restOfRow frame column row).Contains x y then false else old) := by
  rw [printText_eq htext hcolumn hrow, get?_drawLine]
  cases clearRest with
  | false => simp
  | true =>
    rw [if_pos rfl, get?_fill]
    by_cases hrest : (restOfRow frame column row).Contains x y
    · simp [hrest, Function.comp_def]
    · simp [hrest]

/-! ## Two strokes -/

/-- Prints in two strokes: fills the rest of the row slice by slice if it is to be blanked, then
writes the pixels of the text; `none` if a slice is not in the store. -/
def printWith? (clipping : Clipping) (lettering : Lettering) (frame : FrameBuffer) (text : String)
    (column row : Nat) (clearRest : Bool) : Option FrameBuffer := do
  let left := cellOrigin column cellWidth
  let top := cellOrigin row cellHeight
  let ground ←
    if clearRest then
      frame.fillRows? clipping ⟨left, top, frame.width - column * cellWidth, cellHeight⟩ false
    else some frame
  return ground.plotEach (lettering.writes left top text.toList)

/-- Both strokes are made, and what they leave is what the panel prints. -/
theorem printWith?_eq (hclipping : clipping.Exact) (hlettering : lettering.Opaque)
    (hwidth : frame.width < 0x80000000) (hheight : frame.height < 0x80000000)
    (htext : ∀ c ∈ text.toList, Printable c)
    (hcolumn : 6 * (column + text.length) < 0x80000000) (hrow : 16 * (row + 1) < 0x80000000)
    (clearRest : Bool) :
    printWith? clipping lettering frame text column row clearRest =
      some (printText frame text column row clearRest) := by
  obtain ⟨hleft, htop⟩ := corner_lt hcolumn hrow
  have hcells : Rect.Fits ⟨(column * cellWidth : Nat), (row * cellHeight : Nat),
      Font.width * text.toList.length, Font.height⟩ := by
    have hlength : text.toList.length = text.length := String.length_toList
    unfold cellWidth cellHeight Font.width Font.height
    constructor <;> dsimp only [UInt32.size] <;> omega
  have hplot (ground : FrameBuffer) := hlettering.plotEach_eq htext hcells ground
  rw [printText_eq htext hleft htop]
  unfold printWith?
  rw [cellOrigin_of_lt hleft, cellOrigin_of_lt htop]
  cases clearRest with
  | false => exact congrArg some (hplot frame)
  | true =>
    have hbounds : frame.bounds.Fits := by
      unfold bounds
      constructor <;> dsimp only [UInt32.size] <;> omega
    have hrest : (restOfRow frame column row).Fits := by
      unfold restOfRow cellWidth cellHeight Font.width
      constructor <;> dsimp only [UInt32.size] <;> omega
    have hfill := fillRows?_eq_fill hclipping hbounds hrest false
    unfold restOfRow at hfill
    dsimp only
    rw [if_pos rfl, hfill]
    exact congrArg some (hplot _)

/-! ## What a print decides -/

/-- A print of `n` characters decides this pixel: it lies in one of the cells of the text, or, if
the rest of the row is blanked, anywhere in the row from the first cell on. -/
def Decides (n column row : Nat) (clearRest : Bool) (x y : Nat) : Prop :=
  6 * column ≤ x ∧ 16 * row ≤ y ∧
    if clearRest then y < 16 * row + 16 else (x - 6 * column) / 6 < n ∧ y < 16 * row + 10

/-- The text has a character at this pixel whose glyph is lit there. -/
def Lights (text : String) (column row x y : Nat) : Prop :=
  ∃ c, text.toList[(x - 6 * column) / 6]? = some c ∧ y - 16 * row < 10 ∧
    Font.isLit c ((x - 6 * column) % 6) (y - 16 * row) = true

instance decidableDecides (n column row : Nat) (clearRest : Bool) (x y : Nat) :
    Decidable (Decides n column row clearRest x y) :=
  inferInstanceAs (Decidable (_ ∧ _ ∧ ite _ _ _))

instance decidableLights (text : String) (column row x y : Nat) :
    Decidable (Lights text column row x y) :=
  decidable_of_iff (text.toList[(x - 6 * column) / 6]?.any fun c =>
      y - 16 * row < 10 && Font.isLit c ((x - 6 * column) % 6) (y - 16 * row)) <| by
    unfold Lights
    cases text.toList[(x - 6 * column) / 6]? <;> simp

/-- The cells of a text, by the position of the first. -/
theorem colorAt?_cells (cs : List Char) (column row x y : Nat) :
    Font.colorAt? (column * cellWidth : Nat) (row * cellHeight : Nat) cs x y =
      if 6 * column ≤ x ∧ 16 * row ≤ y ∧ y < 16 * row + 10 then
        cs[(x - 6 * column) / 6]?.map (Font.isLit · ((x - 6 * column) % 6) (y - 16 * row))
      else none := by
  have hcolumn : column * cellWidth = 6 * column := Nat.mul_comm column 6
  have hrow : row * cellHeight = 16 * row := Nat.mul_comm row 16
  unfold Font.colorAt?
  rw [hcolumn, hrow]
  by_cases hin : 6 * column ≤ x ∧ 16 * row ≤ y ∧ y < 16 * row + 10
  · have hdx : ((x : Int) - (6 * column : Nat)).toNat = x - 6 * column := by omega
    have hdy : ((y : Int) - (16 * row : Nat)).toNat = y - 16 * row := by omega
    have hin' : ((6 * column : Nat) : Int) ≤ x ∧ ((16 * row : Nat) : Int) ≤ y ∧
        (y : Int) < (16 * row : Nat) + Font.height := by
      unfold Font.height
      omega
    rw [if_pos hin, if_pos hin', hdx, hdy]
    rfl
  · have hout : ¬(((6 * column : Nat) : Int) ≤ x ∧ ((16 * row : Nat) : Int) ≤ y ∧
        (y : Int) < (16 * row : Nat) + Font.height) := by
      unfold Font.height
      omega
    rw [if_neg hin, if_neg hout]

theorem colorAt?_getD_iff {x y : Nat} (hx : 6 * column ≤ x) (hy : 16 * row ≤ y) :
    (Font.colorAt? (column * cellWidth : Nat) (row * cellHeight : Nat) text.toList x y).getD false =
      true ↔ Lights text column row x y := by
  unfold Lights
  rw [colorAt?_cells]
  by_cases hglyph : y < 16 * row + 10
  · have hglyph' : y - 16 * row < 10 := by omega
    rw [if_pos ⟨hx, hy, hglyph⟩]
    cases text.toList[(x - 6 * column) / 6]? <;> simp [hglyph']
  · have hbelow : ¬y - 16 * row < 10 := by omega
    simp [hglyph, hbelow]

/-- A pixel in a cell has the colour of a glyph, whatever else happens to it. -/
theorem isSome_colorAt? {x y : Nat} (h : Decides text.length column row false x y) :
    (Font.colorAt? (column * cellWidth : Nat) (row * cellHeight : Nat) text.toList x y).isSome =
      true := by
  obtain ⟨hx, hy, hcell, hglyph⟩ := h
  have hlt : (x - 6 * column) / 6 < text.toList.length := by rwa [String.length_toList]
  rw [colorAt?_cells, if_pos ⟨hx, hy, hglyph⟩, List.getElem?_eq_getElem hlt]
  rfl

/-- A pixel that a print does not decide lies in no cell, and not in what is blanked. -/
theorem colorAt?_of_not_decides (frame : FrameBuffer) {clearRest : Bool} {x y : Nat}
    (h : ¬Decides text.length column row clearRest x y) :
    Font.colorAt? (column * cellWidth : Nat) (row * cellHeight : Nat) text.toList x y = none ∧
      ¬(clearRest = true ∧ (restOfRow frame column row).Contains x y) := by
  unfold Decides at h
  constructor
  · rw [colorAt?_cells]
    split
    next hin =>
      cases clearRest with
      | true =>
        rw [if_pos rfl] at h
        omega
      | false =>
        rw [if_neg Bool.false_ne_true] at h
        have hbehind : text.toList.length ≤ (x - 6 * column) / 6 := by
          rw [String.length_toList]
          omega
        rw [List.getElem?_eq_none hbehind]
        rfl
    next => rfl
  · rintro ⟨rfl, hrest⟩
    rw [if_pos rfl] at h
    unfold Rect.Contains restOfRow cellWidth cellHeight Font.width at hrest
    dsimp only at hrest
    omega

/-- Any print of printable text whose cells fit in signed words, on any pixel panel whose size does:
it is performed, and whatever is opaque and clips exactly makes both its strokes and draws the same.
Nothing but the frame changes, and its size does not. A pixel of the panel that the print decides is
lit exactly if the text lights it, whatever it was; any other is as before. -/
theorem print_decides (hclipping : clipping.Exact) (hlettering : lettering.Opaque) {p : PixelPanel}
    (hwidth : p.frame.width < 0x80000000) (hheight : p.frame.height < 0x80000000)
    (htext : ∀ c ∈ text.toList, Printable c)
    (hcolumn : 6 * (column + text.length) < 0x80000000) (hrow : 16 * (row + 1) < 0x80000000)
    (clearRest : Bool) :
    ∃ frame, Surface.perform p (.print text column row clearRest) = .ok { p with frame := frame } ∧
      printWith? clipping lettering p.frame text column row clearRest = some frame ∧
      SameSize p.frame frame ∧
      (∀ x y, Decides text.length column row clearRest x y →
        x < p.frame.width ∧ y < p.frame.height →
        (frame.isLit x y = true ↔ Lights text column row x y)) ∧
      ∀ x y, ¬Decides text.length column row clearRest x y →
        frame.get? x y = p.frame.get? x y := by
  obtain ⟨hleft, htop⟩ := corner_lt hcolumn hrow
  refine ⟨printText p.frame text column row clearRest, rfl,
    printWith?_eq hclipping hlettering hwidth hheight htext hcolumn hrow clearRest,
    sameSize_printText _ _ _ _ _, ?_, ?_⟩
  · intro x y hdecides hin
    obtain ⟨old, hold⟩ := exists_get?_eq hin
    rw [← colorAt?_getD_iff hdecides.1 hdecides.2.1, isLit,
      get?_printText htext hleft htop, hold, Option.map_some, Option.getD_some]
    cases clearRest with
    | true =>
      have hrest : (restOfRow p.frame column row).Contains x y := by
        obtain ⟨hx, hy, hband⟩ := hdecides
        rw [if_pos rfl] at hband
        unfold Rect.Contains restOfRow cellWidth cellHeight Font.width
        dsimp only
        omega
      rw [if_pos ⟨rfl, hrest⟩]
    | false =>
      -- the glyph leaves nothing of what was there
      obtain ⟨on, hon⟩ := Option.isSome_iff_exists.mp (isSome_colorAt? hdecides)
      rw [hon, Option.getD_some, Option.getD_some]
  · intro x y hdecides
    obtain ⟨hcells, hrest⟩ := colorAt?_of_not_decides p.frame hdecides
    rw [get?_printText htext hleft htop, hcells]
    simp [hrest]

/-- A text across the right edge of a panel on which all pixels are lit: with the rest of its row
blanked the band below the glyphs is dark, without it stays lit, and neither reaches any further. -/
theorem print_decides_edge :
    let lcd : PixelPanel := ⟨.filled 20 20 true, [], true, 0⟩
    (Clipping.byEdges.Exact ∧ Lettering.byCells.Opaque ∧ ∀ c ∈ "Hi".toList, Printable c) ∧
    ∃ blanked atop,
      Surface.perform lcd (.print "Hi" 2 0 true) = .ok { lcd with frame := blanked } ∧
      Surface.perform lcd (.print "Hi" 2 0 false) = .ok { lcd with frame := atop } ∧
      (blanked.isLit 12 1 = true ∧ blanked.isLit 13 1 = false ∧ blanked.isLit 19 3 = true) ∧
      (blanked.isLit 12 12 = false ∧ atop.isLit 13 1 = false ∧ atop.get? 12 12 = some true) ∧
      blanked.get? 11 12 = some true ∧ blanked.get? 12 16 = some true ∧
      SameSize lcd.frame blanked := by
  intro lcd
  have hexact := Clipping.byEdges_exact
  have hopaque := Lettering.byCells_opaque
  have htext : ∀ c ∈ "Hi".toList, Printable c := by
    intro c hc
    obtain rfl | rfl : c = 'H' ∨ c = 'i' := by simpa using hc
    · exact ⟨by decide, by decide⟩
    · exact ⟨by decide, by decide⟩
  have hprint := @print_decides _ _ "Hi" 2 0 hexact hopaque lcd (by decide) (by decide) htext
    (by decide) (by decide)
  obtain ⟨blanked, hblanked, -, hsize, hlit, hkept⟩ := hprint true
  obtain ⟨atop, hatop, -, -, hlit', hkept'⟩ := hprint false
  refine ⟨⟨hexact, hopaque, htext⟩, blanked, atop, hblanked, hatop, ⟨?_, ?_, ?_⟩, ⟨?_, ?_, ?_⟩,
    ?_, ?_, hsize⟩
  · exact (hlit 12 1 (by decide) (by decide)).mpr (by decide)
  · exact Bool.eq_false_iff.mpr (mt (hlit 13 1 (by decide) (by decide)).mp (by decide))
  · exact (hlit 19 3 (by decide) (by decide)).mpr (by decide)
  · exact Bool.eq_false_iff.mpr (mt (hlit 12 12 (by decide) (by decide)).mp (by decide))
  · exact Bool.eq_false_iff.mpr (mt (hlit' 13 1 (by decide) (by decide)).mp (by decide))
  · exact (hkept' 12 12 (by decide)).trans (by decide)
  · exact (hkept 11 12 (by decide)).trans (by decide)
  · exact (hkept 12 16 (by decide)).trans (by decide)

end PixelPanel
end MidiPanel
