import MidiPanel.Proofs.Surface.Filling
import MidiPanel.Proofs.Surface.Stored

/-!
# What a written frame shows

A frame is written out as lines of characters, as a plain portable bitmap, and packed into bytes.
Which pixel stands where is told by reading back what was written: the characters of the lines of a
text, the digits between the spaces of a line, the bits of a byte. All three show the pixels that the
panel has, so that a frame can be told from each: from a text with its size, from bytes if the number
of columns is known, which the bits that fill up a row would hide.

Pixels are asked for by unsigned words that are read as signed ones, which makes no difference on a
panel that has less than half as many columns and rows as there are words.

Results:
* `pixel?_eq`, `eq_of_pixel?`: pixels asked for by words, and what they tell of the frame.
* `shownBy_map_rows`, `ShownBy.frame_eq`: a grid of marks shows one frame.
* `splitOn_ended`: the lines of a text.
* `asciiLines_toAscii`, `pbmLines_toPbm`, `packedBits_toImageBytes`: what each way of writing shows.
* `AsciiLines.frame_eq`, `PbmLines.frame_eq`, `PackedBits.frame_eq`: frames that are shown alike.
* `dumps_agree`: all of it.
-/

namespace MidiPanel

/-! ## Grids -/

/-- `height` rows of `width` entries each. -/
structure IsGrid {α : Type} (width height : Nat) (rows : List (List α)) : Prop where
  length_eq : rows.length = height
  length_row : ∀ row ∈ rows, row.length = width

/-- The entry in column `x` of row `y`, if there is one. -/
def entryAt? {α : Type} (rows : List (List α)) (x y : Nat) : Option α := rows[y]?.bind (·[x]?)

section Grid

variable {α β : Type} {rows : List (List α)} {width height width' height' : Nat}

theorem entryAt?_map (f : α → β) (rows : List (List α)) (x y : Nat) :
    entryAt? (rows.map (·.map f)) x y = (entryAt? rows x y).map f := by
  unfold entryAt?
  rw [List.getElem?_map]
  cases rows[y]? <;> simp

theorem IsGrid.map (h : IsGrid width height rows) (f : α → β) :
    IsGrid width height (rows.map (·.map f)) where
  length_eq := by rw [List.length_map, h.length_eq]
  length_row := by
    intro row hrow
    obtain ⟨old, hold, rfl⟩ := List.mem_map.mp hrow
    rw [List.length_map, h.length_row old hold]

/-- A grid that has a row has one size. -/
theorem IsGrid.size_eq (h : IsGrid width height rows) (h' : IsGrid width' height' rows)
    (hpos : 1 ≤ height) : width' = width ∧ height' = height := by
  have hlength : 0 < rows.length := by rwa [h.length_eq]
  have hmem : rows[0] ∈ rows := List.getElem_mem hlength
  exact ⟨(h'.length_row _ hmem).symm.trans (h.length_row _ hmem),
    h'.length_eq.symm.trans h.length_eq⟩

/-- A mark that stands for lit pixels only. -/
theorem map_eq_some_iff_of_ne {mark : Bool → α} (h : mark false ≠ mark true)
    (pixel : Option Bool) : pixel.map mark = some (mark true) ↔ pixel = some true := by
  rcases pixel with _ | _ | _ <;> simp [h]

end Grid

namespace FrameBuffer

/-! ## Pixels asked for by words -/

/-- There are pixels, and less than half as many columns and rows as there are words. -/
structure Sized (fb : FrameBuffer) : Prop where
  one_le_width : 1 ≤ fb.width
  one_le_height : 1 ≤ fb.height
  width_lt : fb.width < 2 ^ 31
  height_lt : fb.height < 2 ^ 31

/-- The pixel at a point whose words are read as signed ones; there is none before the first column
or row. -/
def pixel? (fb : FrameBuffer) (x y : UInt32) : Option Bool :=
  if 0 ≤ x.toInt32.toInt ∧ 0 ≤ y.toInt32.toInt then
    fb.get? x.toInt32.toInt.toNat y.toInt32.toInt.toNat
  else none

variable {fb fb' : FrameBuffer}

theorem toInt_toInt32 (x : UInt32) :
    x.toInt32.toInt = if x.toNat < 2 ^ 31 then (x.toNat : Int) else x.toNat - 2 ^ 32 := by
  have hbmod : x.toInt32.toInt = (x.toNat : Int).bmod (2 ^ 32) :=
    BitVec.toInt_eq_toNat_bmod x.toBitVec
  have hlt := x.toNat_lt
  rw [hbmod, Int.bmod_def]
  split <;> split <;> omega

theorem pixel?_eq (h : fb.Sized) (x y : UInt32) : fb.pixel? x y = fb.get? x.toNat y.toNat := by
  have hwidth := h.width_lt
  have hheight := h.height_lt
  have hx := toInt_toInt32 x
  have hy := toInt_toInt32 y
  unfold pixel?
  by_cases hboth : x.toNat < 2 ^ 31 ∧ y.toNat < 2 ^ 31
  · rw [if_pos hboth.1] at hx
    rw [if_pos hboth.2] at hy
    rw [hx, hy, if_pos (by omega), Int.toNat_natCast, Int.toNat_natCast]
  · have hnegative : ¬(0 ≤ x.toInt32.toInt ∧ 0 ≤ y.toInt32.toInt) := by
      have := x.toNat_lt
      have := y.toNat_lt
      split at hx <;> split at hy <;> omega
    rw [if_neg hnegative, get?_eq_none_iff.mpr (by omega)]

theorem pixel?_eq_none_iff (h : fb.Sized) {x y : UInt32} :
    fb.pixel? x y = none ↔ ¬(x.toNat < fb.width ∧ y.toNat < fb.height) := by
  rw [pixel?_eq h, get?_eq_none_iff]

/-- Frames of one size in which the same pixels are lit are the same. -/
theorem eq_of_pixel? (h : fb.Sized) (h' : fb'.Sized)
    (hsize : fb'.width = fb.width ∧ fb'.height = fb.height)
    (hlit : ∀ x y : UInt32, x.toNat < fb.width → y.toNat < fb.height →
      (fb'.pixel? x y = some true ↔ fb.pixel? x y = some true)) : fb' = fb := by
  refine ext_get? hsize fun x y => ?_
  by_cases hin : x < fb.width ∧ y < fb.height
  · have hin' : x < fb'.width ∧ y < fb'.height := by omega
    have hwidth := h.width_lt
    have hheight := h.height_lt
    have toNat_ofNat (n : Nat) (hn : n < 2 ^ 31) : (UInt32.ofNat n).toNat = n :=
      UInt32.toNat_ofNat_of_lt' (by unfold UInt32.size; omega)
    have hx := toNat_ofNat x (by omega)
    have hy := toNat_ofNat y (by omega)
    obtain ⟨on, hon⟩ := exists_get?_eq hin
    obtain ⟨on', hon'⟩ := exists_get?_eq hin'
    have hsame := hlit (.ofNat x) (.ofNat y) (by omega) (by omega)
    rw [pixel?_eq h, pixel?_eq h', hx, hy, hon, hon', Option.some_inj, Option.some_inj] at hsame
    rw [hon, hon', Bool.eq_iff_iff.mpr hsame]
  · rw [get?_eq_none_iff.mpr hin, get?_eq_none_iff.mpr (by omega)]

/-! ## Rows -/

theorem isGrid_rows (fb : FrameBuffer) : IsGrid fb.width fb.height fb.rows where
  length_eq := by simp [rows]
  length_row := by
    intro row hrow
    obtain ⟨y, -, rfl⟩ := List.mem_map.mp hrow
    simp [FrameBuffer.row]

theorem entryAt?_rows (fb : FrameBuffer) (x y : Nat) : entryAt? fb.rows x y = fb.get? x y := by
  unfold entryAt? rows
  rw [List.getElem?_map]
  by_cases hy : y < fb.height
  · rw [List.getElem?_range hy, Option.map_some, Option.bind_some, getElem?_row]
    split
    next hx =>
      obtain ⟨on, hon⟩ := exists_get?_eq ⟨hx, hy⟩
      rw [isLit, hon, Option.getD_some]
    next hx => exact (get?_eq_none_iff.mpr fun hin => hx hin.1).symm
  · rw [List.getElem?_eq_none (by rw [List.length_range]; omega), Option.map_none,
      Option.bind_none, get?_eq_none_iff.mpr fun hin => hy hin.2]

/-- A grid has an entry for each pixel, which is the mark where the pixel is lit and only there. -/
structure ShownBy (fb : FrameBuffer) {α : Type} (entries : List (List α)) (mark : α) : Prop where
  grid : IsGrid fb.width fb.height entries
  lit_iff : ∀ x y : UInt32,
    fb.pixel? x y = some true ↔ entryAt? entries x.toNat y.toNat = some mark

section ShownBy

variable {α : Type} {entries : List (List α)} {mark : α}

theorem shownBy_map_rows (h : fb.Sized) (f : Bool → α) (hf : f false ≠ f true) :
    fb.ShownBy (fb.rows.map (·.map f)) (f true) where
  grid := fb.isGrid_rows.map f
  lit_iff := by
    intro x y
    rw [entryAt?_map, entryAt?_rows, map_eq_some_iff_of_ne hf, pixel?_eq h]

/-- A grid shows one frame. -/
theorem ShownBy.frame_eq (hshown : fb.ShownBy entries mark) (h : fb.Sized)
    (hshown' : fb'.ShownBy entries mark) (h' : fb'.Sized) : fb' = fb := by
  refine eq_of_pixel? h h' (hshown.grid.size_eq hshown'.grid h.one_le_height) ?_
  intro x y _ _
  rw [hshown'.lit_iff, hshown.lit_iff]

end ShownBy

end FrameBuffer

/-! ## Lines of a text -/

section Lines

variable {sep : Char} {pieces : List (List Char)}

theorem mem_of_mem_intercalate {c : Char} (h : c ∈ [sep].intercalate pieces) :
    c = sep ∨ ∃ piece ∈ pieces, c ∈ piece := by
  induction pieces with
  | nil => cases h
  | cons piece pieces ih =>
    by_cases hlast : pieces = []
    · subst hlast
      exact .inr ⟨piece, List.mem_cons_self, by simpa [List.intercalate] using h⟩
    · rw [List.intercalate_cons_of_ne_nil hlast, List.mem_append, List.mem_append,
        List.mem_singleton] at h
      obtain (hpiece | hsep) | hlater := h
      · exact .inr ⟨piece, List.mem_cons_self, hpiece⟩
      · exact .inl hsep
      · obtain hsep | ⟨later, hmem, hc⟩ := ih hlater
        · exact .inl hsep
        · exact .inr ⟨later, List.mem_cons_of_mem piece hmem, hc⟩

/-- Pieces that each end in a separator are pieces between separators, the last one empty. -/
theorem flatMap_ended (pieces : List (List Char)) :
    pieces.flatMap (· ++ [sep]) = [sep].intercalate (pieces ++ [[]]) := by
  induction pieces with
  | nil => rfl
  | cons piece pieces ih =>
    rw [List.flatMap_cons, ih, List.cons_append, List.intercalate_cons_of_ne_nil (by simp)]

theorem splitOn_ended (h : ∀ piece ∈ pieces, sep ∉ piece) :
    (pieces.flatMap (· ++ [sep])).splitOn sep = pieces ++ [[]] := by
  rw [flatMap_ended]
  refine List.splitOn_intercalate sep ?_ (by simp)
  intro piece hpiece
  rcases List.mem_append.mp hpiece with hmem | hlast
  · exact h piece hmem
  · rw [List.mem_singleton.mp hlast]
    exact List.not_mem_nil

end Lines

namespace FrameBuffer

variable {fb fb' : FrameBuffer} {text : String} {lines lines' : List (List Char)}
  {bytes : List UInt8}

/-! ## Lines of characters -/

/-- A text is these lines, each ended by a line feed: one for each row of pixels, with a character
for each of them, which is `#` where the pixel is lit. -/
structure AsciiLines (fb : FrameBuffer) (text : String) (lines : List (List Char)) : Prop where
  ended : text.toList.splitOn '\n' = lines ++ [[]]
  shown : fb.ShownBy lines '#'

theorem asciiLines_toAscii {lcd : PixelPanel} (h : lcd.frame.Sized) :
    lcd.frame.AsciiLines lcd.toAscii
      (lcd.frame.rows.map (·.map fun on => if on then '#' else '.')) where
  ended := by
    unfold PixelPanel.toAscii
    rw [String.toList_ofList, ← splitOn_ended, List.flatMap_map]
    intro line hline
    obtain ⟨row, -, rfl⟩ := List.mem_map.mp hline
    intro hbreak
    obtain ⟨on, -, hon⟩ := List.mem_map.mp hbreak
    cases on <;> exact absurd hon (by decide)
  shown := shownBy_map_rows h (fun on => if on then '#' else '.') (by decide)

theorem AsciiLines.frame_eq (hlines : fb.AsciiLines text lines) (h : fb.Sized)
    (hlines' : fb'.AsciiLines text lines') (h' : fb'.Sized) : fb' = fb := by
  obtain rfl : lines' = lines :=
    List.append_cancel_right (hlines'.ended.symm.trans hlines.ended)
  exact hlines.shown.frame_eq h hlines'.shown h'

/-! ## Portable bitmaps -/

/-- A text is these lines behind a mark and the size, each ended by a line feed: one for each row of
pixels, with a digit for each of them between single spaces, which is `1` where the pixel is lit. -/
structure PbmLines (fb : FrameBuffer) (text : String) (lines : List (List Char)) : Prop where
  ended : text.toList.splitOn '\n' =
    "P1".toList :: s!"{fb.width} {fb.height}".toList :: (lines ++ [[]])
  digit : ∀ line ∈ lines, ∀ piece ∈ line.splitOn ' ', piece = ['0'] ∨ piece = ['1']
  shown : fb.ShownBy (lines.map (·.splitOn ' ')) ['1']

/-- The digit of a pixel. -/
def digits (on : Bool) : List Char := if on then ['1'] else ['0']

/-- The digits of a row of pixels, a space between any two. -/
def digitLine (row : List Bool) : List Char := [' '].intercalate (row.map digits)

theorem toList_toPbm (lcd : PixelPanel) : lcd.toPbm.toList =
    ("P1".toList :: s!"{lcd.frame.width} {lcd.frame.height}".toList ::
      lcd.frame.rows.map digitLine).flatMap (· ++ ['\n']) := by
  have hdigits : String.toList ∘ (fun on => if on then "1" else "0") = digits := by
    funext on
    cases on <;> rfl
  have hrow (row : List Bool) :
      (" ".intercalate (row.map fun on => if on then "1" else "0") ++ "\n").toList =
        digitLine row ++ ['\n'] := by
    rw [String.toList_append, String.toList_intercalate, List.map_map, hdigits]
    rfl
  have hhead (width height : Nat) :
      s!"P1\n{width} {height}\n" = "P1" ++ "\n" ++ (s!"{width} {height}" ++ "\n") := by
    show "P1" ++ "\n" ++ toString width ++ " " ++ toString height ++ "\n" =
      "P1" ++ "\n" ++ (toString width ++ " " ++ toString height ++ "\n")
    simp only [String.append_assoc]
  unfold PixelPanel.toPbm
  dsimp only
  rw [hhead, String.toList_append, String.toList_join, List.flatMap_map, List.flatMap_cons,
    List.flatMap_cons, List.flatMap_map, String.toList_append, String.toList_append,
    String.toList_append, List.append_assoc]
  simp only [hrow]
  rfl

theorem not_mem_size (width height : Nat) : '\n' ∉ s!"{width} {height}".toList := by
  have not_mem_number (n : Nat) : '\n' ∉ (toString n).toList := by
    rw [Nat.toString_eq_repr, Nat.toList_repr]
    intro hbreak
    exact absurd (Nat.isDigit_of_mem_toDigits (by decide) (by decide) hbreak) (by decide)
  intro hbreak
  simp only [String.toList_append, List.mem_append] at hbreak
  obtain (hbreak | hbreak) | hbreak := hbreak
  · exact not_mem_number width hbreak
  · exact absurd hbreak (by decide)
  · exact not_mem_number height hbreak

theorem splitOn_digitLine {row : List Bool} (h : row ≠ []) :
    (digitLine row).splitOn ' ' = row.map digits := by
  refine List.splitOn_intercalate ' ' ?_ (by simpa using h)
  intro piece hpiece
  obtain ⟨on, -, rfl⟩ := List.mem_map.mp hpiece
  cases on <;> decide

theorem not_mem_digitLine (row : List Bool) : '\n' ∉ digitLine row := by
  intro hbreak
  obtain hspace | ⟨piece, hpiece, hbreak⟩ := mem_of_mem_intercalate hbreak
  · exact absurd hspace (by decide)
  · obtain ⟨on, -, rfl⟩ := List.mem_map.mp hpiece
    cases on <;> exact absurd hbreak (by decide)

theorem splitOn_digitLines (h : fb.Sized) :
    (fb.rows.map digitLine).map (·.splitOn ' ') = fb.rows.map (·.map digits) := by
  rw [List.map_map]
  refine List.map_congr_left fun row hrow => splitOn_digitLine ?_
  have hlength := fb.isGrid_rows.length_row row hrow
  have hpos := h.one_le_width
  exact List.ne_nil_of_length_pos (by omega)

theorem pbmLines_toPbm {lcd : PixelPanel} (h : lcd.frame.Sized) :
    lcd.frame.PbmLines lcd.toPbm (lcd.frame.rows.map digitLine) where
  ended := by
    rw [toList_toPbm, splitOn_ended]
    · rfl
    · intro line hline
      obtain rfl | hline := List.mem_cons.mp hline
      · decide
      · obtain rfl | hline := List.mem_cons.mp hline
        · exact not_mem_size _ _
        · obtain ⟨row, -, rfl⟩ := List.mem_map.mp hline
          exact not_mem_digitLine row
  digit := by
    intro line hline piece hpiece
    have hmem : line.splitOn ' ' ∈ lcd.frame.rows.map (·.map digits) := by
      rw [← splitOn_digitLines h]
      exact List.mem_map_of_mem hline
    obtain ⟨row, -, hrow⟩ := List.mem_map.mp hmem
    rw [← hrow] at hpiece
    obtain ⟨on, -, rfl⟩ := List.mem_map.mp hpiece
    cases on with
    | false => exact .inl rfl
    | true => exact .inr rfl
  shown := by
    rw [splitOn_digitLines h]
    exact shownBy_map_rows h digits (by decide)

theorem PbmLines.frame_eq (hlines : fb.PbmLines text lines) (h : fb.Sized)
    (hlines' : fb'.PbmLines text lines') (h' : fb'.Sized) : fb' = fb := by
  obtain rfl : lines' = lines := by
    have hsame := hlines'.ended.symm.trans hlines.ended
    rw [List.cons.injEq, List.cons.injEq] at hsame
    exact List.append_cancel_right hsame.2.2
  exact hlines.shown.frame_eq h hlines'.shown h'

/-! ## Bytes -/

/-- The bit of a pixel where each row takes whole bytes, the first pixel of a byte highest. -/
def bitAt? (width : Nat) (bytes : List UInt8) (x y : Nat) : Option Bool :=
  bytes[y * ((width + 7) / 8) + x / 8]?.map fun byte => byte.toNat.testBit (7 - x % 8)

/-- Bytes have a bit for each pixel, which is set where it is lit; the bits behind the end of each
row are not set, and there are no other bytes. -/
structure PackedBits (fb : FrameBuffer) (bytes : List UInt8) : Prop where
  length_eq : bytes.length = fb.height * ((fb.width + 7) / 8)
  lit_iff : ∀ x y : UInt32, x.toNat < fb.width → y.toNat < fb.height →
    (fb.pixel? x y = some true ↔ bitAt? fb.width bytes x.toNat y.toNat = some true)
  padding : ∀ x y, fb.width ≤ x → x < 8 * ((fb.width + 7) / 8) → y < fb.height →
    bitAt? fb.width bytes x y = some false

theorem bitAt?_toImageBytes {x y : Nat} (hx : x < 8 * ((fb.width + 7) / 8))
    (hy : y < fb.height) : bitAt? fb.width fb.toImageBytes x y = some (fb.isLit x y) := by
  have hbyte : x / 8 < bytesPerRow fb.width := by
    unfold bytesPerRow
    omega
  have hget : fb.toImageBytes[y * ((fb.width + 7) / 8) + x / 8]? = some (fb.byteAt (x / 8) y) :=
    getElem?_toImageBytes fb hy hbyte
  unfold bitAt?
  rw [hget, Option.map_some, testBit_byteAt fb _ _ (Nat.mod_lt x (by decide)), Nat.div_add_mod]

theorem packedBits_toImageBytes (h : fb.Sized) : fb.PackedBits fb.toImageBytes where
  length_eq := fb.length_toImageBytes
  lit_iff := by
    intro x y hx hy
    obtain ⟨on, hon⟩ := exists_get?_eq ⟨hx, hy⟩
    rw [bitAt?_toImageBytes (by omega) hy, pixel?_eq h, isLit, hon, Option.getD_some]
  padding := by
    intro x y hx hin hy
    rw [bitAt?_toImageBytes hin hy, fb.isLit_of_width_le hx]

theorem PackedBits.frame_eq (hbits : fb.PackedBits bytes) (h : fb.Sized)
    (hbits' : fb'.PackedBits bytes) (h' : fb'.Sized) (hwidth : fb'.width = fb.width) :
    fb' = fb := by
  have hheight : fb'.height = fb.height := by
    have hsame := hbits'.length_eq.symm.trans hbits.length_eq
    rw [hwidth] at hsame
    have hpos := h.one_le_width
    exact Nat.eq_of_mul_eq_mul_right (by omega) hsame
  refine eq_of_pixel? h h' ⟨hwidth, hheight⟩ ?_
  intro x y hx hy
  rw [hbits'.lit_iff x y (by omega) (by omega), hbits.lit_iff x y hx hy, hwidth]

end FrameBuffer

/-! ## All three -/

namespace PixelPanel

open FrameBuffer

/-- For every panel of pixels, whatever it shows: the text, the bitmap and the bytes of its frame have
a line or whole bytes for each row, and a pixel is lit exactly if its character is `#`, if its digit
is `1`, and if its bit is set. Bits that only fill up a row are not set, and outside there is no
pixel. All three are what comes of going through the stored pixels in pieces. Panels with the same
text have the same frame, and so have panels with the same bitmap, and panels of one width with the
same bytes. -/
theorem dumps_agree {lcd : PixelPanel} (h : lcd.frame.Sized) :
    (∃ lines, lcd.frame.AsciiLines lcd.toAscii lines) ∧
    (∃ lines, lcd.frame.PbmLines lcd.toPbm lines) ∧
    lcd.frame.PackedBits lcd.frame.toImageBytes ∧
    (∀ x y : UInt32, lcd.frame.pixel? x y = none ↔
      ¬(x.toNat < lcd.frame.width ∧ y.toNat < lcd.frame.height)) ∧
    (lcd.frame.asciiInChunks = lcd.toAscii ∧ lcd.frame.pbmInChunks = lcd.toPbm ∧
      lcd.frame.bytesInChunks = lcd.frame.toImageBytes) ∧
    ∀ lcd' : PixelPanel, lcd'.frame.Sized →
      (lcd'.toAscii = lcd.toAscii → lcd'.frame = lcd.frame) ∧
      (lcd'.toPbm = lcd.toPbm → lcd'.frame = lcd.frame) ∧
      (lcd'.frame.width = lcd.frame.width →
        lcd'.frame.toImageBytes = lcd.frame.toImageBytes → lcd'.frame = lcd.frame) := by
  have hascii := asciiLines_toAscii h
  have hpbm := pbmLines_toPbm h
  have hbytes := packedBits_toImageBytes h
  refine ⟨⟨_, hascii⟩, ⟨_, hpbm⟩, hbytes, fun _ _ => pixel?_eq_none_iff h,
    ⟨asciiInChunks_eq h.one_le_width, pbmInChunks_eq h.one_le_width,
      bytesInChunks_eq h.one_le_width⟩, ?_⟩
  intro lcd' h'
  refine ⟨?_, ?_, ?_⟩
  · intro hsame
    exact hascii.frame_eq h (hsame ▸ asciiLines_toAscii h') h'
  · intro hsame
    exact hpbm.frame_eq h (hsame ▸ pbmLines_toPbm h') h'
  · intro hwidth hsame
    exact hbytes.frame_eq h (hsame ▸ packedBits_toImageBytes h') h' hwidth

/-- A frame of nine columns, whose rows take two bytes each, and a dark one of the same size. -/
theorem dumps_agree_nine :
    let lcd : PixelPanel := ⟨((filled 9 2 false).set 0 0 true).set 8 1 true, [], true, 0⟩
    let dark : PixelPanel := ⟨filled 9 2 false, [], true, 0⟩
    lcd.frame.Sized ∧ dark.frame.Sized ∧
      (∃ lines, lcd.toAscii.toList.splitOn '\n' = lines ++ [[]] ∧
        entryAt? lines 0 0 = some '#' ∧ entryAt? lines 0 1 ≠ some '#') ∧
      (∃ lines, lcd.frame.PbmLines lcd.toPbm lines ∧
        entryAt? (lines.map (·.splitOn ' ')) 8 1 = some ['1']) ∧
      lcd.frame.toImageBytes = [0x80, 0x00, 0x00, 0x80] ∧
      bitAt? 9 lcd.frame.toImageBytes 8 1 = some true ∧
      bitAt? 9 lcd.frame.toImageBytes 9 1 = some false ∧
      lcd.frame.pixel? 0 0xFFFFFFFF = none ∧
      lcd.frame.bytesInChunks = lcd.frame.toImageBytes ∧ dark.toAscii ≠ lcd.toAscii := by
  intro lcd dark
  have hlcd : lcd.frame.Sized := by constructor <;> decide
  have hdark : dark.frame.Sized := by constructor <;> decide
  obtain ⟨⟨lines, hascii⟩, ⟨lines', hpbm⟩, hbytes, hnone, ⟨-, -, hchunks⟩, hunique⟩ :=
    dumps_agree hlcd
  refine ⟨hlcd, hdark, ⟨lines, hascii.ended, (hascii.shown.lit_iff 0 0).mp (by decide),
    mt (hascii.shown.lit_iff 0 1).mpr (by decide)⟩,
    ⟨lines', hpbm, (hpbm.shown.lit_iff 8 1).mp (by decide)⟩, by decide,
    (hbytes.lit_iff 8 1 (by decide) (by decide)).mp (by decide),
    hbytes.padding 9 1 (by decide) (by decide) (by decide),
    (hnone 0 0xFFFFFFFF).mpr (by decide), hchunks, ?_⟩
  exact mt (hunique dark hdark).1 (by decide)

end PixelPanel
end MidiPanel
