import MidiPanel.Overlay.Basic
import MidiPanel.Proofs.Text.Ascii

/-!
# The text of a message buffer

Whatever has been written into a message buffer is ASCII, so that the text of the buffer is the
whole buffer, one character for each code. A message shows the first twenty characters of its text,
a spinner message the first 18, padded, and behind a gap the glyph of the frame.

Results:
* `IsText.text_eq`, `IsText.utf8ByteSize_le`: the text is the whole buffer, twenty bytes at most.
* `text_setText`, `text_setSpinnerText`: what is shown of a text.
* `setGlyph_setSpinnerText`, `cells_setSpinnerText`: a glyph takes the place of the one before.
-/

namespace MidiPanel

namespace MessageBuffer

/-- The character shown for one of a text: itself, or a question mark beyond ASCII. -/
def shownChar (c : Char) : Char := if c.toNat < 0x80 then c else '?'

/-- What a plain message shows of a text. -/
def messageLine (text : String) : String := String.ofList ((text.toList.take 20).map shownChar)

/-- What a spinner message shows of a text in one of its frames. -/
def spinnerLine (text : String) (frame : Fin 14) : String :=
  String.ofList (((text.toList.take 18).map shownChar).rightpad 18 ' ' ++
    [' ', Char.ofNat (spinnerGlyphs.get frame).toNat])

example : String.ofList (spinnerGlyphs.toList.map fun glyph => Char.ofNat glyph.toNat) =
    "___-''^^``-___" := by decide +kernel

/-- Every code is ASCII, and there are no more than fit. -/
structure IsText (b : MessageBuffer) : Prop where
  ascii : ∀ code ∈ b.cells, code < 0x80
  length : b.cells.length ≤ capacity

/-! ## The whole buffer -/

theorem text_of_ascii {b : MessageBuffer} (h : ∀ code ∈ b.cells, code < 0x80) :
    b.text = String.ofList (b.cells.map fun code => Char.ofNat code.toNat) := by
  unfold text
  rw [if_pos]
  rw [List.all_eq_true]
  intro code hcode
  exact decide_eq_true (h code hcode)

theorem IsText.text_eq {b : MessageBuffer} (h : b.IsText) :
    b.text = String.ofList (b.cells.map fun code => Char.ofNat code.toNat) :=
  text_of_ascii h.ascii

theorem IsText.toNat_lt {b : MessageBuffer} (h : b.IsText) {c : Char} (hc : c ∈ b.text.toList) :
    c.toNat < 128 := by
  rw [h.text_eq, String.toList_ofList] at hc
  obtain ⟨code, hcode, rfl⟩ := List.mem_map.mp hc
  have hlt : code < 0x80 := h.ascii code hcode
  rw [toNat_ofNat_of_ascii hlt]
  exact hlt

theorem IsText.utf8ByteSize_le {b : MessageBuffer} (h : b.IsText) : b.text.utf8ByteSize ≤ 20 := by
  have hascii : ∀ c ∈ b.text.toList, c.toNat < 128 := fun c hc => h.toNat_lt hc
  rw [h.text_eq, String.toList_ofList] at hascii
  rw [h.text_eq, String.utf8ByteSize_ofList, utf8Len_of_ascii hascii, List.length_map]
  exact h.length

/-! ## Codes -/

theorem codeOf_lt (c : Char) : codeOf c < 0x80 := by
  unfold codeOf
  split
  next h =>
    show (UInt8.ofNat c.toNat).toNat < 128
    rw [UInt8.toNat_ofNat']
    omega
  next => decide

theorem ofNat_codeOf (c : Char) : Char.ofNat (codeOf c).toNat = shownChar c := by
  unfold codeOf shownChar
  split
  next h =>
    rw [UInt8.toNat_ofNat', Nat.mod_eq_of_lt (by omega)]
    exact Char.ofNat_toNat c
  next => rfl

theorem spinnerGlyphs_lt (frame : Fin 14) : spinnerGlyphs.get frame < 0x80 := by
  revert frame
  decide

/-! ## Writing -/

theorem isText_empty : IsText .empty := ⟨by simp [empty], by simp [empty]⟩

theorem isText_setText (text : String) : IsText (.setText text) := by
  refine ⟨?_, length_setText text⟩
  intro code hcode
  obtain ⟨c, -, rfl⟩ := List.mem_map.mp hcode
  exact codeOf_lt c

theorem isText_setSpinnerText (text : String) {glyph : UInt8} (h : glyph < 0x80) :
    IsText (.setSpinnerText text glyph) := by
  refine ⟨?_, (length_setSpinnerText text glyph).le⟩
  intro code hcode
  simp only [setSpinnerText, List.mem_append, List.mem_map, List.mem_replicate, List.mem_cons,
    List.not_mem_nil, or_false] at hcode
  rcases hcode with (⟨c, -, rfl⟩ | ⟨-, rfl⟩) | rfl | rfl
  · exact codeOf_lt c
  · decide
  · decide
  · exact h

theorem text_setText (text : String) : (setText text).text = messageLine text := by
  rw [(isText_setText text).text_eq]
  unfold setText messageLine
  simp only [List.map_map, capacity]
  congr 2
  funext c
  exact ofNat_codeOf c

theorem text_setSpinnerText (text : String) (frame : Fin 14) :
    (setSpinnerText text (spinnerGlyphs.get frame)).text = spinnerLine text frame := by
  rw [(isText_setSpinnerText text (spinnerGlyphs_lt frame)).text_eq]
  have hchars : (((text.toList.take 18).map codeOf).map fun code => Char.ofNat code.toNat) =
      (text.toList.take 18).map shownChar := by
    rw [List.map_map]
    congr 1
    funext c
    exact ofNat_codeOf c
  unfold setSpinnerText spinnerLine
  simp only [spinnerTextWidth, capacity, List.map_append, List.map_replicate, List.map_cons,
    List.map_nil, List.rightpad, List.length_map] at hchars ⊢
  rw [hchars]
  rfl

/-- A glyph takes the place of the one before and leaves the text alone. -/
theorem setGlyph_setSpinnerText (text : String) (glyph glyph' : UInt8) :
    (setSpinnerText text glyph).setGlyph glyph' = setSpinnerText text glyph' := by
  have hlength := length_setSpinnerText text glyph
  unfold setSpinnerText setGlyph at *
  dsimp only at *
  generalize hcodes : (text.toList.take spinnerTextWidth).map codeOf = codes at *
  generalize hcells : codes ++ List.replicate (spinnerTextWidth - codes.length) 0x20 = cells at *
  have hlen : cells.length = capacity - 2 := by
    simp only [List.length_append, List.length_cons, List.length_nil] at hlength
    omega
  rw [List.set_append_right _ _ (by unfold capacity at *; omega), hlen]
  rfl

/-- All cells but the last are the same with any two glyphs. -/
theorem cells_setSpinnerText (text : String) (glyph glyph' : UInt8) :
    (setSpinnerText text glyph').cells = (setSpinnerText text glyph).cells.take 19 ++ [glyph'] := by
  have hlength : (setSpinnerText text glyph).cells.length = 20 := length_setSpinnerText text glyph
  rw [← setGlyph_setSpinnerText text glyph glyph']
  show (setSpinnerText text glyph).cells.set 19 glyph' = _
  rw [List.set_eq_take_append_cons_drop, if_pos (by omega), List.drop_eq_nil_of_le (by omega)]

end MessageBuffer

end MidiPanel
