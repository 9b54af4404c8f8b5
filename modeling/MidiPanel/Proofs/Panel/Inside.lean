import MidiPanel.Proofs.Meter.Fitting
import MidiPanel.Proofs.Panel.Reached
import MidiPanel.Settings.Basic

/-!
# What is drawn lies on the panel

A meter over the whole of a panel stays on it, whatever levels it shows and however it is shifted
sideways, spaced and divided: bars end on the lowest line and are no higher than the panel, and the
meter ends before the first bar that would cross the right edge. Overlays print in lines that the
panel has, or draw an image over all of it. So the only thing that a frame can be refused for is an
image that the panel does not know. If the geometry of the meter does not fit in words, a frame that
shows the meter overflows, and any other does not.

**Deviation.** On pixel panels the text of an overlay goes to the second row of cells, unless the
panel is 32 pixels high. A panel of at most 16 pixels has no second row: the text lies below it, and
all of it is cut off. That is no fault.

Results:
* `Meter.inside_of_mem_callsOf`: the rectangles of the meter.
* `Status.exists_print_of_mem_calls`, `Status.insideOrBelow_calls`: the calls of overlays.
* `refresh_inside`: what frames fail for, and where they draw.
* `text_below_panel`: a message that lies below its panel.
-/

namespace MidiPanel

/-- A call lies within a panel of this kind and size: a rectangle with all its corners, text with
the upper left corner of the cell in which it starts. -/
def Call.Inside (kind : PanelKind) (width height : Nat) : Call → Prop
  | .print _ column row _ =>
    match kind with
    | .graphical => column * PixelPanel.cellWidth < width ∧ row * PixelPanel.cellHeight < height
    | .character => column < width ∧ row < height
  | .fillRect x₁ y₁ x₂ y₂ => max x₁ x₂ < width ∧ max y₁ y₂ < height
  | _ => True

/-- A call lies within a pixel panel of this size, or prints to the second row of cells of a panel
that has one row only. -/
def Call.InsideOrBelow (width height : Nat) (call : Call) : Prop :=
  call.Inside .graphical width height ∨
    (height ≤ PixelPanel.cellHeight ∧ ∃ text, call = .print text 0 1 true)

/-! ## The meter -/

namespace Meter

variable {layout : MeterLayout} {call : Call} {levels : List Single} {channels : Nat}

/-- A bar is drawn once its height has been taken from that of the meter, so it is no higher. -/
theorem inside_of_mem_callsOf {panelWidth : Nat} {peaks : List Single}
    (hoffset : layout.yOffset = 0)
    (h : call ∈ Stroke.callsOf (strokes .graphical panelWidth layout levels peaks channels)) :
    call.Inside .graphical panelWidth layout.barHeight := by
  obtain ⟨stroke, hstroke, hfits, hcall⟩ := Stroke.exists_of_mem_callsOf h
  rcases List.mem_cons.mp hstroke with rfl | hstroke
  · cases hcall
  · obtain hnone | ⟨hpos, left, right, hle, hright, level, extent, hextent, hnumber, hbar⟩ :=
      isBar_of_mem_pixelStrokes hstroke
    · rw [hnone] at hcall
      cases hcall
    · have hheight := (Stroke.isWord_of_fits hfits hnumber).1
      rw [hbar] at hcall
      rw [List.mem_singleton.mp hcall]
      refine ⟨?_, ?_⟩ <;> omega

end Meter

/-! ## Overlays -/

namespace Status

variable {s : Status} {call : Call}

/-- The lines of an overlay on a character panel. -/
theorem exists_print_of_mem_calls {rows : Nat} (h : call ∈ s.calls .character rows) :
    ∃ text row, row < rows ∧ call = .print text 0 row true := by
  cases hs : s.overlay with
  | idle | image =>
    simp only [calls, hs] at h
    cases h
  | message | spinner | enteringPowerSaving | inPowerSaving =>
    simp only [calls, hs] at h
    split at h
    · simp only [List.mem_cons, List.not_mem_nil, or_false] at h
      obtain rfl | rfl := h <;> exact ⟨_, _, by decide, rfl⟩
    · simp only [List.mem_cons, List.not_mem_nil, or_false] at h
      obtain rfl | rfl | rfl | rfl := h <;> exact ⟨_, _, by decide, rfl⟩
    · cases h

theorem insideOrBelow_calls {width height : Nat} (hwidth : 0 < width)
    (h : call ∈ s.calls .graphical height) : call.InsideOrBelow width height := by
  cases hs : s.overlay with
  | idle =>
    simp only [calls, hs] at h
    cases h
  | image id =>
    simp only [calls, hs, List.mem_singleton] at h
    rw [h]
    exact .inl trivial
  | message | spinner | enteringPowerSaving | inPowerSaving =>
    simp only [calls, hs, List.mem_singleton] at h
    by_cases hbelow : height ≤ PixelPanel.cellHeight
    · have hrow : height ≠ 32 := by
        intro hrow
        rw [hrow] at hbelow
        exact absurd hbelow (by decide)
      rw [if_neg hrow] at h
      exact .inr ⟨hbelow, _, h⟩
    · rw [h]
      refine .inl ⟨?_, ?_⟩
      · omega
      · unfold PixelPanel.cellHeight at hbelow ⊢
        split <;> omega

theorem overlay_of_drawImage_mem {kind : PanelKind} {height : Nat} {id : ImageId}
    (h : .drawImage id ∈ s.calls kind height) : s.overlay = .image id := by
  cases hs : s.overlay with
  | image id' =>
    cases kind with
    | graphical =>
      simp only [calls, hs, List.mem_singleton, Call.drawImage.injEq] at h
      rw [h]
    | character =>
      simp only [calls, hs] at h
      cases h
  | idle =>
    simp only [calls, hs] at h
    cases h
  | message | spinner | enteringPowerSaving | inPowerSaving =>
    cases kind with
    | graphical =>
      simp only [calls, hs, List.mem_singleton] at h
      cases h
    | character =>
      simp only [calls, hs] at h
      split at h <;> simp at h

end Status

/-! ## The panels -/

namespace PixelPanel

theorem exists_perform {lcd : PixelPanel} {call : Call}
    (h : call.InsideOrBelow lcd.frame.width lcd.frame.height)
    (himage : ∀ id, call = .drawImage id → lcd.images.lookup id ≠ none) :
    ∃ lcd', Surface.perform lcd call = .ok lcd' := by
  cases call with
  | fillRect x₁ y₁ x₂ y₂ =>
    obtain ⟨hright, hbottom⟩ | ⟨-, text, hprint⟩ := h
    · have hin : ¬(lcd.frame.width ≤ max x₁ x₂ ∨ lcd.frame.height ≤ max y₁ y₂) := by omega
      exact ⟨_, if_neg hin⟩
    · cases hprint
  | drawImage id =>
    obtain ⟨bitmap, hbitmap⟩ := Option.ne_none_iff_exists'.mp (himage id rfl)
    refine ⟨{ lcd with frame := drawBitmap lcd.frame bitmap }, ?_⟩
    show lcd.perform (.drawImage id) = _
    simp only [perform, hbitmap]
  | print | setBacklight | clear | flush => exact ⟨_, rfl⟩

/-- A rectangle below the frame is not painted. -/
theorem paint_of_below {fb : FrameBuffer} {area : Rect} (h : (fb.height : Int) ≤ area.top)
    (color : Nat → Nat → Bool) : fb.paint area color = fb := by
  have hnone : FrameBuffer.clipped area.top area.height fb.height = [] := by
    unfold FrameBuffer.clipped
    rw [show min (area.top + area.height).toNat fb.height - area.top.toNat = 0 by omega]
    rfl
  unfold FrameBuffer.paint
  rw [hnone]
  rfl

theorem drawLine_of_below {fb : FrameBuffer} {top : Int} (h : (fb.height : Int) ≤ top) (left : Int)
    (line : List Char) : drawLine fb left top line = fb := by
  induction line generalizing left with
  | nil => rfl
  | cons c line ih =>
    unfold drawLine
    rw [paint_of_below h]
    exact ih _

theorem drawLines_of_below {fb : FrameBuffer} {top : Int} (h : (fb.height : Int) ≤ top) (left : Int)
    (lines : List (List Char)) : drawLines fb left top lines = fb := by
  induction lines generalizing top with
  | nil => rfl
  | cons line lines ih =>
    unfold drawLines
    rw [drawLine_of_below h]
    exact ih (by omega)

/-- Text in the second row of cells of a panel that has one row only leaves no mark. -/
theorem perform_print_below {lcd : PixelPanel} (h : lcd.frame.height ≤ cellHeight) (text : String) :
    Surface.perform lcd (.print text 0 1 true) = .ok lcd := by
  have htop : (lcd.frame.height : Int) ≤ cellOrigin 1 cellHeight := by
    rw [show cellOrigin 1 cellHeight = (cellHeight : Int) by decide]
    exact_mod_cast h
  have hframe : printText lcd.frame text 0 1 true = lcd.frame := by
    unfold printText FrameBuffer.fill
    dsimp only
    rw [if_pos rfl, paint_of_below htop, drawLines_of_below htop]
  exact congrArg (fun frame => Except.ok { lcd with frame := frame }) hframe

end PixelPanel

/-! ## Frames -/

namespace Panel

variable {p : Panel} {now : Tick}

theorem inside_of_mem_openingCalls {kind : PanelKind} {width height : Nat} {call : Call}
    (h : call ∈ p.openingCalls now) : call.Inside kind width height := by
  have hopening := isOpening_of_mem_openingCalls h
  cases call with
  | clear | setBacklight => trivial
  | print | fillRect | drawImage | flush => cases hopening

/-- A meter over the whole of a panel ends on a line whose number fits in a word. -/
theorem layout_le {height : Nat} (hoffset : p.layout.yOffset = 0)
    (hbar : p.layout.barHeight = height) (h : height ≤ 2 ^ 24) :
    p.layout.yOffset + p.layout.barHeight ≤ UInt32.size := by
  rw [hoffset, hbar, Nat.zero_add]
  exact h.trans (by decide)

theorem run_opening_pixels (lcd : PixelPanel) :
    (Surface.run lcd (p.openingCalls now)).2 = none := by
  refine Framed.run_of_performs fun call hcall => PixelPanel.exists_perform
    (.inl (inside_of_mem_openingCalls hcall)) ?_
  rintro id rfl
  cases isOpening_of_mem_openingCalls hcall

section Pixels

variable {lcd : PixelPanel}

theorem fault_refresh_of_unknown {id : ImageId}
    (hoverlay : (p.status.afterTimers now).overlay = .image id)
    (hlookup : lcd.images.lookup id = none) :
    (p.refresh lcd now).fault = some (.unknownImage id) := by
  have hfits : p.frameFault lcd now = none := by
    unfold frameFault bodyFault
    rw [hoverlay]
    rfl
  have hcalls : p.frameCalls lcd now = [.drawImage id, .flush] := by
    rw [frameCalls_of_fits hfits]
    unfold bodyCalls Status.calls
    dsimp only
    rw [hoverlay]
    rfl
  have hrefused : Surface.perform lcd (.drawImage id) = .error (.unknownImage id) := by
    show lcd.perform (.drawImage id) = _
    simp only [PixelPanel.perform, hlookup]
  rw [fault_refresh (run_opening_pixels lcd), hcalls, Surface.run, hrefused]
  rfl

variable (hwidth : 0 < lcd.frame.width)
  (hoffset : p.layout.yOffset = 0) (hbar : p.layout.barHeight = lcd.frame.height)

include hwidth hoffset hbar

theorem insideOrBelow_of_mem_frameCalls {call : Call} (h : call ∈ p.frameCalls lcd now) :
    call.InsideOrBelow lcd.frame.width lcd.frame.height ∧
      ∀ id, call = .drawImage id → (p.status.afterTimers now).overlay = .image id := by
  rcases mem_frameCalls h with hbody | rfl
  · unfold bodyCalls at hbody
    dsimp only at hbody
    split at hbody
    next =>
      have hinside := Meter.inside_of_mem_callsOf hoffset hbody
      have hmeter := isMeter_of_mem_callsOf hbody
      rw [hbar] at hinside
      refine ⟨.inl hinside, ?_⟩
      rintro id rfl
      cases hmeter
    next =>
      refine ⟨Status.insideOrBelow_calls hwidth hbody, ?_⟩
      rintro id rfl
      exact Status.overlay_of_drawImage_mem hbody
  · exact ⟨.inl trivial, fun id himage => Call.noConfusion himage⟩

/-- A frame that is not refused an image is refused nothing. -/
theorem fault_refresh_of_known (hknown : ∀ id, (p.status.afterTimers now).overlay = .image id →
    lcd.images.lookup id ≠ none) : (p.refresh lcd now).fault = p.frameFault lcd now := by
  have hperforms : (Surface.run lcd (p.frameCalls lcd now)).2 = none := by
    refine Framed.run_of_performs fun call hcall => ?_
    obtain ⟨hinside, himage⟩ := insideOrBelow_of_mem_frameCalls hwidth hoffset hbar hcall
    exact PixelPanel.exists_perform hinside fun id hid => hknown id (himage id hid)
  rw [fault_refresh (run_opening_pixels lcd), hperforms, Option.none_or]

theorem fault_refresh_pixels (hheight : lcd.frame.height ≤ 2 ^ 24) (fault : Fault) :
    (p.refresh lcd now).fault = some fault ↔
      (∃ id, (p.status.afterTimers now).overlay = .image id ∧ lcd.images.lookup id = none ∧
        fault = .unknownImage id) ∨
      ((p.status.afterTimers now).overlay = .idle ∧
        ¬Meter.PixelsFit p.layout lcd.frame.width (min p.channels 16) ∧ fault = .overflow) := by
  by_cases hunknown : ∃ id, (p.status.afterTimers now).overlay = .image id ∧
      lcd.images.lookup id = none
  · obtain ⟨id, hoverlay, hlookup⟩ := hunknown
    rw [fault_refresh_of_unknown hoverlay hlookup, hoverlay, Option.some.injEq]
    constructor
    · rintro rfl
      exact .inl ⟨id, rfl, hlookup, rfl⟩
    · rintro (⟨id', hsame, -, rfl⟩ | ⟨hidle, -⟩)
      · cases hsame
        rfl
      · cases hidle
  · have hknown (id : ImageId) (hoverlay : (p.status.afterTimers now).overlay = .image id) :
        lcd.images.lookup id ≠ none := fun hlookup => hunknown ⟨id, hoverlay, hlookup⟩
    have hnone : ¬∃ id, (p.status.afterTimers now).overlay = .image id ∧
        lcd.images.lookup id = none ∧ fault = .unknownImage id :=
      fun ⟨id, hoverlay, hlookup, _⟩ => hknown id hoverlay hlookup
    rw [fault_refresh_of_known hwidth hoffset hbar hknown, frameFault_eq_some_iff,
      or_iff_right hnone]
    exact and_congr_right fun _ => and_congr_left fun _ => not_congr <|
      Meter.pixelsFit_iff (hbar.trans_le hheight) (layout_le hoffset hbar hheight) (by simp)

end Pixels

section Cells

variable {lcd : CellPanel} (hcolumns : 0 < lcd.columns) (hoffset : p.layout.yOffset = 0)
  (hbar : p.layout.barHeight = lcd.rows)

include hoffset hbar in
theorem exists_print_of_mem_frameCalls {call : Call} (h : call ∈ p.frameCalls lcd now) :
    call = .flush ∨ ∃ text row clearRest, row < lcd.rows ∧ call = .print text 0 row clearRest := by
  rcases mem_frameCalls h with hbody | rfl
  · unfold bodyCalls at hbody
    dsimp only at hbody
    split at hbody
    next =>
      obtain ⟨stroke, hstroke, -, hcall⟩ := Stroke.exists_of_mem_callsOf hbody
      obtain hnone | ⟨text, row, hrow, hprint⟩ := Meter.exists_of_mem_cellStrokes hstroke
      · rw [hnone] at hcall
        cases hcall
      · rw [hprint] at hcall
        exact .inr ⟨text, _, false, by omega, List.mem_singleton.mp hcall⟩
    next =>
      obtain ⟨text, row, hrow, hcall⟩ := Status.exists_print_of_mem_calls hbody
      exact .inr ⟨text, row, true, hrow, hcall⟩
  · exact .inl rfl

include hcolumns hoffset hbar

theorem fault_refresh_cells (hrows : lcd.rows ≤ 2 ^ 24) (fault : Fault) :
    (p.refresh lcd now).fault = some fault ↔
      (p.status.afterTimers now).overlay = .idle ∧
        ¬Meter.CellsFit p.layout lcd.columns (min p.channels 16) ∧ fault = .overflow := by
  have hopening : (Surface.run lcd (p.openingCalls now)).2 = none := by
    refine Framed.run_of_performs fun call hcall => ?_
    have hopens := isOpening_of_mem_openingCalls hcall
    cases call with
    | clear | setBacklight => exact ⟨_, rfl⟩
    | print | fillRect | drawImage | flush => cases hopens
  have hperforms : (Surface.run lcd (p.frameCalls lcd now)).2 = none := by
    refine Framed.run_of_performs fun call hcall => ?_
    obtain rfl | ⟨text, row, clearRest, hrow, rfl⟩ :=
      exists_print_of_mem_frameCalls hoffset hbar hcall
    · exact ⟨_, rfl⟩
    · exact ⟨_, dif_pos ⟨hrow, hcolumns⟩⟩
  rw [fault_refresh hopening, hperforms, Option.none_or, frameFault_eq_some_iff]
  refine and_congr_right fun _ => and_congr_left fun _ => not_congr ?_
  unfold meterStrokes
  exact Meter.cellsFit_iff (hbar.trans_le hrows) (layout_le hoffset hbar hrows) (by simp)

end Cells

/-- Frames of every panel whose meter is laid out over the whole of a surface, as settings have it:
if the geometry of the meter fits in words, a frame fails on a pixel panel exactly for an image that
the panel does not know, and on a character panel never. If it does not fit, a frame that shows the
meter overflows. Where a frame draws is on the panel, but for text in a second row of cells that the
panel does not have; such text is cut off. -/
theorem refresh_inside (d : DisplaySettings) (envelope : EnvelopeTimings)
    (overlay : OverlayTimings) (channels : Nat) (p : Panel) (now : Tick) :
    (∀ lcd : PixelPanel, 0 < lcd.frame.width → lcd.frame.height ≤ 2 ^ 24 →
      p.Reached envelope overlay (d.meterLayout (.forSurface lcd)) channels →
      (∀ fault, (p.refresh lcd now).fault = some fault ↔
        (∃ id, (p.status.afterTimers now).overlay = .image id ∧ lcd.images.lookup id = none ∧
          fault = .unknownImage id) ∨
        ((p.status.afterTimers now).overlay = .idle ∧
          ¬Meter.PixelsFit p.layout lcd.frame.width (min p.channels 16) ∧ fault = .overflow)) ∧
      (∀ call ∈ (p.refresh (⟨lcd, []⟩ : Traced PixelPanel) now).calls,
        call.InsideOrBelow lcd.frame.width lcd.frame.height) ∧
      (lcd.frame.height ≤ PixelPanel.cellHeight → ∀ text,
        Surface.perform lcd (.print text 0 1 true) = .ok lcd)) ∧
    (∀ lcd : CellPanel, 0 < lcd.columns →
      p.Reached envelope overlay (d.meterLayout (.forSurface lcd)) channels →
      (lcd.rows ≤ 2 ^ 24 → ∀ fault, (p.refresh lcd now).fault = some fault ↔
        (p.status.afterTimers now).overlay = .idle ∧
          ¬Meter.CellsFit p.layout lcd.columns (min p.channels 16) ∧ fault = .overflow) ∧
      ∀ call ∈ (p.refresh (⟨lcd, []⟩ : Traced CellPanel) now).calls,
        call.Inside .character lcd.columns lcd.rows) := by
  constructor
  · intro lcd hwidth hheight hreached
    have hlayout : p.layout = d.meterLayout (.forSurface lcd) :=
      congrArg Fittings.layout hreached.fittings_eq
    have hoffset : p.layout.yOffset = 0 := congrArg MeterLayout.yOffset hlayout
    have hbar : p.layout.barHeight = lcd.frame.height := congrArg MeterLayout.barHeight hlayout
    refine ⟨fault_refresh_pixels hwidth hoffset hbar hheight, ?_, PixelPanel.perform_print_below⟩
    intro call hcall
    rcases mem_calls_refresh hcall with hopening | hframe
    · exact .inl (inside_of_mem_openingCalls hopening)
    · exact (insideOrBelow_of_mem_frameCalls hwidth hoffset hbar hframe).1
  · intro lcd hcolumns hreached
    have hlayout : p.layout = d.meterLayout (.forSurface lcd) :=
      congrArg Fittings.layout hreached.fittings_eq
    have hoffset : p.layout.yOffset = 0 := congrArg MeterLayout.yOffset hlayout
    have hbar : p.layout.barHeight = lcd.rows := congrArg MeterLayout.barHeight hlayout
    refine ⟨fault_refresh_cells hcolumns hoffset hbar, ?_⟩
    intro call hcall
    rcases mem_calls_refresh hcall with hopening | hframe
    · exact inside_of_mem_openingCalls hopening
    · obtain rfl | ⟨text, row, clearRest, hrow, rfl⟩ :=
        exists_print_of_mem_frameCalls hoffset hbar hframe
      · trivial
      · exact ⟨hcolumns, hrow⟩

/-- An image that was never registered. -/
theorem refresh_inside_unknown :
    let lcd : PixelPanel := ⟨.filled 128 32 false, [], true, 0⟩
    let p := ((forSurface lcd).drive lcd (.operation (.showImage 7 0))).state
    (p.refresh lcd 0).fault = some (.unknownImage 7) ∧
      ∀ call ∈ (p.refresh (⟨lcd, []⟩ : Traced PixelPanel) 0).calls,
        call.InsideOrBelow 128 32 := by
  intro lcd p
  have hreached : p.Reached .standard .standard
      (DisplaySettings.unset.meterLayout (.forSurface lcd)) 16 := .drive .new lcd _
  obtain ⟨hfault, hinside, -⟩ := (refresh_inside .unset .standard .standard 16 p 0).1 lcd
    (by decide) (by decide) hreached
  exact ⟨(hfault _).mpr (.inl ⟨7, by decide +kernel, rfl, rfl⟩), hinside⟩

/-- Text below its panel: a message on a panel that has one row of cells only. -/
theorem text_below_panel :
    let lcd : PixelPanel := ⟨.filled 128 16 false, [], true, 0⟩
    let p := ((forSurface lcd).drive lcd (.operation (.showMessage "Hello" false 0))).state
    PixelPanel.new 128 16 = .ok lcd ∧
      p.Reached .standard .standard (DisplaySettings.unset.meterLayout (.forSurface lcd)) 16 ∧
      (p.refresh lcd 0).fault = none ∧
      .print "Hello" 0 1 true ∈ (p.refresh (⟨lcd, []⟩ : Traced PixelPanel) 0).calls ∧
      ¬(Call.print "Hello" 0 1 true).Inside .graphical 128 16 := by
  intro lcd p
  refine ⟨rfl, .drive .new lcd _, by decide +kernel, by decide +kernel, ?_⟩
  rintro ⟨-, hrow⟩
  exact absurd hrow (by decide)

end Panel
end MidiPanel
