import MidiPanel.Proofs.Meter.Cells
import MidiPanel.Replay

/-!
# When building and drawing overflow

A drawing is given up at the first sum, product or difference that no word of 32 bits holds. For the
panels that settings describe this comes down to a few numbers: the cells of a character panel, the
gaps between bars and, of every bar up to the first that crosses the right edge, where it stands. In
meters of more than `2 ^ 24` rows a level may also be rounded up past the top of the meter.

**Deviation.** Bars past the right edge are to be left out, and gaps that take the whole panel leave
bars without a width. Settings are accepted without any look at these numbers, though: sixteen gaps
of `2 ^ 28` pixels come to `2 ^ 32`, and where nothing should be drawn the drawing overflows.

Results:
* `faultOf_pixels_iff`, `faultOf_cells_iff`: what has to fit for one meter.
* `drawing_fits_iff`: what has to fit for the panels that settings describe.
* `gaps_fill_word`: accepted settings under which it does not fit.
-/

namespace MidiPanel

namespace Meter

/-- What holds of the first levels of a monitor holds of its first channels. -/
theorem forall_level_iff {readings : Vector Reading 16} {channels : Nat} (hchannels : channels ≤ 16)
    {P : Nat → Single → Prop} :
    (∀ c level, ((readings.toList.map Reading.level).take channels)[c]? = some level → P c level) ↔
      ∀ channel : Channel, channel.val < channels → P channel (readings.get channel).level := by
  have hexists : (∃ c level, ((readings.toList.map Reading.level).take channels)[c]? = some level ∧
      ¬P c level) ↔ ∃ channel : Channel, channel.val < channels ∧
        ¬P channel (readings.get channel).level := exists_level_iff hchannels
  simpa only [not_exists, not_and, not_not] using not_congr hexists

end Meter

/-! ## Panels -/

namespace PixelPanel

theorem new_ne_overflow (width height : Nat) : PixelPanel.new width height ≠ .error .overflow := by
  unfold PixelPanel.new
  split <;> simp

end PixelPanel

namespace CellPanel

theorem new_eq_overflow_iff {columns rows : Nat} :
    CellPanel.new columns rows = .error .overflow ↔
      0 < columns ∧ 0 < rows ∧ UInt32.size ≤ columns * rows := by
  unfold CellPanel.new
  split
  next hempty => exact iff_of_false (by simp) (by omega)
  next hcells =>
    split
    next hsize => exact iff_of_true rfl ⟨by omega, by omega, hsize⟩
    next hsize => exact iff_of_false (by simp) fun h => hsize h.2.2

end CellPanel

/-! ## Meters -/

namespace Panel

open Meter

section

variable (p : Panel) (hoffset : p.layout.yOffset = 0) (now : Tick)

include hoffset

/-- A meter over the whole height of a panel is drawn, or overflows. -/
theorem fault_drawLevels_pixels {lcd : PixelPanel} (hbar : p.layout.barHeight = lcd.frame.height) :
    (p.drawLevels lcd p.layout p.channels now).fault =
      Stroke.faultOf (p.meterStrokes .graphical lcd.frame.width now) :=
  fault_draw_pixels hoffset hbar _ _ _

theorem fault_drawLevels_cells {lcd : CellPanel} (hbar : p.layout.barHeight = lcd.rows)
    (hcolumns : 0 < lcd.columns) :
    (p.drawLevels lcd p.layout p.channels now).fault =
      Stroke.faultOf (p.meterStrokes .character lcd.columns now) :=
  fault_draw_cells hcolumns hoffset hbar _ _ _

variable (hchannels : p.channels ≤ 16) (hlast : p.layout.barHeight < UInt32.size)

include hchannels hlast

theorem faultOf_pixels_iff {columns : Nat} (hcolumns : columns < UInt32.size)
    (hpos : 0 < p.layout.barHeight) :
    let readings := (p.monitor.query now).1
    let width := barWidth columns p.channels p.layout.barSpacing
    let behind (channel : Nat) :=
      p.layout.xOffset + channel * (width + p.layout.barSpacing) + width
    let top := p.layout.barHeight - 1
    Stroke.faultOf (p.meterStrokes .graphical columns now) = none ↔
      p.channels * p.layout.barSpacing < UInt32.size ∧
        ∀ channel : Channel, channel.val < p.channels → 0 < width →
          (∀ earlier < channel.val, behind earlier ≤ columns) →
            behind channel < UInt32.size ∧ (behind channel ≤ columns →
              pixelHeight (readings.get channel).level top ≤ top ∧
                pixelHeight (readings.get channel).peak top ≤ top) := by
  intro readings width behind top
  rw [Stroke.faultOf_eq_none_iff]
  unfold meterStrokes
  rw [Nat.min_eq_left hchannels]
  refine (fits_pixels_iff (by omega)).trans (and_congr_right fun _ => ?_)
  rw [forall_level_iff hchannels]
  refine forall₂_congr fun channel hchannel => ?_
  simp only [hpos, true_implies, getElem?_map_toList, Option.mem_some_iff, forall_eq']
  refine forall₂_congr fun hwidth _ => and_congr_left fun _ => and_iff_right ?_
  -- one bar and its gap lie within the panel
  have hall := mul_pitch_le hwidth
  have hone := Nat.le_mul_of_pos_left (width + p.layout.barSpacing) (show 0 < p.channels by omega)
  exact Nat.lt_of_le_of_lt (hone.trans hall) hcolumns

theorem faultOf_cells_iff {columns : Nat} (hpos : 0 < p.layout.barHeight)
    (hmeter : 0 < p.channels) :
    let readings := (p.monitor.query now).1
    let column (channel : Nat) := p.layout.xOffset + channel * (1 + p.layout.barSpacing)
    Stroke.faultOf (p.meterStrokes .character columns now) = none ↔
      p.layout.barHeight * 8 < UInt32.size ∧ 1 + p.layout.barSpacing < UInt32.size ∧
        ∀ channel : Channel, channel.val < p.channels →
          (∀ earlier < channel.val, column earlier < columns) →
            column channel < UInt32.size ∧ (column channel < columns →
              let height := cellHeight p.layout (readings.get channel).level
              height % 8 = 0 ∨ height / 8 < p.layout.barHeight) := by
  intro readings column
  rw [Stroke.faultOf_eq_none_iff]
  unfold meterStrokes
  rw [Nat.min_eq_left hchannels]
  refine (fits_cells_iff (by omega)).trans (and_congr_right fun _ => ?_)
  rw [forall_level_iff hchannels]
  simp only [hpos, true_implies]
  constructor
  · intro hall
    refine ⟨(hall 0 hmeter (by simp)).1.1, fun channel hchannel hbefore => ?_⟩
    obtain ⟨⟨-, hcolumn⟩, hlevel⟩ := hall channel hchannel hbefore
    exact ⟨hcolumn, hlevel⟩
  · rintro ⟨hgap, hall⟩ channel hchannel hbefore
    obtain ⟨hcolumn, hlevel⟩ := hall channel hchannel hbefore
    exact ⟨⟨hgap, hcolumn⟩, hlevel⟩

end

/-- The panels that settings describe, accepted or not, with sizes that are words, and whatever the
meter has heard. Building a panel of pixels never overflows, and building one of characters exactly
if no word holds the number of its cells. A meter is drawn or overflows. On a pixel panel it is
drawn exactly if words hold the gaps and, of every bar up to the first that crosses the right edge,
the column behind it, and no level or peak of a bar before that stands higher than the meter. On a
character panel it is drawn exactly if words hold the eighths of a column of cells, the distance
from bar to bar and, of every bar up to the first that does not lie on the panel, its column, and no
bar before that has its last cell above the meter. -/
theorem drawing_fits_iff (s : Settings) (hcolumns : s.displayInEffect.sizeInEffect.1 < UInt32.size)
    (hrows : s.displayInEffect.sizeInEffect.2 < UInt32.size) (monitor : Monitor) (now : Tick) :
    let columns := s.displayInEffect.sizeInEffect.1
    let rows := s.displayInEffect.sizeInEffect.2
    let readings := (monitor.query now).1
    PixelPanel.new columns rows ≠ .error .overflow ∧
    (CellPanel.new columns rows = .error .overflow ↔
      0 < columns ∧ 0 < rows ∧ UInt32.size ≤ columns * rows) ∧
    (∀ lcd, PixelPanel.new columns rows = .ok lcd →
      let p := { Replay.panelFor s lcd with monitor := monitor }
      let drawn := p.drawLevels lcd p.layout p.channels now
      let width := (columns - p.channels * p.layout.barSpacing) / p.channels
      let behind (channel : Nat) :=
        p.layout.xOffset + channel * (width + p.layout.barSpacing) + width
      let top := rows - 1
      (drawn.fault = none ∨ drawn.fault = some .overflow) ∧
      (drawn.fault = none ↔
        p.channels * p.layout.barSpacing < UInt32.size ∧
          ∀ channel : Channel, channel.val < p.channels → 0 < width →
            (∀ earlier < channel.val, behind earlier ≤ columns) →
              behind channel < UInt32.size ∧ (behind channel ≤ columns →
                pixelHeight (readings.get channel).level top ≤ top ∧
                  pixelHeight (readings.get channel).peak top ≤ top))) ∧
    (∀ lcd, CellPanel.new columns rows = .ok lcd →
      let p := { Replay.panelFor s lcd with monitor := monitor }
      let drawn := p.drawLevels lcd p.layout p.channels now
      let column (channel : Nat) := p.layout.xOffset + channel * (1 + p.layout.barSpacing)
      (drawn.fault = none ∨ drawn.fault = some .overflow) ∧
      (drawn.fault = none ↔
        rows * 8 < UInt32.size ∧ 1 + p.layout.barSpacing < UInt32.size ∧
          ∀ channel : Channel, channel.val < p.channels →
            (∀ earlier < channel.val, column earlier < columns) →
              column channel < UInt32.size ∧ (column channel < columns →
                let height := cellHeight p.layout (readings.get channel).level
                height % 8 = 0 ∨ height / 8 < rows))) := by
  intro columns rows readings
  refine ⟨PixelPanel.new_ne_overflow columns rows, CellPanel.new_eq_overflow_iff, ?_, ?_⟩
  · intro lcd hlcd p drawn width behind top
    obtain ⟨hpos, rfl⟩ := PixelPanel.eq_of_new hlcd
    have hended : drawn.fault = Stroke.faultOf (p.meterStrokes .graphical columns now) :=
      p.fault_drawLevels_pixels rfl now rfl
    rw [hended]
    exact ⟨Stroke.faultOf_cases _,
      p.faultOf_pixels_iff rfl now (Nat.min_le_right _ _) hrows hcolumns hpos⟩
  · intro lcd hlcd p drawn column
    obtain ⟨⟨hcolumns, hpos⟩, rfl⟩ := CellPanel.eq_of_new hlcd
    have hended : drawn.fault = Stroke.faultOf (p.meterStrokes .character columns now) :=
      p.fault_drawLevels_cells rfl now rfl hcolumns
    have hmeter : 0 < p.channels := by
      show 0 < min (max _ 1) 16
      omega
    rw [hended]
    exact ⟨Stroke.faultOf_cases _,
      p.faultOf_cells_iff rfl now (Nat.min_le_right _ _) hrows hpos hmeter⟩

/-- Gaps of `2 ^ 28 - 1` pixels are the widest that sixteen bars can have. -/
theorem drawing_fits_iff_widest :
    let s : Settings := { Settings.unset with
      display := some { DisplaySettings.unset with barSpacing := some 268435455 } }
    let lcd : PixelPanel := ⟨.filled 128 32 false, [], true, 0⟩
    let p := Replay.panelFor s lcd
    s.displayInEffect.sizeInEffect.1 < UInt32.size ∧
      s.displayInEffect.sizeInEffect.2 < UInt32.size ∧ PixelPanel.new 128 32 = .ok lcd ∧
      (p.drawLevels lcd p.layout p.channels 0).fault = none := by
  intro s lcd p
  obtain ⟨-, -, hpixels, -⟩ := drawing_fits_iff s (by decide) (by decide) p.monitor 0
  refine ⟨by decide, by decide, rfl, (hpixels lcd rfl).2.mpr ⟨by decide, ?_⟩⟩
  intro channel _ hwidth
  exact absurd hwidth (by decide)

/-- Accepted settings under which drawing overflows: sixteen gaps of `2 ^ 28` pixels fill the word.
They leave the bars no width, so that nothing should be drawn. -/
theorem gaps_fill_word :
    let s : Settings := { Settings.unset with
      display := some { DisplaySettings.unset with barSpacing := some 268435456 } }
    let lcd : PixelPanel := ⟨.filled 128 32 false, [], true, 0⟩
    let p := Replay.panelFor s lcd
    s.violation? = none ∧ PixelPanel.new 128 32 = .ok lcd ∧
      p.channels * p.layout.barSpacing = UInt32.size ∧
      barWidth 128 p.channels p.layout.barSpacing = 0 ∧
      (p.drawLevels lcd p.layout p.channels 0).fault = some .overflow := by
  intro s lcd p
  refine ⟨by decide, rfl, by decide, by decide, ?_⟩
  rw [p.fault_drawLevels_pixels rfl 0 rfl, Stroke.faultOf_eq_some_iff]
  refine ⟨rfl, fun hfits => ?_⟩
  have hgaps := ((fits_pixels_iff (by decide)).mp hfits).1
  exact absurd hgaps (by decide)

end Panel
end MidiPanel
