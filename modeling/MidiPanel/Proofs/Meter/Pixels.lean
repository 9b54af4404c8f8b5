import MidiPanel.Proofs.Monitor.Range
import MidiPanel.Proofs.Panel.Inside
import MidiPanel.Proofs.Single.Monotone
import MidiPanel.Proofs.Surface.Painting

/-!
# The meter, pixel by pixel

The bars of a meter stand side by side, each over as many columns as it is wide. A pixel is lit if
it lies in the columns of a bar that ends before the right edge, and there either at or below the
top of the bar or on the line of its peak. Bars without a height have the lowest line as their base,
if bases are drawn. No peak lies below the top of its bar, and none above the panel.

Results:
* `mem_barCallsFrom`: which calls the bars make.
* `covers_barCalls`: which pixels one bar covers.
* `covers_pixelCalls`: which pixels they all cover.
* `fault_draw_pixels`: none of them is refused.
* `drawLevels_isLit`: every pixel of a meter on a dark panel.
-/

namespace MidiPanel

open Single

namespace Meter

variable {layout : MeterLayout} {call : Call}

/-! ## Heights -/

theorem pixelHeight_of_isShare {level : Single} (h : IsShare level) (top : Nat) :
    pixelHeight level top = (level * Single.ofNat top).round := by
  unfold pixelHeight
  rw [h.clamp_eq]

theorem round_mul_le_round_mul {level peak : Single} (hlevel : IsShare level)
    (hpeak : IsShare peak) (h : level ≤ peak) {top : Nat} (htop : top < 2 ^ 24) :
    (level * Single.ofNat top).round ≤ (peak * Single.ofNat top).round := by
  obtain ⟨m, fm, rfl, -, -⟩ := hlevel
  obtain ⟨n, fn, rfl, -, -⟩ := hpeak
  rw [Single.ofNat_eq htop]
  exact round_le_round (finite_mul_le_finite_mul (finite_le_finite.mp h) le_rfl)

/-! ## Which calls there are -/

theorem barLeft_mono (layout : MeterLayout) (width : Nat) {channel channel' : Nat}
    (h : channel ≤ channel') : barLeft layout width channel ≤ barLeft layout width channel' :=
  Nat.add_le_add_left (Nat.mul_le_mul_right _ h) _

/-- The bars are those that end before the right edge: behind the first that does not, none does. -/
theorem mem_barCallsFrom {panelWidth width : Nat} {peak? : Nat → Option Single} {channel : Nat}
    {levels : List Single} :
    call ∈ barCallsFrom layout panelWidth width peak? channel levels ↔
      ∃ i level, levels[i]? = some level ∧
        barLeft layout width (channel + i) + width - 1 < panelWidth ∧
        call ∈ barCalls layout (barLeft layout width (channel + i))
          (barLeft layout width (channel + i) + width - 1) level (peak? (channel + i)) := by
  induction levels generalizing channel with
  | nil => simp [barCallsFrom, barsFrom, sideBySide]
  | cons level levels ih =>
    rw [barCallsFrom_cons]
    split
    next hout =>
      refine iff_of_false List.not_mem_nil ?_
      rintro ⟨i, level', -, hin, -⟩
      have := barLeft_mono layout width (Nat.le_add_right channel i)
      omega
    next hin =>
      rw [List.mem_append, ih]
      constructor
      · rintro (hcall | ⟨i, level', hlevel, hi, hcall⟩)
        · exact ⟨0, level, rfl, Nat.lt_of_not_le hin, hcall⟩
        · rw [Nat.add_right_comm, Nat.add_assoc] at hi hcall
          exact ⟨i + 1, level', hlevel, hi, hcall⟩
      · rintro ⟨i, level', hlevel, hi, hcall⟩
        cases i with
        | zero =>
          cases hlevel
          exact .inl hcall
        | succ i =>
          rw [← Nat.add_assoc, Nat.add_right_comm] at hi hcall
          exact .inr ⟨i, level', hlevel, hi, hcall⟩

theorem isFill_of_mem_pixelCalls {panelWidth width : Nat} {levels : List Single}
    {peaks : Option (List Single)} {channels : Nat}
    (h : call ∈ pixelCalls layout panelWidth width levels peaks channels) : call.isFill = true := by
  obtain ⟨stroke, hstroke, hcall⟩ := List.mem_flatMap.mp h
  obtain hnone | ⟨-, left, right, -, -, level, extent, -, -, hbar⟩ :=
    isBar_of_mem_pixelStrokes hstroke
  · rw [hnone] at hcall
    cases hcall
  · rw [hbar] at hcall
    rw [List.mem_singleton.mp hcall]
    rfl

/-! ## Which pixels they cover -/

theorem covers_fillRect {x₁ y₁ x₂ y₂ : Nat} (hx : x₁ ≤ x₂) (hy : y₁ ≤ y₂) {drawn : Prop}
    [Decidable drawn] (x y : Nat) :
    (∃ call ∈ if drawn then [Call.fillRect x₁ y₁ x₂ y₂] else [], call.Covers x y) ↔
      drawn ∧ (x₁ ≤ x ∧ x ≤ x₂) ∧ (y₁ ≤ y ∧ y ≤ y₂) := by
  by_cases hdrawn : drawn
  · simp only [hdrawn, if_true, List.mem_singleton, exists_eq_left, true_and, Call.Covers,
      Nat.min_eq_left hx, Nat.max_eq_right hx, Nat.min_eq_left hy, Nat.max_eq_right hy]
  · simp [hdrawn]

theorem covers_barCalls {left right : Nat} (hle : left ≤ right) (level peak : Single) (x y : Nat) :
    let top := layout.barHeight - 1
    let upper (level : Single) := layout.yOffset + (top - pixelHeight level top)
    (∃ call ∈ barCalls layout left right level (some peak), call.Covers x y) ↔
      (left ≤ x ∧ x ≤ right) ∧
        ((0 < pixelHeight level top ∨ layout.drawBarBases) ∧
            (upper level ≤ y ∧ y ≤ upper level + pixelHeight level top) ∨
          0 < pixelHeight peak top ∧ y = upper peak) := by
  intro top upper
  have hsplit : (∃ call ∈ barCalls layout left right level (some peak), call.Covers x y) ↔
      (∃ call ∈ if 0 < pixelHeight level top ∨ layout.drawBarBases then
          [Call.fillRect left (upper level) right (upper level + pixelHeight level top)] else [],
        call.Covers x y) ∨
      ∃ call ∈ if 0 < pixelHeight peak top then
          [Call.fillRect left (upper peak) right (upper peak)] else [], call.Covers x y := by
    rw [barCalls_eq]
    simp only [List.mem_append, or_and_right, exists_or]
    rfl
  rw [hsplit, covers_fillRect hle (Nat.le_add_right _ _), covers_fillRect hle le_rfl]
  constructor
  · rintro (⟨hdrawn, hcolumn, hrow⟩ | ⟨hdrawn, hcolumn, habove, hbelow⟩)
    · exact ⟨hcolumn, .inl ⟨hdrawn, hrow⟩⟩
    · exact ⟨hcolumn, .inr ⟨hdrawn, Nat.le_antisymm hbelow habove⟩⟩
  · rintro ⟨hcolumn, ⟨hdrawn, hrow⟩ | ⟨hdrawn, hrow⟩⟩
    · exact .inl ⟨hdrawn, hcolumn, hrow⟩
    · exact .inr ⟨hdrawn, hcolumn, hrow.ge, hrow.le⟩

theorem getElem?_map_toList {α β : Type} {n : Nat} (xs : Vector α n) (f : α → β) (i : Fin n) :
    (xs.toList.map f)[i.val]? = some (f (xs.get i)) := by
  simp [get_eq_getElem]

section Readings

variable {readings : Vector Reading 16} {panelWidth channels : Nat}

/-- The first levels of a monitor are those of its first channels. -/
theorem exists_level_iff (hchannels : channels ≤ 16) {P : Nat → Single → Prop} :
    (∃ i level, ((readings.toList.map Reading.level).take channels)[i]? = some level ∧ P i level) ↔
      ∃ channel : Channel, channel.val < channels ∧ P channel (readings.get channel).level := by
  constructor
  · rintro ⟨i, level, hlevel, hP⟩
    rw [List.getElem?_take] at hlevel
    split at hlevel
    next hi =>
      have hreading := getElem?_map_toList readings Reading.level ⟨i, by omega⟩
      dsimp only at hreading
      rw [hlevel] at hreading
      cases hreading
      exact ⟨⟨i, by omega⟩, hi, hP⟩
    next => cases hlevel
  · rintro ⟨channel, hchannel, hP⟩
    refine ⟨channel.val, (readings.get channel).level, ?_, hP⟩
    rw [List.getElem?_take, if_pos hchannel]
    exact getElem?_map_toList readings Reading.level channel

/-- The calls for the bars of the first channels. -/
theorem mem_bars_of_readings {width : Nat} (hchannels : channels ≤ 16) :
    call ∈ barCallsFrom layout panelWidth width
        (fun channel => (some (readings.toList.map Reading.peak)).bind (·[channel]?)) 0
        ((readings.toList.map Reading.level).take channels) ↔
      ∃ channel : Channel, channel.val < channels ∧
        barLeft layout width channel + width - 1 < panelWidth ∧
        call ∈ barCalls layout (barLeft layout width channel)
          (barLeft layout width channel + width - 1) (readings.get channel).level
          (some (readings.get channel).peak) := by
  rw [mem_barCallsFrom]
  simp only [Nat.zero_add, Option.bind_some]
  rw [exists_level_iff hchannels]
  simp only [getElem?_map_toList]

/-- The pixels of a meter on a panel of this width, among the rows that the meter has. -/
theorem covers_pixelCalls {width : Nat} (hchannels : channels ≤ 16) (hoffset : layout.yOffset = 0)
    (hheight : layout.barHeight ≤ 2 ^ 24) {x y : Nat} (hy : y < layout.barHeight) :
    let top := layout.barHeight - 1
    (∃ call ∈ pixelCalls layout panelWidth width (readings.toList.map Reading.level)
        (some (readings.toList.map Reading.peak)) channels, call.Covers x y) ↔
      0 < width ∧ ∃ channel : Channel, channel.val < channels ∧
        barLeft layout width channel + width ≤ panelWidth ∧
        (barLeft layout width channel ≤ x ∧ x < barLeft layout width channel + width) ∧
        ((0 < pixelHeight (readings.get channel).level top ∨ layout.drawBarBases) ∧
            top - pixelHeight (readings.get channel).level top ≤ y ∨
          0 < pixelHeight (readings.get channel).peak top ∧
            y = top - pixelHeight (readings.get channel).peak top) := by
  intro top
  rw [pixelCalls_eq]
  by_cases hnone : width = 0 ∨ layout.barHeight = 0
  · rw [if_pos hnone]
    refine iff_of_false ?_ ?_
    · rintro ⟨call, hcall, -⟩
      cases hcall
    · rintro ⟨hwidth, -⟩
      omega
  rw [if_neg hnone]
  have hwidth : 0 < width := by omega
  have hbar (channel : Channel) := @covers_barCalls layout (barLeft layout width channel)
    (barLeft layout width channel + width - 1) (by omega) (readings.get channel).level
    (readings.get channel).peak x y
  simp only [hoffset, Nat.zero_add] at hbar
  constructor
  · rintro ⟨call, hcall, hcovers⟩
    obtain ⟨channel, hchannel, hin, hcall⟩ := (mem_bars_of_readings hchannels).mp hcall
    obtain ⟨hcolumn, hrow⟩ := (hbar channel).mp ⟨call, hcall, hcovers⟩
    refine ⟨hwidth, channel, hchannel, by omega, by omega, ?_⟩
    exact hrow.imp (And.imp_right And.left) id
  · rintro ⟨-, channel, hchannel, hin, hcolumn, hrow⟩
    -- the bar ends on the lowest line, so that only its top counts
    have hend : top - pixelHeight (readings.get channel).level top +
        pixelHeight (readings.get channel).level top = top :=
      Nat.sub_add_cancel (pixelHeight_le _ (show layout.barHeight - 1 < 2 ^ 24 by omega))
    have hlowest : y ≤ top := Nat.le_sub_one_of_lt hy
    obtain ⟨call, hcall, hcovers⟩ := (hbar channel).mpr ⟨by omega, hrow.imp
      (And.imp_right fun habove => ⟨habove, hlowest.trans hend.ge⟩) id⟩
    exact ⟨call, (mem_bars_of_readings hchannels).mpr ⟨channel, hchannel, by omega, hcall⟩, hcovers⟩

end Readings

/-- A meter over the whole height of a panel is refused nothing, so that nothing but an overflow
ends its drawing. -/
theorem fault_draw_pixels {lcd : PixelPanel} (hoffset : layout.yOffset = 0)
    (hbar : layout.barHeight = lcd.frame.height) (levels peaks : List Single) (channels : Nat) :
    let strokes := strokes .graphical lcd.frame.width layout levels peaks channels
    (Stroke.draw lcd strokes).2 = Stroke.faultOf strokes := by
  intro strokes
  have hperforms : (Surface.run lcd (Stroke.callsOf strokes)).2 = none := by
    refine Framed.run_of_performs fun call hcall => ?_
    have hmeter := isMeter_of_mem_callsOf hcall
    have hinside := inside_of_mem_callsOf hoffset hcall
    rw [hbar] at hinside
    refine PixelPanel.exists_perform (.inl hinside) ?_
    rintro id rfl
    cases hmeter
  rw [Stroke.draw_eq]
  dsimp only
  rw [hperforms, Option.none_or]

end Meter

namespace Monitor

/-- What a query tells of a channel is two shares, the level at most the peak. -/
theorem isShare_reading {m : Monitor} (h : Sound m) (now : Tick) (channel : Channel) :
    let reading := (m.query now).1.get channel
    IsShare reading.level ∧ IsShare reading.peak ∧ reading.level ≤ reading.peak := by
  intro reading
  have hlevel : IsShare (m.loudness channel now) := isShare_loudness h.timings channel now
  have hfallen : IsShare ((m.peaks.get channel).fallen m.timings now) :=
    Peak.isShare_fallen h.timings (h.peaks channel) now
  rw [show reading.level = m.loudness channel now from query_level m now channel,
    show reading.peak = _ from query_reading_peak m now channel]
  split
  next => exact ⟨hlevel, hlevel, hlevel.le_refl⟩
  next hlt => exact ⟨hlevel, hfallen, hlevel.le_of_lt hfallen ((hfallen.not_le hlevel).mp hlt)⟩

end Monitor

namespace Panel

/-- A meter on a dark panel, with the layout that settings have for it. Drawing it is refused
nothing, and comes to its end exactly if its geometry fits in words. A pixel is then lit exactly if
some channel has a bar that ends before the right edge, with the pixel among its columns, and there
either at or below its top or on the line of its peak. -/
theorem drawLevels_isLit {timings : EnvelopeTimings} (h : timings.Usable) (d : DisplaySettings)
    {lcd : PixelPanel} (dark : ∀ x y, lcd.frame.isLit x y = false)
    (hheight : lcd.frame.height ≤ 2 ^ 24) {channels : Nat} (hchannels : channels ≤ 16)
    {p : Panel} {history : List Monitor.Input}
    (hmonitor : p.monitor = (Monitor.new timings).after history) (now : Tick) :
    let layout := d.meterLayout (.forSurface lcd)
    let width := barWidth lcd.frame.width channels layout.barSpacing
    let left (channel : Channel) := layout.xOffset + channel.val * (width + layout.barSpacing)
    let top := lcd.frame.height - 1
    let readings := (p.monitor.query now).1
    let level (channel : Channel) := ((readings.get channel).level * Single.ofNat top).round
    let peak (channel : Channel) := ((readings.get channel).peak * Single.ofNat top).round
    let drawn := p.drawLevels lcd layout channels now
    (drawn.fault = none ↔ Meter.PixelsFit layout lcd.frame.width channels) ∧
      (drawn.fault = none → ∀ x < lcd.frame.width, ∀ y < lcd.frame.height,
        drawn.surface.frame.isLit x y = true ↔
          0 < width ∧ ∃ channel : Channel, channel.val < channels ∧
            left channel + width ≤ lcd.frame.width ∧
            (left channel ≤ x ∧ x < left channel + width) ∧
            ((0 < level channel ∨ layout.drawBarBases) ∧ top - level channel ≤ y ∨
              0 < peak channel ∧ y = top - peak channel)) ∧
      ∀ channel, level channel ≤ peak channel ∧ peak channel ≤ top := by
  intro layout width left top readings level peak drawn
  have hsound : Monitor.Sound p.monitor := hmonitor ▸ (Monitor.sound_new h).after history
  have htop : top < 2 ^ 24 := by omega
  have hshare (channel : Channel) := Monitor.isShare_reading hsound now channel
  have hlevel (channel : Channel) :
      Meter.pixelHeight (readings.get channel).level top = level channel :=
    Meter.pixelHeight_of_isShare (hshare channel).1 top
  have hpeak (channel : Channel) :
      Meter.pixelHeight (readings.get channel).peak top = peak channel :=
    Meter.pixelHeight_of_isShare (hshare channel).2.1 top
  let levels := readings.toList.map Reading.level
  let peaks := readings.toList.map Reading.peak
  let strokes := Meter.strokes .graphical lcd.frame.width layout levels peaks channels
  obtain ⟨hsurface, hended⟩ : drawn.surface = (Stroke.draw lcd strokes).1 ∧
      drawn.fault = (Stroke.draw lcd strokes).2 := p.drawLevels_draw lcd layout hchannels now
  refine ⟨?_, fun hfault x _ y hy => ?_, fun channel => ⟨?_, ?_⟩⟩
  · rw [hended, Meter.fault_draw_pixels rfl rfl, Stroke.faultOf_eq_none_iff]
    exact Meter.pixelsFit_iff hheight (layout_le (p := { p with layout := layout }) rfl rfl hheight)
      (by simpa [levels] using hchannels)
  · have hfits := Stroke.fits_of_draw (hended.symm.trans hfault)
    have hrun : Stroke.draw lcd strokes = Surface.run lcd (Meter.pixelCalls layout lcd.frame.width
        width levels (some peaks) channels) :=
      (Stroke.draw_of_fits lcd hfits).trans (congrArg (Surface.run lcd) Meter.calls_graphical)
    have hcovers := @Meter.covers_pixelCalls layout readings lcd.frame.width channels width
      hchannels rfl hheight x y hy
    have hlit := PixelPanel.isLit_run_of_isFill
      (fun call hcall => Meter.isFill_of_mem_pixelCalls hcall)
      ((congrArg Prod.snd hrun).symm.trans (hended.symm.trans hfault)) x y
    rw [hsurface, hrun, hlit, dark]
    simp only [Bool.false_eq_true, false_or]
    refine hcovers.trans (and_congr_right fun _ => exists_congr fun channel => ?_)
    rw [← hlevel channel, ← hpeak channel]
    exact Iff.rfl
  · obtain ⟨hlevelShare, hpeakShare, hle⟩ := hshare channel
    exact Meter.round_mul_le_round_mul hlevelShare hpeakShare hle htop
  · rw [← hpeak]
    exact Meter.pixelHeight_le _ htop

/-- One note on a small panel: the topmost pixel of its bar, 24 lines above the lowest. -/
theorem drawLevels_isLit_note :
    let lcd : PixelPanel := ⟨.filled 128 32 false, [], true, 0⟩
    let p := (forSurface lcd).receive (ShortMessage.noteOn 0 60 127).pack 0
    let drawn := p.drawLevels lcd (DisplaySettings.unset.meterLayout (.forSurface lcd)) 16 0
    EnvelopeTimings.standard.Usable ∧ (∀ x y, lcd.frame.isLit x y = false) ∧
      lcd.frame.height ≤ 2 ^ 24 ∧
      p.monitor = (Monitor.new .standard).after
        [.message (ShortMessage.noteOn 0 60 127).pack 0] ∧
      drawn.fault = none ∧ drawn.surface.frame.isLit 2 7 = true := by
  intro lcd p drawn
  have dark : ∀ x y, lcd.frame.isLit x y = false := FrameBuffer.isLit_filled_false 128 32
  have hheight : lcd.frame.height ≤ 2 ^ 24 := by decide
  have hmonitor : p.monitor = (Monitor.new .standard).after
      [.message (ShortMessage.noteOn 0 60 127).pack 0] := rfl
  have hlevel : (((p.monitor.query 0).1.get 0).level * Single.ofNat 31).round = 24 := by
    rw [Monitor.query_level, hmonitor]
    decide +kernel
  clear_value p
  obtain ⟨hfault, hlit, -⟩ := drawLevels_isLit EnvelopeTimings.standard_usable .unset dark hheight
    (show 16 ≤ 16 from le_rfl) hmonitor 0
  have hdrawn : drawn.fault = none := hfault.mpr (Meter.pixelsFit_of_margin (by decide) (by decide))
  refine ⟨EnvelopeTimings.standard_usable, dark, hheight, hmonitor, hdrawn, ?_⟩
  refine (hlit hdrawn 2 (by decide) 7 (by decide)).mpr
    ⟨by decide, 0, by decide, by decide, by decide, ?_⟩
  refine .inl ⟨.inr rfl, ?_⟩
  show 31 - (((p.monitor.query 0).1.get 0).level * Single.ofNat 31).round ≤ 7
  rw [hlevel]

end Panel
end MidiPanel
