import MidiPanel.Proofs.Meter.Pixels
import MidiPanel.Proofs.Surface.Printing

/-!
# The meter, cell by cell

On a character panel the meter rewrites its rows as a whole, so that nothing of what was there
before is left. The column of a channel is filled from the bottom: full cells, then one in part, if
there is a rest, then empty ones, and the fill levels of its cells add up to the height of the bar.
Every other column is blank. Since heights are rounded in order, a higher level lowers no cell.

Results:
* `isColumn_cells`: the cells of a bar, and what they add up to.
* `lookup_columnsFrom`: which columns belong to which channel.
* `run_cellCalls`: every cell behind the calls of a meter.
* `drawLevels_fits`: when a meter comes to its end.
* `drawLevels_cells`: every cell of a meter.
-/

namespace MidiPanel

open Single

/-! ## One column -/

namespace BarGlyph

/-- From the bottom: full cells, then at most one that is filled in part, then empty ones. -/
def IsColumn (codes : List UInt8) : Prop :=
  ∃ (full : Nat) (rest : Option Nat) (empty : Nat), (∀ level ∈ rest, 0 < level ∧ level < 8) ∧
    codes = List.replicate full (code 8) ++ rest.toList.map code ++ List.replicate empty blank

theorem idxOf_code {level : Nat} (h : level ≤ 8) : ramp.idxOf (code level) = level := by
  have hall : ∀ level : Fin 9, ramp.idxOf (code level.val) = level.val := by decide
  exact hall ⟨level, by omega⟩

theorem code_lt {level : Nat} (h : level ≤ 8) : code level < 0x80 := by
  have hall : ∀ level : Fin 9, code level.val < 0x80 := by decide
  exact hall ⟨level, by omega⟩

end BarGlyph

namespace Meter

open BarGlyph

theorem idxOf_cellCode (height fromBottom : Nat) :
    ramp.idxOf (cellCode height fromBottom) = min (height - fromBottom * 8) 8 :=
  idxOf_code (Nat.min_le_right _ _)

theorem cellCode_zero (fromBottom : Nat) : cellCode 0 fromBottom = blank := by
  simp [cellCode, code]

theorem cellCode_succ (height fromBottom : Nat) :
    cellCode height (fromBottom + 1) = cellCode (height - 8) fromBottom := by
  have hrest : height - (fromBottom + 1) * 8 = height - 8 - fromBottom * 8 := by omega
  unfold cellCode levelsPerCell
  rw [hrest]

/-- The cells of a bar that is no higher than they are, and what they add up to. -/
theorem isColumn_cells {height rows : Nat} (h : height ≤ rows * 8) :
    let codes := (List.range rows).map (cellCode height)
    IsColumn codes ∧ (codes.map (ramp.idxOf ·)).sum = height := by
  induction rows generalizing height with
  | zero =>
    obtain rfl : height = 0 := by omega
    exact ⟨⟨0, none, 0, by simp, rfl⟩, rfl⟩
  | succ rows ih =>
    obtain ⟨⟨full, rest, empty, hrest, hcodes⟩, hsum⟩ := @ih (height - 8) (by omega)
    have hcells : (List.range (rows + 1)).map (cellCode height) =
        cellCode height 0 :: (List.range rows).map (cellCode (height - 8)) := by
      rw [List.range_succ_eq_map, List.map_cons, List.map_map]
      congr 2
      funext fromBottom
      exact cellCode_succ height fromBottom
    intro codes
    rw [show codes = _ from hcells]
    constructor
    · by_cases hfull : 8 ≤ height
      · -- a full cell below a column that is as it should be
        have hlowest : cellCode height 0 = code 8 := by
          unfold cellCode levelsPerCell
          rw [Nat.min_eq_right (by omega)]
        refine ⟨full + 1, rest, empty, hrest, ?_⟩
        rw [hlowest, hcodes]
        rfl
      · have habove : (List.range rows).map (cellCode (height - 8)) =
            List.replicate rows blank := by
          have hnone : height - 8 = 0 := by omega
          have hblank : cellCode 0 = fun _ => blank := funext cellCode_zero
          rw [hnone, hblank, List.map_const', List.length_range]
        have hlowest : cellCode height 0 = code height := by
          unfold cellCode levelsPerCell
          rw [Nat.min_eq_left (by omega)]
          rfl
        rw [habove, hlowest]
        by_cases hzero : height = 0
        · refine ⟨0, none, rows + 1, by simp, ?_⟩
          rw [hzero]
          rfl
        · exact ⟨0, some height, rows, by simp; omega, rfl⟩
    · rw [List.map_cons, List.sum_cons, idxOf_cellCode, hsum]
      omega

/-- A higher bar has no lower cell. -/
theorem idxOf_cellCode_mono {height height' : Nat} (h : height ≤ height') (fromBottom : Nat) :
    ramp.idxOf (cellCode height fromBottom) ≤ ramp.idxOf (cellCode height' fromBottom) := by
  rw [idxOf_cellCode, idxOf_cellCode]
  omega

/-! ## Heights -/

variable {layout : MeterLayout}

theorem cellHeight_of_isShare {level : Single} (h : IsShare level) :
    let height := (level * Single.ofNat (layout.barHeight * 8)).truncate
    cellHeight layout level = if layout.drawBarBases ∧ height = 0 then 1 else height := by
  unfold cellHeight levelsPerCell
  rw [h.clamp_eq]

theorem cellHeight_le_cellHeight {level level' : Single} (hlevel : IsShare level)
    (hlevel' : IsShare level') (hle : level ≤ level') (h : layout.barHeight ≤ 2 ^ 24) :
    cellHeight layout level ≤ cellHeight layout level' := by
  have hfits := fits_whole_eighths h
  have htop := (within_ofNat hfits hfits le_rfl le_rfl).eq_finite hfits
  rw [cellHeight_of_isShare hlevel, cellHeight_of_isShare hlevel', htop]
  obtain ⟨m, fm, rfl, -, -⟩ := hlevel
  obtain ⟨n, fn, rfl, -, -⟩ := hlevel'
  have hheight := truncate_le_truncate
    (@finite_mul_le_finite_mul m n _ _ fm fn hfits hfits (finite_le_finite.mp hle) le_rfl)
  cases layout.drawBarBases with
  | false => simpa using hheight
  | true =>
    simp only [true_and]
    split <;> split <;> omega

/-! ## Which column is whose -/

theorem barColumn_lt_barColumn (layout : MeterLayout) {channel channel' : Nat}
    (h : channel < channel') : barColumn layout channel < barColumn layout channel' :=
  Nat.add_lt_add_left (Nat.mul_lt_mul_of_pos_right h (by omega)) _

/-- The columns on the panel are those of the channels, each with the height of its level. -/
theorem lookup_columnsFrom {columns x : Nat} (hx : x < columns) {channel height : Nat}
    {levels : List Single} :
    (columnsFrom layout columns channel levels).lookup x = some height ↔
      ∃ i level, levels[i]? = some level ∧ barColumn layout (channel + i) = x ∧
        cellHeight layout level = height := by
  induction levels generalizing channel with
  | nil => simp [columnsFrom]
  | cons level levels ih =>
    have hlater (i : Nat) : barColumn layout channel < barColumn layout (channel + (i + 1)) :=
      barColumn_lt_barColumn layout (by omega)
    have hshift (i : Nat) : channel + (i + 1) = channel + 1 + i := by omega
    unfold columnsFrom
    dsimp only
    split
    next hout =>
      refine iff_of_false (by simp) ?_
      rintro ⟨i, level', -, hcolumn, -⟩
      cases i with
      | zero =>
        rw [Nat.add_zero] at hcolumn
        omega
      | succ i =>
        have := hlater i
        omega
    next hin =>
      by_cases hsame : x = barColumn layout channel
      · subst hsame
        rw [List.lookup_cons_self, Option.some_inj]
        constructor
        · rintro rfl
          exact ⟨0, level, rfl, rfl, rfl⟩
        · rintro ⟨i, level', hlevel, hcolumn, hheight⟩
          cases i with
          | zero =>
            cases hlevel
            exact hheight
          | succ i =>
            have := hlater i
            omega
      · have hdiffers : (x == barColumn layout channel) = false := by simp [hsame]
        rw [List.lookup_cons, hdiffers]
        dsimp only
        rw [ih]
        constructor
        · rintro ⟨i, level', hlevel, hcolumn, hheight⟩
          exact ⟨i + 1, level', hlevel, by rw [hshift]; exact hcolumn, hheight⟩
        · rintro ⟨i, level', hlevel, hcolumn, hheight⟩
          cases i with
          | zero => exact absurd hcolumn.symm hsame
          | succ i => exact ⟨i, level', hlevel, by rw [← hshift]; exact hcolumn, hheight⟩

/-! ## Lines -/

theorem getElem?_cellLine {columns x : Nat} (hx : x < columns) (bars : List (Nat × Nat))
    (fromBottom : Nat) :
    (cellLine columns bars fromBottom)[x]? =
      some ((bars.lookup x).elim blank (cellCode · fromBottom)) := by
  unfold cellLine
  rw [List.getElem?_map, List.getElem?_range hx, Option.map_some]
  cases bars.lookup x <;> rfl

theorem cellLine_ascii (columns : Nat) (bars : List (Nat × Nat)) (fromBottom : Nat) :
    ∀ code ∈ cellLine columns bars fromBottom, code < 0x80 := by
  intro code hcode
  obtain ⟨x, -, rfl⟩ := List.mem_map.mp hcode
  split
  · exact code_lt (Nat.min_le_right _ _)
  · decide

/-- The rows of a meter as high as the panel are written as a whole, and none is refused. -/
theorem run_cellCalls {lcd : CellPanel} (hcolumns : 0 < lcd.columns) (hoffset : layout.yOffset = 0)
    (hbar : layout.barHeight = lcd.rows) (levels : List Single) (channels : Nat) :
    let bars := columnsFrom layout lcd.columns 0 (levels.take channels)
    ∃ q, Surface.run lcd (cellCalls layout lcd.columns levels channels) = (q, none) ∧
      q.rows = lcd.rows ∧ ∀ x < lcd.columns, ∀ y < lcd.rows,
        q.get? x y = some ((bars.lookup x).elim blank (cellCode · (lcd.rows - 1 - y))) := by
  intro bars
  obtain ⟨q, hrun, -, hqrows, hcells⟩ := CellPanel.run_lines hcolumns
    (fun row => cellLine_ascii lcd.columns bars (lcd.rows - 1 - row))
    (fun row => by simp [cellLine]) (Nat.le_refl lcd.rows)
  refine ⟨q, ?_, hqrows, ?_⟩
  · rw [← hrun]
    rw [cellCalls_eq, hoffset, hbar]
    simp only [Nat.zero_add]
    rfl
  · intro x hx y hy
    rw [hcells x hx y, if_pos hy, getElem?_cellLine hx]

/-- The rows of a meter as high as the panel are refused nothing, so that nothing but an overflow
ends its drawing. -/
theorem fault_draw_cells {lcd : CellPanel} (hcolumns : 0 < lcd.columns)
    (hoffset : layout.yOffset = 0) (hbar : layout.barHeight = lcd.rows)
    (levels peaks : List Single) (channels : Nat) :
    let strokes := strokes .character lcd.columns layout levels peaks channels
    (Stroke.draw lcd strokes).2 = Stroke.faultOf strokes := by
  intro strokes
  have hperforms : (Surface.run lcd (Stroke.callsOf strokes)).2 = none := by
    refine Framed.run_of_performs fun call hcall => ?_
    obtain ⟨stroke, hstroke, -, hmade⟩ := Stroke.exists_of_mem_callsOf hcall
    obtain hnone | ⟨text, row, hrow, hprint⟩ := exists_of_mem_cellStrokes hstroke
    · rw [hnone] at hmade
      cases hmade
    · rw [hprint] at hmade
      rw [List.mem_singleton.mp hmade]
      exact ⟨_, dif_pos ⟨by omega, hcolumns⟩⟩
  rw [Stroke.draw_eq]
  dsimp only
  rw [hperforms, Option.none_or]

/-- The columns of a meter belong to the first channels. -/
theorem lookup_columns_of_readings {readings : Vector Reading 16} {columns channels x height : Nat}
    (hchannels : channels ≤ 16) (hx : x < columns) :
    (columnsFrom layout columns 0 ((readings.toList.map Reading.level).take channels)).lookup x =
        some height ↔
      ∃ channel : Channel, channel.val < channels ∧ barColumn layout channel = x ∧
        cellHeight layout (readings.get channel).level = height := by
  rw [lookup_columnsFrom hx]
  simp only [Nat.zero_add]
  exact exists_level_iff hchannels

end Meter

namespace Panel

open BarGlyph

/-- A meter as high as its panel comes to its end exactly if its geometry fits in words. -/
theorem drawLevels_fits (p : Panel) {lcd : CellPanel} (hcolumns : 0 < lcd.columns)
    (hrows : lcd.rows ≤ 2 ^ 24) (d : DisplaySettings) {channels : Nat} (hchannels : channels ≤ 16)
    (now : Tick) :
    let layout := d.meterLayout (.forSurface lcd)
    (p.drawLevels lcd layout channels now).fault = none ↔
      Meter.CellsFit layout lcd.columns channels := by
  intro layout
  rw [(p.drawLevels_draw lcd layout hchannels now).2]
  refine (Eq.congr_left (Meter.fault_draw_cells hcolumns rfl rfl _ _ channels)).trans ?_
  rw [Stroke.faultOf_eq_none_iff]
  exact Meter.cellsFit_iff hrows (layout_le (p := { p with layout := layout }) rfl rfl hrows)
    (by simpa using hchannels)

/-- Every cell of a meter as high as its panel: those in the column of a channel are filled to the
height of its bar, and all others are blank. -/
theorem drawLevels_get? (p : Panel) {lcd : CellPanel} (hcolumns : 0 < lcd.columns)
    (d : DisplaySettings) {channels : Nat} (hchannels : channels ≤ 16) (now : Tick) :
    let layout := d.meterLayout (.forSurface lcd)
    let level (channel : Channel) := ((p.monitor.query now).1.get channel).level
    let drawn := p.drawLevels lcd layout channels now
    drawn.fault = none → drawn.surface.rows = lcd.rows ∧ ∀ x < lcd.columns, ∀ y < lcd.rows,
      (∀ channel : Channel, channel.val < channels → Meter.barColumn layout channel = x →
        drawn.surface.get? x y =
          some (Meter.cellCode (Meter.cellHeight layout (level channel)) (lcd.rows - 1 - y))) ∧
      ((∀ channel : Channel, channel.val < channels → Meter.barColumn layout channel ≠ x) →
        drawn.surface.get? x y = some blank) := by
  intro layout level drawn hfault
  let readings := (p.monitor.query now).1
  let levels := readings.toList.map Reading.level
  obtain ⟨q, hrun, hrows, hcells⟩ :=
    @Meter.run_cellCalls layout lcd hcolumns rfl rfl levels channels
  let strokes := Meter.strokes .character lcd.columns layout levels
    (readings.toList.map Reading.peak) channels
  obtain ⟨hsurface, hended⟩ : drawn.surface = (Stroke.draw lcd strokes).1 ∧
      drawn.fault = (Stroke.draw lcd strokes).2 := p.drawLevels_draw lcd layout hchannels now
  have hfits := Stroke.fits_of_draw (hended.symm.trans hfault)
  have hdrawn : drawn.surface = q := by
    rw [hsurface, Stroke.draw_of_fits lcd hfits]
    exact congrArg Prod.fst hrun
  rw [hdrawn]
  refine ⟨hrows, ?_⟩
  intro x hx y hy
  rw [hcells x hx y hy]
  constructor
  · intro channel hchannel hcolumn
    rw [(Meter.lookup_columns_of_readings hchannels hx).mpr ⟨channel, hchannel, hcolumn, rfl⟩]
    rfl
  · intro hnone
    cases hlookup : (Meter.columnsFrom layout lcd.columns 0
        ((readings.toList.map Reading.level).take channels)).lookup x with
    | none => rfl
    | some height =>
      obtain ⟨channel, hchannel, hcolumn, -⟩ :=
        (Meter.lookup_columns_of_readings hchannels hx).mp hlookup
      exact absurd hcolumn (hnone channel hchannel)

/-- A meter on a character panel, with the layout that settings have for it, over whatever the panel
showed. Drawing it is refused nothing, and comes to its end exactly if its geometry fits in words.
From the bottom up, the column of a channel then has full cells, then at most one that is filled in
part, then empty ones, and their fill levels add up to the level in eighths of a cell, or to the
base if that is nothing and bases are drawn. All other cells are blank. Whatever two monitors have
heard, the higher level of a channel has no lower cell. -/
theorem drawLevels_cells {timings : EnvelopeTimings} (h : timings.Usable) (d : DisplaySettings)
    {lcd : CellPanel} (hcolumns : 0 < lcd.columns) (hpositive : 0 < lcd.rows)
    (hrows : lcd.rows ≤ 2 ^ 24) {channels : Nat} (hchannels : channels ≤ 16) {p p' : Panel}
    {history history' : List Monitor.Input}
    (hmonitor : p.monitor = (Monitor.new timings).after history)
    (hmonitor' : p'.monitor = (Monitor.new timings).after history') (now now' : Tick) :
    let layout := d.meterLayout (.forSurface lcd)
    let column (channel : Channel) := layout.xOffset + channel.val * (1 + layout.barSpacing)
    let level (channel : Channel) := ((p.monitor.query now).1.get channel).level
    let level' (channel : Channel) := ((p'.monitor.query now').1.get channel).level
    let drawn := p.drawLevels lcd layout channels now
    let drawn' := p'.drawLevels lcd layout channels now'
    (drawn.fault = none ↔ Meter.CellsFit layout lcd.columns channels) ∧ (drawn.fault = none →
      (∀ channel : Channel, channel.val < channels → column channel < lcd.columns →
        let height := (level channel * Single.ofNat (lcd.rows * 8)).truncate
        ∃ codes, drawn.surface.columnUp (column channel) = codes.map some ∧
          codes.length = lcd.rows ∧ IsColumn codes ∧
          (codes.map (ramp.idxOf ·)).sum =
            if layout.drawBarBases ∧ height = 0 then 1 else height) ∧
      (∀ x < lcd.columns, ∀ y < lcd.rows,
        (∀ channel : Channel, channel.val < channels → column channel ≠ x) →
        drawn.surface.get? x y = some CellPanel.space) ∧
      ∀ channel : Channel, channel.val < channels → column channel < lcd.columns →
        level channel ≤ level' channel → ∀ y < lcd.rows, ∃ code code',
          drawn.surface.get? (column channel) y = some code ∧
          drawn'.surface.get? (column channel) y = some code' ∧
          ramp.idxOf code ≤ ramp.idxOf code') := by
  intro layout column level level' drawn drawn'
  have hsound : Monitor.Sound p.monitor := hmonitor ▸ (Monitor.sound_new h).after history
  have hsound' : Monitor.Sound p'.monitor := hmonitor' ▸ (Monitor.sound_new h).after history'
  have hlevel (channel : Channel) : IsShare (level channel) :=
    (Monitor.isShare_reading hsound now channel).1
  have hlevel' (channel : Channel) : IsShare (level' channel) :=
    (Monitor.isShare_reading hsound' now' channel).1
  have hfits := p.drawLevels_fits hcolumns hrows d hchannels now
  refine ⟨hfits, fun hfault => ?_⟩
  have hfault' : drawn'.fault = none :=
    (p'.drawLevels_fits hcolumns hrows d hchannels now').mpr (hfits.mp hfault)
  obtain ⟨hsize, hcells⟩ := p.drawLevels_get? hcolumns d hchannels now hfault
  obtain ⟨-, hcells'⟩ := p'.drawLevels_get? hcolumns d hchannels now' hfault'
  refine ⟨?_, ?_, ?_⟩
  · intro channel hchannel hcolumn height
    have hheight : Meter.cellHeight layout (level channel) ≤ layout.barHeight * 8 :=
      Meter.cellHeight_le (level channel) hpositive hrows
    obtain ⟨hshape, hsum⟩ := Meter.isColumn_cells hheight
    refine ⟨_, ?_, ?_, hshape, ?_⟩
    · unfold CellPanel.columnUp
      rw [show drawn.surface.rows = lcd.rows from hsize, List.map_map]
      refine List.map_congr_left ?_
      intro fromBottom hfromBottom
      have hin : fromBottom < lcd.rows := List.mem_range.mp hfromBottom
      have hcell := (hcells (column channel) hcolumn (lcd.rows - 1 - fromBottom) (by omega)).1
        channel hchannel rfl
      have hback : lcd.rows - 1 - (lcd.rows - 1 - fromBottom) = fromBottom := by omega
      rw [hback] at hcell
      exact hcell
    · simp
      rfl
    · rw [hsum]
      exact Meter.cellHeight_of_isShare (hlevel channel)
  · intro x hx y hy hnone
    exact (hcells x hx y hy).2 hnone
  · intro channel hchannel hcolumn hle y hy
    refine ⟨_, _, (hcells _ hcolumn y hy).1 channel hchannel rfl,
      (hcells' _ hcolumn y hy).1 channel hchannel rfl, ?_⟩
    apply Meter.idxOf_cellCode_mono
    exact Meter.cellHeight_le_cellHeight (hlevel channel) (hlevel' channel) hle hrows

/-- One channel struck less and more hard, on two rows: the softer bar is seven eighths of a cell
high. -/
theorem drawLevels_cells_strokes :
    let lcd : CellPanel := ⟨20, 2, .replicate 2 (.replicate 20 CellPanel.space), true⟩
    let soft := (forSurface lcd).receive (ShortMessage.noteOn 0 60 80).pack 0
    let hard := (forSurface lcd).receive (ShortMessage.noteOn 0 60 127).pack 0
    let layout := DisplaySettings.unset.meterLayout (.forSurface lcd)
    EnvelopeTimings.standard.Usable ∧
      soft.monitor = (Monitor.new .standard).after
        [.message (ShortMessage.noteOn 0 60 80).pack 0] ∧
      hard.monitor = (Monitor.new .standard).after
        [.message (ShortMessage.noteOn 0 60 127).pack 0] ∧
      (∃ codes, (soft.drawLevels lcd layout 16 0).surface.columnUp 0 = codes.map some ∧
        codes.length = 2 ∧ IsColumn codes ∧ (codes.map (ramp.idxOf ·)).sum = 7) ∧
      ∃ code code', (soft.drawLevels lcd layout 16 0).surface.get? 0 1 = some code ∧
        (hard.drawLevels lcd layout 16 0).surface.get? 0 1 = some code' ∧
        ramp.idxOf code ≤ ramp.idxOf code' := by
  intro lcd soft hard layout
  have hsoft : soft.monitor = (Monitor.new .standard).after
      [.message (ShortMessage.noteOn 0 60 80).pack 0] := rfl
  have hhard : hard.monitor = (Monitor.new .standard).after
      [.message (ShortMessage.noteOn 0 60 127).pack 0] := rfl
  have hheight : (((soft.monitor.query 0).1.get 0).level *
      Single.ofNat (lcd.rows * 8)).truncate = 7 := by
    rw [Monitor.query_level, hsoft]
    decide +kernel
  have hle : ((soft.monitor.query 0).1.get 0).level ≤ ((hard.monitor.query 0).1.get 0).level := by
    rw [Monitor.query_level, Monitor.query_level, hsoft, hhard]
    decide +kernel
  clear_value soft hard
  obtain ⟨hfits, hdrawn⟩ := drawLevels_cells EnvelopeTimings.standard_usable .unset
    (show 0 < lcd.columns by decide) (show 0 < lcd.rows by decide)
    (show lcd.rows ≤ 2 ^ 24 by decide) (show 16 ≤ 16 from le_rfl) hsoft hhard 0 0
  obtain ⟨hcolumn, -, hmono⟩ :=
    hdrawn (hfits.mpr (Meter.cellsFit_of_gap (by decide) (by decide) (by decide) (by decide)))
  refine ⟨EnvelopeTimings.standard_usable, hsoft, hhard, ?_, ?_⟩
  · obtain ⟨codes, hcodes, hlength, hshape, hsum⟩ := hcolumn 0 (by decide) (by decide)
    have hnonzero : ¬(layout.drawBarBases ∧ (((soft.monitor.query 0).1.get 0).level *
        Single.ofNat (lcd.rows * 8)).truncate = 0) := by
      rintro ⟨-, hzero⟩
      rw [hheight] at hzero
      cases hzero
    exact ⟨codes, hcodes, hlength, hshape, hsum.trans ((if_neg hnonzero).trans hheight)⟩
  · exact hmono 0 (by decide) (by decide) hle 1 (by decide)

end Panel
end MidiPanel
