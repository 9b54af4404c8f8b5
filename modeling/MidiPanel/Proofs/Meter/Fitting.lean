import MidiPanel.Proofs.Meter.Calls
import MidiPanel.Proofs.Meter.Heights
import MidiPanel.Monitor.Basic

/-!
# When the geometry of the meter fits in words

The gaps between bars, the columns of bars and the lines of a meter are sums, products and
differences of settings and levels, and a drawing ends at the first of them that no word of 32 bits
holds. Which of them come up depends on the meter: the first bar that crosses the right edge is the
last one looked at, and only bars before it are drawn. Up to `2 ^ 24` rows the levels make no
difference, since none stands higher than the meter.

Results:
* `fits_barPlace_iff`, `fits_barStrokes_iff`, `fits_columnPlace_iff`, `fits_columnStroke_iff`: what
  has to fit for one bar.
* `fits_pixels_iff`, `fits_cells_iff`: what has to fit for a meter, whatever its height.
* `pixelsFit_iff`, `cellsFit_iff`: what has to fit for a meter of at most `2 ^ 24` rows.
* `pixelsFit_of_margin`, `cellsFit_of_gap`: margins that are enough.
-/

namespace MidiPanel

theorem isWord_natCast {n : Nat} : IsWord n ↔ n < UInt32.size := by
  unfold IsWord
  omega

namespace Meter

variable {layout : MeterLayout}

/-! ## One bar -/

theorem fits_barPlace_iff {width channel : Nat} (hwidth : 0 < width) :
    (Stroke.mk (barPlace layout width channel) []).fits = true ↔
      width + layout.barSpacing < UInt32.size ∧
        barLeft layout width channel + width < UInt32.size := by
  have hdistance : channel * (width + layout.barSpacing) ≤ barLeft layout width channel :=
    Nat.le_add_left ..
  rw [Stroke.fits_iff]
  simp only [barPlace, ← Nat.cast_add, ← Nat.cast_mul, List.forall_mem_cons, isWord_natCast]
  unfold IsWord
  simp only [List.not_mem_nil, false_implies, implies_true, and_true]
  omega

theorem fits_barStrokes_iff (hheight : 0 < layout.barHeight)
    (hlast : layout.yOffset + layout.barHeight ≤ UInt32.size) {left right : Nat} {level : Single}
    {peak : Option Single} :
    (∀ stroke ∈ barStrokes layout left right level peak, stroke.fits = true) ↔
      pixelHeight level (layout.barHeight - 1) ≤ layout.barHeight - 1 ∧
        ∀ p ∈ peak, pixelHeight p (layout.barHeight - 1) ≤ layout.barHeight - 1 := by
  unfold barStrokes
  dsimp only
  rw [List.forall_mem_append]
  refine and_congr ?_ ?_
  · generalize pixelHeight level (layout.barHeight - 1) = height
    split
    next hdrawn =>
      simp only [List.forall_mem_singleton, Stroke.fits_iff, List.forall_mem_cons]
      unfold IsWord
      omega
    next hnone =>
      refine iff_of_true (by simp) ?_
      have := not_or.mp hnone
      omega
  · cases peak with
    | none => simp
    | some peak =>
      simp only [Option.mem_some_iff, forall_eq']
      generalize pixelHeight peak (layout.barHeight - 1) = height
      split
      next hdrawn =>
        simp only [List.forall_mem_singleton, Stroke.fits_iff, List.forall_mem_cons]
        unfold IsWord
        omega
      next hnone => exact iff_of_true (by simp) (by omega)

theorem fits_columnPlace_iff {channel : Nat} :
    (Stroke.mk (columnPlace layout channel) []).fits = true ↔
      1 + layout.barSpacing < UInt32.size ∧ barColumn layout channel < UInt32.size := by
  have hdistance : channel * (1 + layout.barSpacing) ≤ barColumn layout channel :=
    Nat.le_add_left ..
  rw [Stroke.fits_iff]
  simp only [columnPlace, ← Nat.cast_one (R := Int), ← Nat.cast_add, ← Nat.cast_mul,
    List.forall_mem_cons, isWord_natCast, List.not_mem_nil, false_implies, implies_true, and_true]
  omega

/-- A bar with a cell that is filled in part has this cell within the lines. -/
theorem fits_columnStroke_iff (hheight : layout.barHeight < UInt32.size) {level : Single} :
    (columnStroke layout level).fits = true ↔
      cellHeight layout level % 8 = 0 ∨ cellHeight layout level / 8 < layout.barHeight := by
  rw [Stroke.fits_iff]
  unfold columnStroke BarGlyph.levelsPerCell
  dsimp only
  split
  next hrest =>
    simp only [List.forall_mem_singleton]
    unfold IsWord
    omega
  next hnone => exact iff_of_true (by simp) (.inl (by omega))

/-! ## All bars -/

theorem fits_pixels_iff (hlast : layout.yOffset + layout.barHeight ≤ UInt32.size)
    {panelWidth channels : Nat}
    {levels peaks : List Single} :
    let width := barWidth panelWidth channels layout.barSpacing
    let top := layout.barHeight - 1
    (∀ stroke ∈ strokes .graphical panelWidth layout levels peaks channels, stroke.fits = true) ↔
      channels * layout.barSpacing < UInt32.size ∧
        ∀ c level, (levels.take channels)[c]? = some level → 0 < width → 0 < layout.barHeight →
          (∀ b < c, barLeft layout width b + width ≤ panelWidth) →
            (width + layout.barSpacing < UInt32.size ∧
              barLeft layout width c + width < UInt32.size) ∧
            (barLeft layout width c + width ≤ panelWidth →
              pixelHeight level top ≤ top ∧ ∀ peak ∈ peaks[c]?, pixelHeight peak top ≤ top) := by
  intro width top
  have hgaps : (gapsStroke channels layout.barSpacing).fits = true ↔
      channels * layout.barSpacing < UInt32.size := by
    rw [Stroke.fits_iff]
    simp only [gapsStroke, ← Nat.cast_mul, List.forall_mem_singleton, isWord_natCast]
  show (∀ stroke ∈ gapsStroke channels layout.barSpacing ::
    pixelStrokes layout panelWidth width levels (some peaks) channels, _) ↔ _
  rw [List.forall_mem_cons, hgaps]
  refine and_congr_right fun _ => ?_
  unfold pixelStrokes
  by_cases hnone : width = 0 ∨ layout.barHeight = 0
  · rw [if_pos hnone]
    exact iff_of_true (by simp) fun c level _ hpos hheight => absurd hnone (by omega)
  · have hpos : 0 < width := by omega
    have hheight : 0 < layout.barHeight := by omega
    have hedge (b : Nat) : decide (panelWidth ≤ barLeft layout width b + width - 1) = false ↔
        barLeft layout width b + width ≤ panelWidth := by
      rw [decide_eq_false_iff_not]
      omega
    have htop : (Stroke.mk [(layout.barHeight : Int) - 1] []).fits = true := by
      rw [Stroke.fits_iff, List.forall_mem_singleton]
      unfold IsWord
      omega
    rw [if_neg hnone, List.forall_mem_cons, and_iff_right htop]
    unfold barsFrom
    rw [forall_mem_sideBySide]
    simp only [Nat.zero_add, hedge, hpos, hheight, true_implies, fits_barPlace_iff hpos,
      fits_barStrokes_iff hheight hlast, Option.bind_some]
    rfl

theorem fits_cells_iff (hlast : layout.yOffset + layout.barHeight ≤ UInt32.size)
    {columns channels : Nat}
    {levels peaks : List Single} :
    (∀ stroke ∈ strokes .character columns layout levels peaks channels, stroke.fits = true) ↔
      layout.barHeight * 8 < UInt32.size ∧
        ∀ c level, (levels.take channels)[c]? = some level → 0 < layout.barHeight →
          (∀ b < c, barColumn layout b < columns) →
            (1 + layout.barSpacing < UInt32.size ∧ barColumn layout c < UInt32.size) ∧
            (barColumn layout c < columns → cellHeight layout level % 8 = 0 ∨
              cellHeight layout level / 8 < layout.barHeight) := by
  have hlines : (Stroke.mk [(layout.barHeight : Int) * (BarGlyph.levelsPerCell : Nat)] []).fits =
      true ↔ layout.barHeight * 8 < UInt32.size := by
    rw [Stroke.fits_iff]
    simp only [← Nat.cast_mul, List.forall_mem_singleton, isWord_natCast]
    rfl
  have hrows (bars : List (Nat × Nat)) :
      ∀ stroke ∈ (List.range layout.barHeight).map (rowStroke layout columns bars),
        stroke.fits = true := by
    intro stroke hstroke
    obtain ⟨row, hrow, rfl⟩ := List.mem_map.mp hstroke
    have hin : row < layout.barHeight := List.mem_range.mp hrow
    rw [Stroke.fits_iff]
    simp only [rowStroke, ← Nat.cast_add, List.forall_mem_singleton, isWord_natCast]
    omega
  have hedge (b : Nat) : decide (columns ≤ barColumn layout b) = false ↔
      barColumn layout b < columns := by
    rw [decide_eq_false_iff_not, Nat.not_le]
  show (∀ stroke ∈ cellStrokes layout columns levels channels, _) ↔ _
  unfold cellStrokes
  by_cases hnone : layout.barHeight = 0
  · rw [if_pos hnone, hnone]
    exact iff_of_true (by simp) ⟨by decide, fun c level _ hheight => absurd hheight (by decide)⟩
  · have hheight : 0 < layout.barHeight := Nat.pos_of_ne_zero hnone
    rw [if_neg hnone]
    dsimp only
    rw [List.cons_append, List.forall_mem_cons, List.forall_mem_append, and_iff_left (hrows _),
      hlines, forall_mem_sideBySide]
    refine and_congr_right fun hfits => ?_
    simp only [Nat.zero_add, hedge, hheight, true_implies, fits_columnPlace_iff,
      List.forall_mem_singleton,
      fits_columnStroke_iff (show layout.barHeight < UInt32.size by omega)]

/-! ## Meters of at most `2 ^ 24` rows -/

/-- The numbers that place bars of pixels fit in words: the gaps, the distance from bar to bar and,
of every bar up to the first that crosses the right edge, the column behind it. -/
def PixelsFit (layout : MeterLayout) (panelWidth channels : Nat) : Prop :=
  let width := barWidth panelWidth channels layout.barSpacing
  channels * layout.barSpacing < UInt32.size ∧
    ∀ c < channels, 0 < width → 0 < layout.barHeight →
      (∀ b < c, barLeft layout width b + width ≤ panelWidth) →
      width + layout.barSpacing < UInt32.size ∧ barLeft layout width c + width < UInt32.size

/-- The numbers that place bars of characters fit in words: the levels of a column, the distance
from bar to bar and, of every bar up to the first that does not lie on the panel, its column. -/
def CellsFit (layout : MeterLayout) (columns channels : Nat) : Prop :=
  layout.barHeight * 8 < UInt32.size ∧
    ∀ c < channels, 0 < layout.barHeight → (∀ b < c, barColumn layout b < columns) →
      1 + layout.barSpacing < UInt32.size ∧ barColumn layout c < UInt32.size

instance (panelWidth channels : Nat) : Decidable (PixelsFit layout panelWidth channels) :=
  inferInstanceAs (Decidable (_ ∧ _))

instance (columns channels : Nat) : Decidable (CellsFit layout columns channels) :=
  inferInstanceAs (Decidable (_ ∧ _))

theorem forall_take_iff {levels : List Single} {channels : Nat} (h : channels ≤ levels.length)
    {P : Nat → Prop} :
    (∀ c level, (levels.take channels)[c]? = some level → P c) ↔ ∀ c < channels, P c := by
  have hlength : (levels.take channels).length = channels := List.length_take_of_le h
  constructor
  · intro hall c hc
    exact hall c _ (List.getElem?_eq_getElem (hlength.symm ▸ hc))
  · intro hall c level hlevel
    exact hall c (hlength ▸ (List.getElem?_eq_some_iff.mp hlevel).1)

section

variable (hheight : layout.barHeight ≤ 2 ^ 24)
  (hlast : layout.yOffset + layout.barHeight ≤ UInt32.size) {panelWidth channels : Nat}
  {levels peaks : List Single} (hlevels : channels ≤ levels.length)

include hheight hlast hlevels

theorem pixelsFit_iff :
    (∀ stroke ∈ strokes .graphical panelWidth layout levels peaks channels, stroke.fits = true) ↔
      PixelsFit layout panelWidth channels := by
  have hlow (level : Single) : pixelHeight level (layout.barHeight - 1) ≤ layout.barHeight - 1 :=
    pixelHeight_le level (by omega)
  refine (fits_pixels_iff hlast).trans ?_
  simp only [hlow, implies_true, and_true]
  exact and_congr_right fun _ => forall_take_iff hlevels

theorem cellsFit_iff :
    (∀ stroke ∈ strokes .character panelWidth layout levels peaks channels, stroke.fits = true) ↔
      CellsFit layout panelWidth channels := by
  have hlow (level : Single) (hpositive : 0 < layout.barHeight) :
      cellHeight layout level % 8 = 0 ∨ cellHeight layout level / 8 < layout.barHeight := by
    have := cellHeight_le level hpositive hheight
    omega
  rw [fits_cells_iff hlast]
  refine and_congr_right fun _ => ?_
  rw [← forall_take_iff hlevels]
  refine forall₄_congr fun c level _ hpositive => ?_
  simp only [hlow level hpositive, implies_true, and_true]

end

/-! ## Margins -/

/-- Bars that have a width lie side by side within the width of the panel. -/
theorem mul_pitch_le {panelWidth channels spacing : Nat}
    (hpos : 0 < barWidth panelWidth channels spacing) :
    channels * (barWidth panelWidth channels spacing + spacing) ≤ panelWidth := by
  unfold barWidth at hpos ⊢
  have hquotient := Nat.mul_div_le (panelWidth - channels * spacing) channels
  have hroom : panelWidth - channels * spacing ≠ 0 := by
    intro hnone
    rw [hnone, Nat.zero_div] at hpos
    omega
  rw [Nat.mul_add]
  omega

/-- Enough for bars of pixels: the gaps fit, and so does the panel behind the margin. -/
theorem pixelsFit_of_margin {panelWidth channels : Nat}
    (hgaps : channels * layout.barSpacing < UInt32.size)
    (hmargin : layout.xOffset + panelWidth < UInt32.size) :
    PixelsFit layout panelWidth channels := by
  refine ⟨hgaps, ?_⟩
  intro c hc hpos _ _
  have hall := mul_pitch_le hpos
  generalize barWidth panelWidth channels layout.barSpacing = width at hpos hall ⊢
  have hnext := Nat.mul_le_mul_right (width + layout.barSpacing) (show c + 1 ≤ channels by omega)
  rw [Nat.add_one_mul] at hnext
  unfold barLeft
  omega

/-- Enough for bars of characters: the margin fits, and so does one gap behind the panel. -/
theorem cellsFit_of_gap {columns channels : Nat}
    (hheight : layout.barHeight * 8 < UInt32.size)
    (hpanel : columns + layout.barSpacing < UInt32.size) (hpos : 0 < columns)
    (hoffset : layout.xOffset < UInt32.size) : CellsFit layout columns channels := by
  refine ⟨hheight, ?_⟩
  intro c _ _ hbefore
  refine ⟨by omega, ?_⟩
  cases c with
  | zero => simpa [barColumn] using hoffset
  | succ c =>
    have hprevious := hbefore c (by omega)
    unfold barColumn at hprevious ⊢
    rw [Nat.add_one_mul]
    omega

end Meter
end MidiPanel
