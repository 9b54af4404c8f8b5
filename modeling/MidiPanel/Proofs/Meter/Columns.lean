import MidiPanel.Proofs.Meter.Fitting
import MidiPanel.Proofs.Meter.Pixels
import MidiPanel.Proofs.Surface.Willing

/-!
# The columns of the bars

The width of the bars is what the gaps leave of a panel, divided among the channels; the bars are
then placed behind a margin, with a gap behind each of them. Since their places rise from channel to
channel, the bars that end before the right edge are the first ones. As many gaps are left out of
the width as there are bars, and only those between them are used, so that a margin of one gap has
room and no bar is lost.

Results:
* `lt_countP_range_iff`: which bars end before the right edge, if so many of them do.
* `barCallsFrom_eq_flatMap`, `pixelCalls_eq_flatMap`: the meter is made of the bars that do.
* `covers_column_barCalls`: the columns of one bar.
* `barLeft_add_width_le`: a margin of one gap loses no bar.
* `bars_side_by_side`: the bars of a meter, and where they stand.
-/

namespace MidiPanel

namespace Meter

variable {layout : MeterLayout}

/-! ## The bars that fit -/

/-- What holds of fewer holds of the first ones, and of as many as it holds of at all. -/
theorem lt_countP_range_iff {p : Nat → Bool} (hdown : ∀ b c, b ≤ c → p c = true → p b = true)
    {n c : Nat} : c < (List.range n).countP p ↔ c < n ∧ p c = true := by
  induction n generalizing c with
  | zero => simp
  | succ n ih =>
    rw [List.range_succ, List.countP_append, List.countP_singleton]
    split
    next hlast =>
      -- the last one holds, and so do all before it
      have hall : (List.range n).countP p = n := by
        rw [List.countP_eq_length.mpr, List.length_range]
        intro b hb
        exact hdown b n (List.mem_range.mp hb).le hlast
      rw [hall]
      exact ⟨fun hc => ⟨hc, hdown c n (Nat.le_of_lt_succ hc) hlast⟩, And.left⟩
    next hlast =>
      rw [Nat.add_zero, ih]
      refine and_congr_left fun hc => ⟨Nat.lt_succ_of_lt, fun hle => ?_⟩
      refine Nat.lt_of_le_of_ne (Nat.le_of_lt_succ hle) ?_
      rintro rfl
      exact hlast hc

/-- The bars from `channel` on are those that end before the right edge. -/
theorem barCallsFrom_eq_flatMap {panelWidth width : Nat} (hwidth : 0 < width)
    {peak? : Nat → Option Single} {channel : Nat} {levels : List Single} :
    barCallsFrom layout panelWidth width peak? channel levels =
      ((levels.zipIdx channel).take ((List.range levels.length).countP
        fun i => barLeft layout width (channel + i) + width ≤ panelWidth)).flatMap fun bar =>
          barCalls layout (barLeft layout width bar.2) (barLeft layout width bar.2 + width - 1)
            bar.1 (peak? bar.2) := by
  induction levels generalizing channel with
  | nil => rfl
  | cons level levels ih =>
    have hsucc :
        (fun i => decide (barLeft layout width (channel + i) + width ≤ panelWidth)) ∘ Nat.succ =
          fun i => decide (barLeft layout width (channel + 1 + i) + width ≤ panelWidth) := by
      funext i
      rw [Function.comp_apply, Nat.succ_eq_add_one, Nat.add_right_comm, Nat.add_assoc]
    rw [barCallsFrom_cons, List.length_cons, List.range_succ_eq_map, List.countP_cons,
      List.countP_map, hsucc, List.zipIdx_cons]
    simp only [Nat.add_zero]
    split
    next hout =>
      have hnone : ¬decide (barLeft layout width channel + width ≤ panelWidth) = true := by
        simp only [decide_eq_true_eq]
        omega
      have hrest : (List.range levels.length).countP
          (fun i => barLeft layout width (channel + 1 + i) + width ≤ panelWidth) = 0 := by
        rw [List.countP_eq_zero]
        intro i _
        have := barLeft_mono layout width (show channel ≤ channel + 1 + i by omega)
        simp only [decide_eq_true_eq]
        omega
      rw [hrest, if_neg hnone]
      rfl
    next hin =>
      have hfits : barLeft layout width channel + width ≤ panelWidth := by omega
      rw [if_pos (decide_eq_true hfits), List.take_succ_cons, List.flatMap_cons, ih]

/-- The meter is made of the first bars, as many as end before the right edge. -/
theorem pixelCalls_eq_flatMap {panelWidth width channels : Nat} (hwidth : 0 < width)
    (hheight : 0 < layout.barHeight) {levels : List Single} (hlevels : channels ≤ levels.length)
    (peaks : Option (List Single)) :
    pixelCalls layout panelWidth width levels peaks channels =
      ((levels.take channels).zipIdx.take ((List.range channels).countP
        fun c => barLeft layout width c + width ≤ panelWidth)).flatMap fun bar =>
          barCalls layout (barLeft layout width bar.2) (barLeft layout width bar.2 + width - 1)
            bar.1 (peaks.bind (·[bar.2]?)) := by
  rw [pixelCalls_eq, if_neg (by omega), barCallsFrom_eq_flatMap hwidth, List.length_take,
    Nat.min_eq_left hlevels]
  simp only [Nat.zero_add]

/-! ## The columns of a bar -/

/-- With its base, a bar and its cap cover the columns between its edges, and no others. -/
theorem covers_column_barCalls {left right : Nat} (hle : left ≤ right)
    (hbases : layout.drawBarBases = true) (level : Single) (peak : Option Single) (x : Nat) :
    (∃ call ∈ barCalls layout left right level peak, ∃ y, call.Covers x y) ↔
      left ≤ x ∧ x ≤ right := by
  constructor
  · rintro ⟨call, hcall, y, hcovers⟩
    obtain ⟨stroke, hstroke, hmade⟩ := List.mem_flatMap.mp hcall
    obtain ⟨level', extent, -, -, hbar⟩ := isBar_of_mem_barStrokes hstroke
    rw [hbar] at hmade
    rw [List.mem_singleton.mp hmade] at hcovers
    obtain ⟨hcolumn, -⟩ := hcovers
    rwa [Nat.min_eq_left hle, Nat.max_eq_right hle] at hcolumn
  · intro hx
    let height := pixelHeight level (layout.barHeight - 1)
    let upper := layout.yOffset + (layout.barHeight - 1 - height)
    refine ⟨.fillRect left upper right (upper + height), ?_, upper, ?_⟩
    · rw [barCalls_eq]
      refine List.mem_append_left _ ?_
      rw [if_pos (.inr hbases)]
      exact List.mem_singleton_self _
    · show (min left right ≤ x ∧ x ≤ max left right) ∧
        (min upper (upper + height) ≤ upper ∧ upper ≤ max upper (upper + height))
      omega

/-! ## All bars -/

theorem barLeft_succ (layout : MeterLayout) (width channel : Nat) :
    barLeft layout width (channel + 1) =
      barLeft layout width channel + width + layout.barSpacing := by
  unfold barLeft
  rw [Nat.add_one_mul]
  omega

/-- Behind a margin of one gap, all bars end before the right edge. -/
theorem barLeft_add_width_le {panelWidth channels : Nat}
    (hpos : 0 < barWidth panelWidth channels layout.barSpacing)
    (hmargin : layout.xOffset ≤ layout.barSpacing) {channel : Nat} (h : channel < channels) :
    let width := barWidth panelWidth channels layout.barSpacing
    barLeft layout width channel + width ≤ panelWidth := by
  intro width
  have hall : channels * (width + layout.barSpacing) ≤ panelWidth := mul_pitch_le hpos
  have hbars : (channel + 1) * (width + layout.barSpacing) ≤
      channels * (width + layout.barSpacing) := Nat.mul_le_mul_right _ h
  rw [Nat.add_one_mul] at hbars
  unfold barLeft
  omega

/-- A meter of `n` bars that draws their bases, and whose drawing neither overflows nor is refused a
call. With `k` the number of bars that end before the right edge, it is made of the first `k` bars,
in order; each of them covers as many columns as it is wide, from its left edge on, and from one to
the next there is one gap. A margin of at most one gap loses none of them. -/
theorem bars_side_by_side {σ : Type} [Surface σ] {lcd : σ} {n : Nat} {levels : List Single}
    {peaks : Option (List Single)} (hlevels : n ≤ levels.length)
    (hheight : 0 < layout.barHeight) (hbases : layout.drawBarBases = true)
    (hwidth : 0 < barWidth (Surface.width lcd) n layout.barSpacing)
    (hdrawn : (Stroke.draw (⟨lcd, []⟩ : Traced σ) (pixelStrokes layout (Surface.width lcd)
      (barWidth (Surface.width lcd) n layout.barSpacing) levels peaks n)).2 = none) :
    let panelWidth := Surface.width lcd
    let width := barWidth panelWidth n layout.barSpacing
    let left (c : Nat) := layout.xOffset + c * (width + layout.barSpacing)
    let bar (level : Single) (c : Nat) :=
      barCalls layout (left c) (left c + width - 1) level (peaks.bind (·[c]?))
    let k := (List.range n).countP fun c => left c + width ≤ panelWidth
    (Stroke.draw (⟨lcd, []⟩ : Traced σ)
        (pixelStrokes layout panelWidth width levels peaks n)).1.calls.reverse =
      ((levels.take n).zipIdx.take k).flatMap (fun p => bar p.1 p.2) ∧
    (∀ c < n, c < k ↔ left c + width ≤ panelWidth) ∧
    (∀ level c x, (∃ call ∈ bar level c, ∃ y, call.Covers x y) ↔
      left c ≤ x ∧ x ≤ left c + width - 1) ∧
    (∀ c, left (c + 1) = left c + width + layout.barSpacing) ∧
    (∀ b c, b < c → left b + width + layout.barSpacing ≤ left c) ∧
    (layout.xOffset ≤ layout.barSpacing → k = n) := by
  intro panelWidth width left bar k
  have hpos : 0 < width := hwidth
  have hmono {b c : Nat} (h : b ≤ c) : left b ≤ left c := barLeft_mono layout width h
  have hnext : ∀ c, left (c + 1) = left c + width + layout.barSpacing := barLeft_succ layout width
  have hfits {c : Nat} : c < k ↔ c < n ∧ left c + width ≤ panelWidth := by
    refine (lt_countP_range_iff ?_).trans (and_congr_right fun _ => decide_eq_true_iff)
    intro b c hle hc
    have := hmono hle
    simp only [decide_eq_true_eq] at hc ⊢
    omega
  refine ⟨?_, fun c hc => hfits.trans (and_iff_right hc), ?_, hnext, ?_, ?_⟩
  · have hrun := Stroke.draw_of_fits (⟨lcd, []⟩ : Traced σ) (Stroke.fits_of_draw hdrawn)
    rw [hrun] at hdrawn ⊢
    rw [Traced.calls_run hdrawn, List.append_nil, List.reverse_reverse]
    exact pixelCalls_eq_flatMap hpos hheight hlevels peaks
  · intro level c x
    exact covers_column_barCalls (show left c ≤ left c + width - 1 by omega) hbases level _ x
  · intro b c hbc
    exact (hnext b).symm.le.trans (hmono hbc)
  · intro hmargin
    have hall : (List.range n).countP (fun c => left c + width ≤ panelWidth) =
        (List.range n).length := by
      rw [List.countP_eq_length]
      intro c hc
      exact decide_eq_true (barLeft_add_width_le hwidth hmargin (List.mem_range.mp hc))
    exact hall.trans List.length_range

/-- Sixteen full bars behind a margin of ten pixels: the last of them would cross the edge, and
fifteen are drawn. -/
theorem bars_side_by_side_margin :
    let layout : MeterLayout := ⟨10, 0, 2, 32, true⟩
    let lcd : Recorder := ⟨.graphical, 128, 32, [], #[]⟩
    let levels := List.replicate 16 (1 : Single)
    let width := barWidth 128 16 2
    let left (c : Nat) := 10 + c * (width + 2)
    let drawn := Stroke.draw (⟨lcd, []⟩ : Traced Recorder)
      (pixelStrokes layout 128 width levels none 16)
    16 ≤ levels.length ∧ 0 < layout.barHeight ∧ layout.drawBarBases = true ∧ 0 < width ∧
      drawn.2 = none ∧
      drawn.1.calls.reverse = ((levels.take 16).zipIdx.take 15).flatMap
        fun p => barCalls layout (left p.2) (left p.2 + width - 1) p.1 none := by
  intro layout lcd levels width left drawn
  have hdrawn : drawn.2 = none := by decide +kernel
  have hcount : (List.range 16).countP (fun c => left c + width ≤ 128) = 15 := by decide
  obtain ⟨hcalls, -⟩ := @bars_side_by_side layout Recorder _ lcd 16 levels none
    (by decide) (by decide) rfl (by decide) hdrawn
  refine ⟨by decide, by decide, rfl, by decide, hdrawn, ?_⟩
  rw [← hcount]
  exact hcalls

end Meter
end MidiPanel
