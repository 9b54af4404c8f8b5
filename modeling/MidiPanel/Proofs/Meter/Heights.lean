import MidiPanel.Meter.Bars
import MidiPanel.Proofs.Single.Share

/-!
# How high levels stand

A level is clamped, multiplied by the height of the meter, and made a whole number. In a meter of at
most `2 ^ 24` rows none stands higher than the meter, whatever it is: what is no number has no
height, and the product of a share and a whole number that singles tell exactly does not exceed that
number.

Results:
* `Single.clamp_cases`: what clamping leads to.
* `pixelHeight_le`, `cellHeight_le`: how high a level stands at most.
-/

namespace MidiPanel

namespace Single

/-- Clamping leads to a share, unless it leaves a negative zero or what is no number. -/
theorem clamp_cases (x : Single) :
    x.clamp 0 1 = .nan ∨ Within true 0 0 (x.clamp 0 1) ∨ IsShare (x.clamp 0 1) := by
  by_cases hzero : x < 0
  · rw [clamp_of_lt_zero hzero]
    exact .inr (.inr isShare_zero)
  by_cases hone : 1 < x
  · have hclamp : x.clamp 0 1 = 1 := by
      unfold clamp
      rw [if_neg hzero, if_pos hone]
    rw [hclamp]
    exact .inr (.inr isShare_one)
  have hclamp : x.clamp 0 1 = x := by
    unfold clamp
    rw [if_neg hzero, if_neg hone]
  rw [hclamp]
  rw [zero_eq] at hzero
  rw [one_eq] at hone
  cases x with
  | nan => exact .inl rfl
  | infinite negative =>
    cases negative with
    | false => exact absurd finite_lt_infinite hone
    | true => exact absurd infinite_lt_finite hzero
  | finite negative units fits =>
    cases negative with
    | false =>
      rw [finite_lt_finite] at hone
      exact .inr (.inr ⟨units, fits, rfl, Nat.zero_le units, Nat.le_of_not_lt hone⟩)
    | true =>
      have hunits : units ≤ 0 := by
        by_contra hpos
        exact hzero (negative_lt_finite (Nat.lt_of_not_le hpos))
      exact .inr (.inl ⟨units, fits, rfl, Nat.zero_le units, hunits⟩)

theorem add_half_div_le {units one high : Nat} (h : units ≤ high * one) (hone : 0 < one) :
    (units + one / 2) / one ≤ high := by
  have hhalf : one / 2 < one := Nat.div_lt_self hone (by decide)
  rw [← Nat.lt_add_one_iff, Nat.div_lt_iff_lt_mul hone, Nat.add_mul, Nat.one_mul]
  omega

theorem round_le {x : Single} {high : Nat} (h : Within false 0 (high * unitsPerOne) x) :
    x.round ≤ high := by
  obtain ⟨units, fits, rfl, -, hunits⟩ := h
  -- The whole part of a sum must not be computed, so that `round` is opened by rewriting.
  simp only [round, countWith, Bool.false_eq_true, if_false]
  exact le_trans (Nat.min_le_left _ _) (add_half_div_le hunits unitsPerOne_pos)

theorem round_of_negative {x : Single} {low high : Nat} (h : Within true low high x) :
    x.round = 0 := by
  obtain ⟨units, fits, rfl, -, -⟩ := h
  rfl

theorem fits_whole_eighths {n : Nat} (h : n ≤ 2 ^ 24) : Fits (n * 8 * unitsPerOne) := by
  have hunits : n * 8 * unitsPerOne = n * 2 ^ 152 := by
    rw [unitsPerOne_eq]
    omega
  rw [hunits]
  rcases Nat.lt_or_eq_of_le h with hlt | rfl
  · exact fits_shifted hlt (by decide)
  · rw [← pow_add]
    exact fits_two_pow (by decide)

theorem truncate_le {x : Single} {high : Nat} (h : Within false 0 (high * unitsPerOne) x) :
    x.truncate ≤ high := by
  obtain ⟨units, fits, rfl, -, hunits⟩ := h
  simp only [truncate, countWith, Bool.false_eq_true, if_false]
  exact le_trans (Nat.min_le_left _ _) (Nat.div_le_of_le_mul (by rwa [Nat.mul_comm]))

theorem truncate_of_negative {x : Single} {low high : Nat} (h : Within true low high x) :
    x.truncate = 0 := by
  obtain ⟨units, fits, rfl, -, -⟩ := h
  rfl

end Single

namespace Meter

open Single

/-- No level stands higher than a meter of pixels. -/
theorem pixelHeight_le (level : Single) {top : Nat} (h : top < 2 ^ 24) :
    pixelHeight level top ≤ top := by
  have htop : Within false 0 (top * unitsPerOne) (Single.ofNat top) :=
    within_ofNat fits_zero (fits_whole h) (Nat.zero_le _) le_rfl
  unfold pixelHeight
  rcases level.clamp_cases with hnan | hnegative | hshare
  · rw [hnan]
    exact Nat.zero_le top
  · have hproduct : Within true 0 0 (level.clamp 0 1 * Single.ofNat top) :=
      hnegative.mul htop fits_zero fits_zero (by simp) (by simp)
    rw [round_of_negative hproduct]
    exact Nat.zero_le top
  · have hproduct : Within false 0 (top * unitsPerOne) (level.clamp 0 1 * Single.ofNat top) :=
      Within.mul hshare htop fits_zero (fits_whole h) (by simp) (by rw [Nat.mul_comm])
    exact round_le hproduct

/-- No level stands higher than a meter of cells. -/
theorem cellHeight_le {layout : MeterLayout} (level : Single) (hpositive : 0 < layout.barHeight)
    (h : layout.barHeight ≤ 2 ^ 24) : cellHeight layout level ≤ layout.barHeight * 8 := by
  have hfits := fits_whole_eighths h
  have htop : Within false 0 (layout.barHeight * 8 * unitsPerOne)
      (Single.ofNat (layout.barHeight * 8)) :=
    within_ofNat fits_zero hfits (Nat.zero_le _) le_rfl
  have hheight : (level.clamp 0 1 * Single.ofNat (layout.barHeight * 8)).truncate ≤
      layout.barHeight * 8 := by
    rcases level.clamp_cases with hnan | hnegative | hshare
    · rw [hnan]
      exact Nat.zero_le _
    · have hproduct := hnegative.mul htop fits_zero fits_zero (by simp) (by simp)
      rw [truncate_of_negative hproduct]
      exact Nat.zero_le _
    · exact truncate_le (Within.mul hshare htop fits_zero hfits (by simp) (by rw [Nat.mul_comm]))
  unfold cellHeight BarGlyph.levelsPerCell
  dsimp only
  split
  · omega
  · exact hheight

end Meter
end MidiPanel
