import MidiPanel.Proofs.Single.Bounds

/-!
# Shares

A share is a single from zero to one without a sign. Shares are closed under products and under the
greater of two; they are totally ordered, and clamping leaves them alone. A positive single is
finite and greater than zero: what a time has to be.

Results:
* `IsShare.mul`, `IsShare.maximum`: the closure laws.
* `IsShare.clamp_eq`: clamping keeps shares.
* `IsPositive.exists_units`: the units of a positive single.
-/

namespace MidiPanel.Single

/-- From zero to one, and without a sign. -/
def IsShare (x : Single) : Prop := Within false 0 unitsPerOne x

theorem isShare_zero : IsShare 0 := ⟨0, fits_zero, zero_eq, le_rfl, Nat.zero_le _⟩

theorem isShare_one : IsShare 1 := ⟨unitsPerOne, fits_one, one_eq, Nat.zero_le _, le_rfl⟩

theorem IsShare.ne_nan {x : Single} (h : IsShare x) : x ≠ .nan := Within.ne_nan h

theorem IsShare.nonneg {x : Single} (h : IsShare x) : 0 ≤ x := by
  obtain ⟨m, fm, rfl, -, -⟩ := h
  rw [zero_eq, finite_le_finite]
  exact Nat.zero_le m

theorem IsShare.le_one {x : Single} (h : IsShare x) : x ≤ 1 := by
  obtain ⟨m, fm, rfl, -, hm⟩ := h
  rwa [one_eq, finite_le_finite]

theorem IsShare.mul {x y : Single} (hx : IsShare x) (hy : IsShare y) : IsShare (x * y) :=
  Within.mul hx hy fits_zero fits_one (by simp) le_rfl

theorem within_zero : Within false 0 0 (0 : Single) := ⟨0, fits_zero, zero_eq, le_rfl, le_rfl⟩

theorem Within.ne_zero {low high : Nat} {x : Single} (h : Within false low high x)
    (hlow : 0 < low) : x ≠ 0 := by
  obtain ⟨m, fm, rfl, hm, -⟩ := h
  rw [zero_eq, Ne, finite.injEq]
  omega

theorem IsShare.zero_mul {x : Single} (h : IsShare x) : 0 * x = 0 := by
  have hmul : Within false 0 0 (0 * x) :=
    within_zero.mul h fits_zero fits_zero (by simp) (by simp)
  rw [hmul.eq_finite fits_zero, zero_eq]

theorem IsShare.mul_zero {x : Single} (h : IsShare x) : x * 0 = 0 := by
  have hmul : Within false 0 0 (x * 0) :=
    Within.mul h within_zero fits_zero fits_zero (by simp) (by simp)
  rw [hmul.eq_finite fits_zero, zero_eq]

theorem IsShare.clamp_eq {x : Single} (h : IsShare x) : x.clamp 0 1 = x := by
  obtain ⟨m, fm, rfl, -, hm⟩ := h
  unfold clamp
  rw [zero_eq, one_eq]
  simp only [finite_lt_finite]
  rw [if_neg (Nat.not_lt_zero m)]
  simp only [finite_lt_finite]
  rw [if_neg (by omega)]

theorem clamp_of_lt_zero {x : Single} (h : x < 0) : x.clamp 0 1 = 0 := by
  unfold clamp
  rw [if_pos h, zero_eq, one_eq]
  simp only [finite_lt_finite]
  exact if_neg (by omega)

/-! ## Order of shares -/

namespace IsShare

variable {x y : Single}

theorem le_refl (hx : IsShare x) : x ≤ x := by
  obtain ⟨m, fm, rfl, -, -⟩ := hx
  exact finite_le_finite.mpr le_rfl

theorem not_le (hx : IsShare x) (hy : IsShare y) : ¬ x ≤ y ↔ y < x := by
  obtain ⟨m, fm, rfl, -, -⟩ := hx
  obtain ⟨n, fn, rfl, -, -⟩ := hy
  rw [finite_le_finite, finite_lt_finite]
  exact Nat.not_le

theorem le_of_lt (hx : IsShare x) (hy : IsShare y) (h : x < y) : x ≤ y := by
  obtain ⟨m, fm, rfl, -, -⟩ := hx
  obtain ⟨n, fn, rfl, -, -⟩ := hy
  rw [finite_lt_finite] at h
  exact finite_le_finite.mpr h.le

theorem trans {z : Single} (hx : IsShare x) (hy : IsShare y) (hz : IsShare z) (h₁ : x ≤ y)
    (h₂ : y ≤ z) : x ≤ z := by
  obtain ⟨m, fm, rfl, -, -⟩ := hx
  obtain ⟨n, fn, rfl, -, -⟩ := hy
  obtain ⟨k, fk, rfl, -, -⟩ := hz
  rw [finite_le_finite] at *
  exact le_trans h₁ h₂

theorem eq_zero_of_not_pos (hx : IsShare x) (h : ¬ 0 < x) : x = 0 := by
  obtain ⟨m, fm, rfl, -, -⟩ := hx
  rw [zero_eq, finite_lt_finite] at h
  obtain rfl : m = 0 := by omega
  exact zero_eq.symm

theorem maximum (hx : IsShare x) (hy : IsShare y) : IsShare (x.maximum y) := by
  obtain ⟨m, fm, rfl, -, hm⟩ := hx
  obtain ⟨n, fn, rfl, -, hn⟩ := hy
  rw [maximum_finite]
  exact ⟨_, _, rfl, Nat.zero_le _, max_le hm hn⟩

theorem maximum_zero (hx : IsShare x) : x.maximum 0 = x := by
  obtain ⟨m, fm, rfl, -, -⟩ := hx
  exact Single.maximum_zero

theorem le_maximum_left (hx : IsShare x) (hy : IsShare y) : x ≤ x.maximum y := by
  obtain ⟨m, fm, rfl, -, -⟩ := hx
  obtain ⟨n, fn, rfl, -, -⟩ := hy
  rw [maximum_finite, finite_le_finite]
  exact le_max_left m n

theorem le_maximum_right (hx : IsShare x) (hy : IsShare y) : y ≤ x.maximum y := by
  obtain ⟨m, fm, rfl, -, -⟩ := hx
  obtain ⟨n, fn, rfl, -, -⟩ := hy
  rw [maximum_finite, finite_le_finite]
  exact le_max_right m n

theorem maximum_eq_left (hx : IsShare x) (hy : IsShare y) (h : y ≤ x) : x.maximum y = x := by
  obtain ⟨m, fm, rfl, -, -⟩ := hx
  obtain ⟨n, fn, rfl, -, -⟩ := hy
  rw [finite_le_finite] at h
  simp only [maximum_finite, max_eq_left h]

theorem maximum_eq_right (hx : IsShare x) (hy : IsShare y) (h : x < y) : x.maximum y = y := by
  obtain ⟨m, fm, rfl, -, -⟩ := hx
  obtain ⟨n, fn, rfl, -, -⟩ := hy
  rw [finite_lt_finite] at h
  simp only [maximum_finite, max_eq_right h.le]

theorem maximum_choice (hx : IsShare x) (hy : IsShare y) : x.maximum y = x ∨ x.maximum y = y := by
  by_cases h : y ≤ x
  · exact .inl (hx.maximum_eq_left hy h)
  · exact .inr (hx.maximum_eq_right hy ((hy.not_le hx).mp h))

end IsShare

/-! ## Positive singles -/

/-- Finite and greater than zero. -/
def IsPositive (x : Single) : Prop := x.isFinite = true ∧ 0 < x

instance (x : Single) : Decidable x.IsPositive := inferInstanceAs (Decidable (_ ∧ _))

theorem IsPositive.exists_units {x : Single} (h : x.IsPositive) :
    ∃ m fm, x = .finite false m fm ∧ 0 < m := by
  obtain ⟨hf, hx⟩ := h
  cases x with
  | nan => exact absurd hf (by decide)
  | infinite s => exact absurd hf Bool.false_ne_true
  | finite s m fm =>
    cases s with
    | false =>
      rw [zero_eq, finite_lt_finite] at hx
      exact ⟨m, fm, rfl, hx⟩
    | true =>
      -- a magnitude below zero is not above it
      have hlt : compareWith (fun a b => decide (a < b)) 0 (.finite true m fm) = true := hx
      rw [zero_eq] at hlt
      simp only [compareWith, rank, decide_eq_true_eq, Bool.false_eq_true, if_true,
        if_false] at hlt
      omega

end MidiPanel.Single
