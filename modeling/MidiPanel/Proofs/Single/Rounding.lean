import MidiPanel.Single.Rounding
import Mathlib.Tactic.Linarith
import Mathlib.Tactic.Ring

/-!
# Rounding is monotone and exact where it can be

A ratio is given by a numerator and a positive denominator, and ratios are compared by cross
products. Rounding to `p` significant bits keeps the order of two ratios and leaves every number of
at most `p` bits alone, so a bound of at most `p` bits on an exact result bounds the rounded one.

Results:
* `toPrecision_mono`: a greater ratio is never rounded to a smaller number.
* `toPrecision_mul_self`: a number of at most `p` bits is its own rounding.
* `toPrecision_le`, `le_toPrecision`: bounds of at most `p` bits survive rounding.
-/

namespace MidiPanel.Rounding

/-! ## To a whole number -/

theorem nearest_mul_self {den : Nat} (h : 0 < den) (n : Nat) : nearest (n * den) den = n := by
  unfold nearest
  dsimp only
  rw [Nat.mul_div_cancel n h, Nat.mul_mod_left, mul_zero, if_pos h]

theorem div_le_div_of_cross {num₁ den₁ num₂ den₂ : Nat} (h₁ : 0 < den₁) (h₂ : 0 < den₂)
    (h : num₁ * den₂ ≤ num₂ * den₁) : num₁ / den₁ ≤ num₂ / den₂ := by
  rw [Nat.le_div_iff_mul_le h₂]
  have hq : num₁ / den₁ * den₁ ≤ num₁ := Nat.div_mul_le_self num₁ den₁
  refine Nat.le_of_mul_le_mul_right ?_ h₁
  calc num₁ / den₁ * den₂ * den₁ = num₁ / den₁ * den₁ * den₂ := by ring
    _ ≤ num₁ * den₂ := Nat.mul_le_mul_right den₂ hq
    _ ≤ num₂ * den₁ := h

/-- Between equal whole parts the rests decide. -/
theorem mod_cross_of_div_eq {num₁ den₁ num₂ den₂ : Nat} (h : num₁ * den₂ ≤ num₂ * den₁)
    (hq : num₁ / den₁ = num₂ / den₂) : num₁ % den₁ * den₂ ≤ num₂ % den₂ * den₁ := by
  have e₁ := Nat.div_add_mod num₁ den₁
  have e₂ := Nat.div_add_mod num₂ den₂
  rw [← hq] at e₂
  generalize num₁ / den₁ = q at *
  generalize num₁ % den₁ = r₁ at *
  generalize num₂ % den₂ = r₂ at *
  subst e₁ e₂
  have : den₁ * q * den₂ + r₁ * den₂ ≤ den₁ * q * den₂ + r₂ * den₁ := by linarith
  omega

theorem nearest_mono {num₁ den₁ num₂ den₂ : Nat} (h₁ : 0 < den₁) (h₂ : 0 < den₂)
    (h : num₁ * den₂ ≤ num₂ * den₁) : nearest num₁ den₁ ≤ nearest num₂ den₂ := by
  rcases Nat.lt_or_eq_of_le (div_le_div_of_cross h₁ h₂ h) with hq | hq
  · calc nearest num₁ den₁ ≤ num₁ / den₁ + 1 := nearest_le num₁ den₁
      _ ≤ num₂ / den₂ := hq
      _ ≤ nearest num₂ den₂ := le_nearest num₂ den₂
  · have hr := mod_cross_of_div_eq h hq
    have above : den₁ < 2 * (num₁ % den₁) → den₂ < 2 * (num₂ % den₂) := by
      intro ha
      by_contra hb
      have := Nat.mul_lt_mul_of_pos_right ha h₂
      have := Nat.mul_le_mul_right den₁ (Nat.le_of_not_lt hb)
      linarith
    have notBelow : den₁ ≤ 2 * (num₁ % den₁) → den₂ ≤ 2 * (num₂ % den₂) := by
      intro ha
      by_contra hb
      have := Nat.mul_le_mul_right den₂ ha
      have := Nat.mul_lt_mul_of_pos_right (Nat.lt_of_not_le hb) h₁
      linarith
    unfold nearest
    dsimp only
    rw [hq]
    split_ifs <;> omega

/-! ## To a number of bits -/

theorem toPrecision_eq (p num den : Nat) :
    toPrecision p num den =
      if num = 0 then 0
      else nearest num (den * 2 ^ droppedBits p num den) * 2 ^ droppedBits p num den := by
  unfold toPrecision
  simp only [Nat.shiftLeft_eq]

theorem hasPrecision_iff {p n : Nat} : HasPrecision p n ↔ ∃ m k, m < 2 ^ p ∧ n = m * 2 ^ k := by
  unfold HasPrecision
  simp only [Nat.shiftLeft_eq, one_mul]

theorem droppedBits_mono {p num₁ den₁ num₂ den₂ : Nat} (h₁ : 0 < den₁) (h₂ : 0 < den₂)
    (h : num₁ * den₂ ≤ num₂ * den₁) : droppedBits p num₁ den₁ ≤ droppedBits p num₂ den₂ := by
  have hq := div_le_div_of_cross h₁ h₂ h
  have hlog : (num₁ / den₁).log2 ≤ (num₂ / den₂).log2 := by
    generalize num₁ / den₁ = q₁ at hq
    generalize num₂ / den₂ = q₂ at hq
    by_cases hz : q₁ = 0
    · rw [hz, Nat.log2_zero]
      exact Nat.zero_le _
    · rw [Nat.le_log2 (by omega)]
      exact le_trans (Nat.log2_self_le hz) hq
  unfold droppedBits
  omega

theorem toPrecision_le_two_pow (p num den : Nat) :
    toPrecision p num den ≤ 2 ^ (p + droppedBits p num den) := by
  have hlt := quotient_lt_of_droppedBits p num den
  rw [Nat.shiftLeft_eq, Nat.one_shiftLeft] at hlt
  have hle := nearest_le num (den * 2 ^ droppedBits p num den)
  rw [toPrecision_eq]
  split
  · exact Nat.zero_le _
  rw [pow_add]
  refine Nat.mul_le_mul_right _ ?_
  omega

/-- A ratio that loses bits is rounded to a number that uses all the bits there are. -/
theorem two_pow_le_toPrecision {p num den : Nat} (hp : 0 < p) (h : 0 < droppedBits p num den) :
    2 ^ (p - 1 + droppedBits p num den) ≤ toPrecision p num den := by
  have hk : (num / den).log2 = p - 1 + droppedBits p num den := by unfold droppedBits at *; omega
  have hq : num / den ≠ 0 := by
    intro hz
    rw [hz, Nat.log2_zero] at hk
    omega
  have hnum : num ≠ 0 := by
    rintro rfl
    exact hq (Nat.zero_div den)
  have hfull : 2 ^ (p - 1) ≤ num / (den * 2 ^ droppedBits p num den) := by
    rw [← Nat.div_div_eq_div_mul, Nat.le_div_iff_mul_le (Nat.two_pow_pos _), ← pow_add, ← hk]
    exact Nat.log2_self_le hq
  rw [toPrecision_eq, if_neg hnum, pow_add]
  exact Nat.mul_le_mul_right _ (le_trans hfull (le_nearest _ _))

theorem toPrecision_mono {p num₁ den₁ num₂ den₂ : Nat} (hp : 0 < p) (h₁ : 0 < den₁)
    (h₂ : 0 < den₂) (h : num₁ * den₂ ≤ num₂ * den₁) :
    toPrecision p num₁ den₁ ≤ toPrecision p num₂ den₂ := by
  rcases Nat.lt_or_eq_of_le (droppedBits_mono (p := p) h₁ h₂ h) with hk | hk
  · -- the two results lie on either side of a power of two
    calc toPrecision p num₁ den₁ ≤ 2 ^ (p + droppedBits p num₁ den₁) :=
          toPrecision_le_two_pow p num₁ den₁
      _ ≤ 2 ^ (p - 1 + droppedBits p num₂ den₂) :=
          Nat.pow_le_pow_right (by decide) (by omega)
      _ ≤ toPrecision p num₂ den₂ := two_pow_le_toPrecision hp (by omega)
  · rw [toPrecision_eq, toPrecision_eq, hk]
    by_cases hz : num₁ = 0
    · rw [if_pos hz]
      exact Nat.zero_le _
    · have hz₂ : num₂ ≠ 0 := by
        rintro rfl
        have : 0 < num₁ * den₂ := Nat.mul_pos (Nat.pos_of_ne_zero hz) h₂
        omega
      rw [if_neg hz, if_neg hz₂]
      refine Nat.mul_le_mul_right _ (nearest_mono (by positivity) (by positivity) ?_)
      calc num₁ * (den₂ * 2 ^ droppedBits p num₂ den₂)
          = num₁ * den₂ * 2 ^ droppedBits p num₂ den₂ := by ring
        _ ≤ num₂ * den₁ * 2 ^ droppedBits p num₂ den₂ := Nat.mul_le_mul_right _ h
        _ = num₂ * (den₁ * 2 ^ droppedBits p num₂ den₂) := by ring

theorem toPrecision_mul_self {p den n : Nat} (hd : 0 < den) (hn : HasPrecision p n) :
    toPrecision p (n * den) den = n := by
  by_cases hz : n = 0
  · simp [toPrecision, hz]
  obtain ⟨m, j, hm, rfl⟩ := hasPrecision_iff.mp hn
  have hk : droppedBits p (m * 2 ^ j * den) den ≤ j := by
    have hlt : m * 2 ^ j < 2 ^ (p + j) := by
      rw [pow_add]
      exact Nat.mul_lt_mul_of_pos_right hm (Nat.two_pow_pos j)
    have hlog := (Nat.log2_lt hz).mpr hlt
    unfold droppedBits
    rw [Nat.mul_div_cancel _ hd]
    omega
  rw [toPrecision_eq, if_neg (by positivity)]
  generalize droppedBits p (m * 2 ^ j * den) den = k at hk
  have hsplit : m * 2 ^ j = m * 2 ^ (j - k) * 2 ^ k := by
    rw [mul_assoc, ← pow_add, Nat.sub_add_cancel hk]
  rw [show m * 2 ^ j * den = m * 2 ^ (j - k) * (den * 2 ^ k) by rw [hsplit]; ring,
    nearest_mul_self (by positivity), ← hsplit]

theorem toPrecision_le {p num den n : Nat} (hp : 0 < p) (hd : 0 < den) (hn : HasPrecision p n)
    (h : num ≤ n * den) : toPrecision p num den ≤ n := by
  have := toPrecision_mono hp hd hd (Nat.mul_le_mul_right den h)
  rwa [toPrecision_mul_self hd hn] at this

theorem le_toPrecision {p num den n : Nat} (hp : 0 < p) (hd : 0 < den) (hn : HasPrecision p n)
    (h : n * den ≤ num) : n ≤ toPrecision p num den := by
  have := toPrecision_mono hp hd hd (Nat.mul_le_mul_right den h)
  rwa [toPrecision_mul_self hd hn] at this

end MidiPanel.Rounding
