/-!
# Rounding a ratio to a given number of significant bits

`toPrecision p num den` is the natural number nearest to `num / den` among those that have at most
`p` significant bits; halfway cases go to the even neighbour. Binary floating point of precision
`p` is this function applied once to an exact ratio.

Results:
* `nearest_le`: rounding to a whole number moves up by less than one.
* `hasPrecision_toPrecision`: the result has at most `p` significant bits.
-/

namespace MidiPanel.Rounding

/-- The natural number nearest to `num / den`; a half goes to the even neighbour. -/
def nearest (num den : Nat) : Nat :=
  let quotient := num / den
  let rest := num % den
  if 2 * rest < den then quotient
  else if den < 2 * rest then quotient + 1
  else quotient + quotient % 2

/-- The number of low bits that a whole part of this size cannot keep at precision `p`. -/
def droppedBits (p num den : Nat) : Nat := (num / den).log2 + 1 - p

/-- The number with at most `p` significant bits that is nearest to `num / den`; zero is exact. -/
def toPrecision (p num den : Nat) : Nat :=
  if num = 0 then 0
  else
    let k := droppedBits p num den
    nearest num (den <<< k) <<< k

/-- `n` is a whole number of at most `p` significant bits. -/
def HasPrecision (p n : Nat) : Prop := ∃ m k, m < 1 <<< p ∧ n = m <<< k

theorem nearest_le (num den : Nat) : nearest num den ≤ num / den + 1 := by
  unfold nearest
  dsimp only
  split
  · omega
  · split <;> omega

theorem le_nearest (num den : Nat) : num / den ≤ nearest num den := by
  unfold nearest
  dsimp only
  split
  · omega
  · split <;> omega

theorem quotient_lt_of_droppedBits (p num den : Nat) :
    num / (den <<< droppedBits p num den) < 1 <<< p := by
  rw [Nat.shiftLeft_eq, Nat.one_shiftLeft, ← Nat.div_div_eq_div_mul]
  apply Nat.div_lt_of_lt_mul
  rw [← Nat.pow_add]
  refine Nat.lt_of_lt_of_le Nat.lt_log2_self (Nat.pow_le_pow_right (by decide) ?_)
  unfold droppedBits
  omega

theorem hasPrecision_of_le {p m : Nat} (k : Nat) (hp : 0 < p) (hm : m ≤ 1 <<< p) :
    HasPrecision p (m <<< k) := by
  rcases Nat.lt_or_eq_of_le hm with h | h
  · exact ⟨m, k, h, rfl⟩
  · refine ⟨1 <<< (p - 1), k + 1, ?_, ?_⟩
    · rw [Nat.one_shiftLeft, Nat.one_shiftLeft]
      exact Nat.pow_lt_pow_right (by decide) (by omega)
    rw [h, ← Nat.shiftLeft_add, ← Nat.shiftLeft_add]
    congr 1
    omega

theorem hasPrecision_toPrecision {p : Nat} (hp : 0 < p) (num den : Nat) :
    HasPrecision p (toPrecision p num den) := by
  unfold toPrecision
  split
  · exact ⟨0, 0, by rw [Nat.one_shiftLeft]; exact Nat.two_pow_pos p, rfl⟩
  refine hasPrecision_of_le _ hp ?_
  have h₁ := nearest_le num (den <<< droppedBits p num den)
  have h₂ := quotient_lt_of_droppedBits p num den
  omega

end MidiPanel.Rounding
