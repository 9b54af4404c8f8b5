import MidiPanel.Single.Arithmetic
import MidiPanel.Proofs.Single.Rounding

/-!
# Bounds on singles

An interval arithmetic for finite singles: `Within negative low high x` says that `x` is finite, has
the given sign, and a magnitude from `low` to `high` units. A bound survives an operation if it
holds of the exact result and can itself be represented.

Results:
* `Within.mul`, `Within.div`, `within_sub`, `within_sub_of_lt`, `within_neg_add`: the operations.
* `maximum_finite`, `minimum_finite`: choosing between two magnitudes.
-/

namespace MidiPanel.Single

open Rounding

/-! ## Numbers that fit -/

theorem unitsPerOne_eq : unitsPerOne = 2 ^ 149 := Nat.one_shiftLeft 149

theorem fits_shifted {m k : Nat} (hm : m < 2 ^ 24) (hk : k ≤ 253) : Fits (m * 2 ^ k) := by
  refine ⟨hasPrecision_iff.mpr ⟨m, k, hm, rfl⟩, ?_⟩
  calc m * 2 ^ k < 2 ^ 24 * 2 ^ k := Nat.mul_lt_mul_of_pos_right hm (Nat.two_pow_pos k)
    _ = 2 ^ (24 + k) := (pow_add 2 24 k).symm
    _ = 1 <<< (24 + k) := (Nat.one_shiftLeft _).symm
    _ ≤ limit := shift_le_limit (by omega)

theorem fits_whole {n : Nat} (h : n < 2 ^ 24) : Fits (n * unitsPerOne) := by
  rw [unitsPerOne_eq]
  exact fits_shifted h (by decide)

theorem fits_two_pow {k : Nat} (h : k ≤ 253) : Fits (2 ^ k) := by
  simpa using fits_shifted (m := 1) (by decide) h

theorem fits_zero : Fits 0 := by
  simpa using fits_whole (n := 0) (by decide)

theorem fits_one : Fits unitsPerOne := by
  rw [unitsPerOne_eq]
  exact fits_two_pow (by decide)

theorem unitsPerOne_pos : 0 < unitsPerOne := by decide

/-! ## Rounding within bounds -/

/-- `x` is finite with this sign and a magnitude from `low` to `high` units. -/
def Within (negative : Bool) (low high : Nat) (x : Single) : Prop :=
  ∃ units fits, x = .finite negative units fits ∧ low ≤ units ∧ units ≤ high

theorem within_ofUnits (negative : Bool) {num den low high : Nat} (hd : 0 < den)
    (hl : Fits low) (hh : Fits high) (h₁ : low * den ≤ num) (h₂ : num ≤ high * den) :
    Within negative low high (ofUnits negative num den) := by
  have hle : toPrecision 24 num den ≤ high := toPrecision_le (by decide) hd hh.1 h₂
  have hge : low ≤ toPrecision 24 num den := le_toPrecision (by decide) hd hl.1 h₁
  have hlt : toPrecision 24 num den < limit := lt_of_le_of_lt hle hh.2
  refine ⟨toPrecision 24 num den, ⟨hasPrecision_toPrecision (by decide) num den, hlt⟩, ?_, hge, hle⟩
  unfold ofUnits
  exact dif_pos hlt

theorem Within.mono {negative : Bool} {low high low' high' : Nat} {x : Single}
    (h : Within negative low high x) (hl : low' ≤ low) (hh : high ≤ high') :
    Within negative low' high' x := by
  obtain ⟨units, fits, rfl, h₁, h₂⟩ := h
  exact ⟨units, fits, rfl, le_trans hl h₁, le_trans h₂ hh⟩

theorem Within.ne_nan {negative : Bool} {low high : Nat} {x : Single}
    (h : Within negative low high x) : x ≠ .nan := by
  obtain ⟨units, fits, rfl, -, -⟩ := h
  exact Single.noConfusion

theorem Within.eq_finite {negative : Bool} {n : Nat} {x : Single} (fits : Fits n)
    (h : Within negative n n x) : x = .finite negative n fits := by
  obtain ⟨units, _, rfl, h₁, h₂⟩ := h
  obtain rfl : units = n := le_antisymm h₂ h₁
  rfl

theorem within_ofNat {n low high : Nat} (hl : Fits low) (hh : Fits high)
    (h₁ : low ≤ n * unitsPerOne) (h₂ : n * unitsPerOne ≤ high) :
    Within false low high (ofNat n) :=
  within_ofUnits false Nat.one_pos hl hh (by omega) (by omega)

theorem ofNat_eq {n : Nat} (h : n < 2 ^ 24) :
    ofNat n = .finite false (n * unitsPerOne) (fits_whole h) :=
  (within_ofNat (fits_whole h) (fits_whole h) le_rfl le_rfl).eq_finite _

theorem zero_eq : (0 : Single) = .finite false 0 fits_zero := by
  show ofNat 0 = _
  rw [ofNat_eq (by decide)]
  simp

theorem one_eq : (1 : Single) = .finite false unitsPerOne fits_one := by
  show ofNat 1 = _
  rw [ofNat_eq (by decide)]
  simp

/-! ## Order -/

section Order

variable {m n : Nat} {fm : Fits m} {fn : Fits n}

@[simp] theorem finite_le_finite : finite false m fm ≤ finite false n fn ↔ m ≤ n := by
  show compareWith _ _ _ = true ↔ _
  simp [compareWith, rank]

@[simp] theorem finite_lt_finite : finite false m fm < finite false n fn ↔ m < n := by
  show compareWith _ _ _ = true ↔ _
  simp [compareWith, rank]

theorem negative_lt_finite (h : 0 < m) : finite true m fm < finite false n fn := by
  show compareWith _ _ _ = true
  simp only [compareWith, rank, decide_eq_true_eq, Bool.false_eq_true, if_true, if_false]
  omega

theorem infinite_lt_finite : infinite true < finite false n fn := by
  show compareWith _ _ _ = true
  have := fn.2
  simp only [compareWith, rank, decide_eq_true_eq, Bool.false_eq_true, if_true, if_false]
  omega

theorem finite_lt_infinite : finite false m fm < infinite false := by
  show compareWith _ _ _ = true
  have := fm.2
  simp only [compareWith, rank, decide_eq_true_eq, Bool.false_eq_true, if_false]
  omega

/-- An order between two singles is one between their values. -/
theorem le_iff {x y : Single} : x ≤ y ↔ ∃ a ∈ x.rank, ∃ b ∈ y.rank, a ≤ b := by
  show compareWith _ _ _ = true ↔ _
  unfold compareWith
  cases x.rank <;> cases y.rank <;> simp

theorem lt_iff {x y : Single} : x < y ↔ ∃ a ∈ x.rank, ∃ b ∈ y.rank, a < b := by
  show compareWith _ _ _ = true ↔ _
  unfold compareWith
  cases x.rank <;> cases y.rank <;> simp

/-- What another single is at most is a number, and so equal to itself. -/
theorem le_self_of_le {x y : Single} (h : x ≤ y) : y ≤ y := by
  obtain ⟨-, -, b, hb, -⟩ := le_iff.mp h
  exact le_iff.mpr ⟨b, hb, b, hb, le_rfl⟩

protected theorem le_trans {x y z : Single} (hxy : x ≤ y) (hyz : y ≤ z) : x ≤ z := by
  obtain ⟨a, ha, b, hb, hab⟩ := le_iff.mp hxy
  obtain ⟨b', hb', c, hc, hbc⟩ := le_iff.mp hyz
  obtain rfl := Option.mem_unique hb hb'
  exact le_iff.mpr ⟨a, ha, c, hc, hab.trans hbc⟩

protected theorem not_lt_of_le {x y : Single} (h : x ≤ y) : ¬ y < x := by
  obtain ⟨a, ha, b, hb, hab⟩ := le_iff.mp h
  intro hlt
  obtain ⟨b', hb', a', ha', hba⟩ := lt_iff.mp hlt
  obtain rfl := Option.mem_unique hb hb'
  obtain rfl := Option.mem_unique ha ha'
  omega

theorem fits_max (hm : Fits m) (hn : Fits n) : Fits (max m n) := by
  rcases max_choice m n with h | h <;> rw [h] <;> assumption

theorem fits_min (hm : Fits m) (hn : Fits n) : Fits (min m n) := by
  rcases min_choice m n with h | h <;> rw [h] <;> assumption

theorem maximum_finite : (finite false m fm).maximum (finite false n fn) =
    finite false (max m n) (fits_max fm fn) := by
  show ite _ _ _ = _
  simp only [finite_lt_finite]
  split
  next h => simp only [max_eq_right h.le]
  next h => simp only [max_eq_left (Nat.le_of_not_lt h)]

theorem minimum_finite : (finite false m fm).minimum (finite false n fn) =
    finite false (min m n) (fits_min fm fn) := by
  show ite _ _ _ = _
  simp only [finite_lt_finite]
  split
  next h => simp only [min_eq_right h.le]
  next h => simp only [min_eq_left (Nat.le_of_not_lt h)]

theorem maximum_zero : (finite false m fm).maximum 0 = finite false m fm := by
  simp only [zero_eq, maximum_finite, Nat.max_zero]

end Order

/-! ## Operations -/

section Operations

variable {m n low high : Nat} {fm : Fits m} {fn : Fits n}

theorem Within.mul {s t : Bool} {a b c d : Nat} {x y : Single} (hx : Within s a b x)
    (hy : Within t c d y) (hl : Fits low) (hh : Fits high) (h₁ : low * unitsPerOne ≤ a * c)
    (h₂ : b * d ≤ high * unitsPerOne) : Within (s != t) low high (x * y) := by
  obtain ⟨i, fi, rfl, ha, hb⟩ := hx
  obtain ⟨j, fj, rfl, hc, hd⟩ := hy
  exact within_ofUnits (s != t) unitsPerOne_pos hl hh (le_trans h₁ (Nat.mul_le_mul ha hc))
    (le_trans (Nat.mul_le_mul hb hd) h₂)

theorem finite_div_finite (hn : 0 < n) :
    finite false m fm / finite false n fn = ofUnits false (m * unitsPerOne) n :=
  if_neg (by omega)

theorem Within.div {a b : Nat} {x : Single} (hx : Within false a b x) (hn : 0 < n) (hl : Fits low)
    (hh : Fits high) (h₁ : low * n ≤ a * unitsPerOne) (h₂ : b * unitsPerOne ≤ high * n) :
    Within false low high (x / finite false n fn) := by
  obtain ⟨i, fi, rfl, ha, hb⟩ := hx
  rw [finite_div_finite hn]
  exact within_ofUnits false hn hl hh (le_trans h₁ (Nat.mul_le_mul_right _ ha))
    (le_trans (Nat.mul_le_mul_right _ hb) h₂)

theorem finite_div_self (hn : 0 < n) : finite false n fn / finite false n fn = 1 := by
  have hone : Within false unitsPerOne unitsPerOne (finite false n fn / finite false n fn) :=
    Within.div ⟨n, fn, rfl, le_rfl, le_rfl⟩ hn fits_one fits_one (by rw [mul_comm])
      (by rw [mul_comm])
  rw [hone.eq_finite fits_one, one_eq]

/-- A quotient by a small number may be infinite. -/
theorem finite_div_cases (fm : Fits m) (fn : Fits n) (hn : 0 < n) :
    (∃ k fk, finite false m fm / finite false n fn = finite false k fk) ∨
      finite false m fm / finite false n fn = infinite false := by
  rw [finite_div_finite hn]
  unfold ofUnits
  dsimp only
  split
  next h => exact .inl ⟨_, ⟨hasPrecision_toPrecision (by decide) _ _, h⟩, rfl⟩
  next => exact .inr rfl

theorem finite_sub_finite :
    finite false m fm - finite false n fn = addFinite false m true n := rfl

theorem within_sub (h : n ≤ m) (hl : Fits low) (hh : Fits high) (h₁ : low ≤ m - n)
    (h₂ : m - n ≤ high) : Within false low high (finite false m fm - finite false n fn) := by
  rw [finite_sub_finite]
  unfold addFinite
  rw [if_neg (by decide)]
  split
  · exact within_ofUnits false Nat.one_pos hl hh (by omega) (by omega)
  · rw [if_neg (by omega)]
    exact within_ofUnits false Nat.one_pos hl hh (by omega) (by omega)

theorem within_sub_of_lt (h : m < n) (hl : Fits low) (hh : Fits high) (h₁ : low ≤ n - m)
    (h₂ : n - m ≤ high) : Within true low high (finite false m fm - finite false n fn) := by
  rw [finite_sub_finite]
  unfold addFinite
  rw [if_neg (by decide), if_neg (by omega), if_pos h]
  exact within_ofUnits true Nat.one_pos hl hh (by omega) (by omega)

theorem within_neg_add (h : m ≤ n) (hl : Fits low) (hh : Fits high) (h₁ : low ≤ n - m)
    (h₂ : n - m ≤ high) : Within false low high (-finite false m fm + finite false n fn) := by
  show Within false low high (addFinite true m false n)
  unfold addFinite
  rw [if_neg (by decide), if_neg (by omega)]
  split
  · exact within_ofUnits false Nat.one_pos hl hh (by omega) (by omega)
  · exact within_ofUnits false Nat.one_pos hl hh (by omega) (by omega)

end Operations

end MidiPanel.Single
