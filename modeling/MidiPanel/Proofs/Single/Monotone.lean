import MidiPanel.Proofs.Single.Share

/-!
# Arithmetic keeps the order of singles

Rounding is monotone, and so is what rounds an exact result that is. The laws are for singles
without a sign, where a result too large for a single is the infinite one, past all others. Whole
numbers are read off singles in order, whatever their sign.

Results:
* `ofUnits_le_ofUnits`: a greater ratio is never rounded to a lesser single.
* `finite_mul_le_finite_mul`, `finite_div_le_finite_div`, `finite_sub_le_finite_sub`: the
  operations.
* `finite_sub_one`, `neg_finite_add_one`: the part of one that a share leaves.
* `round_le_round`, `truncate_le_truncate`: whole numbers.
-/

namespace MidiPanel.Single

open Rounding

theorem finite_le_infinite {m : Nat} {fm : Fits m} : finite false m fm ≤ infinite false := by
  show compareWith _ _ _ = true
  have := fm.2
  simp only [compareWith, rank, decide_eq_true_eq, Bool.false_eq_true, if_false]
  omega

theorem infinite_le_infinite : infinite false ≤ infinite false := by decide +kernel

theorem ofUnits_le_ofUnits {num₁ den₁ num₂ den₂ : Nat} (h₁ : 0 < den₁) (h₂ : 0 < den₂)
    (h : num₁ * den₂ ≤ num₂ * den₁) : ofUnits false num₁ den₁ ≤ ofUnits false num₂ den₂ := by
  have hle : toPrecision 24 num₁ den₁ ≤ toPrecision 24 num₂ den₂ :=
    toPrecision_mono (by decide) h₁ h₂ h
  unfold ofUnits
  dsimp only
  by_cases hfits : toPrecision 24 num₂ den₂ < limit
  · rw [dif_pos hfits, dif_pos (Nat.lt_of_le_of_lt hle hfits)]
    exact finite_le_finite.mpr hle
  · rw [dif_neg hfits]
    split
    · exact finite_le_infinite
    · exact infinite_le_infinite

theorem ofNat_le_ofNat {m n : Nat} (h : m ≤ n) : ofNat m ≤ ofNat n :=
  ofUnits_le_ofUnits Nat.one_pos Nat.one_pos
    (Nat.mul_le_mul_right 1 (Nat.mul_le_mul_right unitsPerOne h))

/-! ## Operations -/

section Operations

variable {m m' n n' : Nat} {fm : Fits m} {fm' : Fits m'} {fn : Fits n} {fn' : Fits n'}

theorem finite_mul_le_finite_mul (hm : m ≤ m') (hn : n ≤ n') :
    finite false m fm * finite false n fn ≤ finite false m' fm' * finite false n' fn' :=
  ofUnits_le_ofUnits unitsPerOne_pos unitsPerOne_pos
    (Nat.mul_le_mul_right unitsPerOne (Nat.mul_le_mul hm hn))

theorem finite_div_le_finite_div (hn : 0 < n) (hm : m ≤ m') :
    finite false m fm / finite false n fn ≤ finite false m' fm' / finite false n fn := by
  rw [finite_div_finite hn, finite_div_finite hn]
  exact ofUnits_le_ofUnits hn hn (Nat.mul_le_mul_right n (Nat.mul_le_mul_right unitsPerOne hm))

theorem finite_sub_finite_of_le (h : n ≤ m) :
    finite false m fm - finite false n fn = ofUnits false (m - n) 1 := by
  rw [finite_sub_finite]
  unfold addFinite
  rw [if_neg (by decide)]
  rcases Nat.lt_or_eq_of_le h with hlt | rfl
  · rw [if_pos hlt]
  · rw [if_neg (Nat.lt_irrefl _), if_neg (Nat.lt_irrefl _), Nat.sub_self]

theorem finite_sub_le_finite_sub (hn : n ≤ n') (hm : n' ≤ m) :
    finite false m fm - finite false n' fn' ≤ finite false m fm - finite false n fn := by
  rw [finite_sub_finite_of_le hm, finite_sub_finite_of_le (Nat.le_trans hn hm)]
  exact ofUnits_le_ofUnits Nat.one_pos Nat.one_pos
    (Nat.mul_le_mul_right 1 (Nat.sub_le_sub_left hn m))

theorem finite_sub_le_finite_sub_of_le (hn : n ≤ m) (hm : m ≤ m') :
    finite false m fm - finite false n fn ≤ finite false m' fm' - finite false n fn := by
  rw [finite_sub_finite_of_le hn, finite_sub_finite_of_le (Nat.le_trans hn hm)]
  exact ofUnits_le_ofUnits Nat.one_pos Nat.one_pos
    (Nat.mul_le_mul_right 1 (Nat.sub_le_sub_right hm n))

end Operations

/-! ## Parts of one -/

theorem ofUnits_eq_of_le (s : Bool) {num den : Nat} (hd : 0 < den)
    (h : num ≤ unitsPerOne * den) :
    toPrecision 24 num den ≤ unitsPerOne ∧
      ∃ f, ofUnits s num den = finite s (toPrecision 24 num den) f := by
  have hle : toPrecision 24 num den ≤ unitsPerOne := toPrecision_le (by decide) hd fits_one.1 h
  exact ⟨hle, _, dif_pos (Nat.lt_of_le_of_lt hle fits_one.2)⟩

/-- The part of one that a share leaves, with a sign that its square does not have. -/
theorem finite_sub_one {m : Nat} (fm : Fits m) (h : m ≤ unitsPerOne) :
    ∃ s, finite false m fm - 1 = ofUnits s (unitsPerOne - m) 1 := by
  rw [one_eq, finite_sub_finite]
  unfold addFinite
  rw [if_neg (by decide), if_neg (Nat.not_lt.mpr h)]
  rcases Nat.lt_or_eq_of_le h with hlt | rfl
  · exact ⟨true, if_pos hlt⟩
  · rw [Nat.sub_self]
    exact ⟨false, if_neg (Nat.lt_irrefl _)⟩

theorem neg_finite_add_one {m : Nat} {fm : Fits m} (h : m ≤ unitsPerOne) :
    -finite false m fm + 1 = ofUnits false (unitsPerOne - m) 1 := by
  rw [one_eq]
  show addFinite true m false unitsPerOne = _
  unfold addFinite
  rw [if_neg (by decide), if_neg (Nat.not_lt.mpr h)]
  rcases Nat.lt_or_eq_of_le h with hlt | rfl
  · exact if_pos hlt
  · rw [Nat.sub_self]
    exact if_neg (Nat.lt_irrefl _)

/-! ## Whole numbers -/

/-- Only infinity is past the infinite single. -/
theorem eq_of_infinite_le {x : Single} (h : infinite false ≤ x) : x = infinite false := by
  replace h : (infinite false).compareWith (fun a b => decide (a ≤ b)) x = true := h
  have hlimit : 0 < limit := by decide +kernel
  unfold compareWith at h
  cases x with
  | nan => cases h
  | infinite s =>
    cases s with
    | false => rfl
    | true =>
      simp only [rank, decide_eq_true_eq, Bool.false_eq_true, if_true, if_false] at h
      omega
  | finite s n fn =>
    have := fn.2
    cases s <;>
      simp only [rank, decide_eq_true_eq, Bool.false_eq_true, if_true, if_false] at h <;> omega

theorem cases_of_finite_le {m : Nat} {fm : Fits m} {x : Single} (h : finite false m fm ≤ x) :
    x = infinite false ∨ (∃ n fn, x = finite false n fn ∧ m ≤ n) ∨ m = 0 := by
  have hrank : (finite false m fm).compareWith (fun a b => decide (a ≤ b)) x = true := h
  have hlimit : 0 < limit := by decide +kernel
  unfold compareWith at hrank
  cases x with
  | nan => cases hrank
  | infinite s =>
    cases s with
    | false => exact .inl rfl
    | true =>
      simp only [rank, decide_eq_true_eq, Bool.false_eq_true, if_true, if_false] at hrank
      omega
  | finite s n fn =>
    cases s with
    | false => exact .inr (.inl ⟨n, fn, rfl, finite_le_finite.mp h⟩)
    | true =>
      simp only [rank, decide_eq_true_eq, Bool.false_eq_true, if_true, if_false] at hrank
      exact .inr (.inr (by omega))

theorem countWith_le_countWith {whole : Nat → Nat} (mono : ∀ m n, m ≤ n → whole m ≤ whole n)
    (zero : whole 0 = 0) {x y : Single} (h : x ≤ y) : countWith whole x ≤ countWith whole y := by
  cases x with
  | nan => exact Nat.zero_le _
  | infinite s =>
    cases s with
    | true => exact Nat.zero_le _
    | false => rw [eq_of_infinite_le h]
  | finite s m fm =>
    cases s with
    | true => exact Nat.zero_le _
    | false =>
      show min (whole m) countLimit ≤ countWith whole y
      obtain rfl | ⟨n, fn, rfl, hle⟩ | rfl := cases_of_finite_le h
      · exact Nat.min_le_right _ _
      · exact min_le_min_right countLimit (mono m n hle)
      · rw [zero]
        exact Nat.le_trans (Nat.min_le_left _ _) (Nat.zero_le _)

theorem truncate_le_truncate {x y : Single} (h : x ≤ y) : x.truncate ≤ y.truncate :=
  countWith_le_countWith (fun _ _ hle => Nat.div_le_div_right hle) (Nat.zero_div _) h

theorem round_le_round {x y : Single} (h : x ≤ y) : x.round ≤ y.round := by
  refine countWith_le_countWith (fun m n hle => ?_) ?_ h
  · exact Nat.div_le_div_right (Nat.add_le_add_right hle _)
  · rw [Nat.zero_add]
    exact Nat.div_eq_of_lt (Nat.div_lt_self unitsPerOne_pos (by decide))

end MidiPanel.Single
