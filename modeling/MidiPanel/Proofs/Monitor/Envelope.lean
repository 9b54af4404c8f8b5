import MidiPanel.Monitor.Channel
import MidiPanel.Proofs.Single.Share
import MidiPanel.Proofs.Tick

/-!
# Bounds on envelopes

Usable timings are finite and greater than zero. Under them every envelope is a share, however short
or long the release is. The release is over, and exactly zero, once its time is reached; with the
standard timings that is the case from the millionth tick on and not before.

Results:
* `isShare_envelope`, `isShare_percussionEnvelope`: envelopes stay between zero and one.
* `release_eq_zero`: nothing is left after the release time.
* `standard_release_eq_zero_iff`: the standard release lasts a million ticks.
-/

namespace MidiPanel

open Single

/-- What timings have to be for levels and peaks to make sense. -/
structure EnvelopeTimings.Usable (timings : EnvelopeTimings) : Prop where
  releaseMs : timings.releaseMs.IsPositive
  holdMs : timings.holdMs.IsPositive
  falloffMs : timings.falloffMs.IsPositive

theorem EnvelopeTimings.standard_usable : EnvelopeTimings.standard.Usable :=
  ⟨by decide +kernel, by decide +kernel, by decide +kernel⟩

/-! ## The eased fall -/

theorem Single.Within.ease {low : Nat} {x : Single} (h : Within false low unitsPerOne x)
    (hl : Fits low) (hd : Fits (unitsPerOne - low)) : Within false low unitsPerOne (ease x) := by
  obtain ⟨m, fm, rfl, h₁, h₂⟩ := h
  have hdiff : ∃ s, Within s 0 (unitsPerOne - low) (finite false m fm - 1) := by
    rw [one_eq]
    rcases Nat.lt_or_eq_of_le h₂ with hlt | rfl
    · exact ⟨true, within_sub_of_lt hlt fits_zero hd (Nat.zero_le _) (by omega)⟩
    · exact ⟨false, within_sub le_rfl fits_zero hd (Nat.zero_le _) (by omega)⟩
  obtain ⟨s, hs⟩ := hdiff
  have hsquare : Within (s != s) 0 (unitsPerOne - low)
      ((finite false m fm - 1) * (finite false m fm - 1)) :=
    hs.mul hs fits_zero hd (by simp) (Nat.mul_le_mul_left _ (Nat.sub_le _ _))
  rw [bne_self_eq_false] at hsquare
  obtain ⟨n, fn, hn, -, hle⟩ := hsquare
  unfold MidiPanel.ease
  rw [hn, one_eq]
  exact within_neg_add (by omega) hl fits_one (by omega) (by omega)

theorem Single.IsShare.ease {x : Single} (h : IsShare x) : IsShare (ease x) :=
  Within.ease h fits_zero fits_one

theorem ease_zero : ease 0 = 0 := by decide +kernel

namespace EnvelopeTimings

/-- The share of the release that is left, before easing. -/
theorem isShare_one_sub_div {m n : Nat} {fm : Fits m} {fn : Fits n} (hn : 0 < n) (h : m ≤ n) :
    IsShare (1 - finite false m fm / finite false n fn) := by
  have hq : IsShare (finite false m fm / finite false n fn) :=
    Within.div ⟨m, fm, rfl, Nat.zero_le m, h⟩ hn fits_zero fits_one (by omega) (by rw [mul_comm])
  obtain ⟨k, fk, hk, -, hle⟩ := hq
  rw [hk, one_eq]
  exact within_sub hle fits_zero fits_one (Nat.zero_le _) (Nat.sub_le _ _)

theorem release_eq {timings : EnvelopeTimings} {span : Tick} {m n : Nat} {fm : Fits m}
    {fn : Fits n} (hm : Tick.toMillis span = finite false m fm)
    (hn : timings.releaseMs = finite false n fn) (hpos : 0 < n) :
    timings.release span =
      MidiPanel.ease (1 - finite false (min m n) (fits_min fm fn) / finite false n fn) := by
  have hleft : IsShare (1 - finite false (min m n) (fits_min fm fn) / finite false n fn) :=
    isShare_one_sub_div hpos (Nat.min_le_right m n)
  obtain ⟨k, fk, hk, -, -⟩ := hleft
  unfold release
  dsimp only
  rw [hm, hn, minimum_finite, hk, maximum_zero]

theorem isShare_release {timings : EnvelopeTimings} (h : timings.releaseMs.IsPositive)
    (span : Tick) : IsShare (timings.release span) := by
  obtain ⟨n, fn, hn, hpos⟩ := h.exists_units
  obtain ⟨m, fm, hm⟩ := Tick.toMillis_finite span
  rw [release_eq hm hn hpos]
  exact IsShare.ease (isShare_one_sub_div hpos (Nat.min_le_right m n))

theorem release_eq_zero {timings : EnvelopeTimings} (h : timings.releaseMs.IsPositive)
    {span : Tick} (hspan : timings.releaseMs ≤ Tick.toMillis span) : timings.release span = 0 := by
  obtain ⟨n, fn, hn, hpos⟩ := h.exists_units
  obtain ⟨m, fm, hm⟩ := Tick.toMillis_finite span
  rw [hm, hn, finite_le_finite] at hspan
  have hleft : Within false 0 0 (1 - finite false n fn / finite false n fn) := by
    rw [finite_div_self hpos, one_eq]
    exact within_sub le_rfl fits_zero fits_zero (Nat.zero_le _) (Nat.sub_self _).le
  rw [release_eq hm hn hpos]
  simp only [min_eq_right hspan]
  rw [hleft.eq_finite fits_zero, ← zero_eq, ease_zero]

theorem isShare_envelope {timings : EnvelopeTimings} (h : timings.releaseMs.IsPositive)
    (note : NoteState) (now : Tick) : IsShare (timings.envelope note now) := by
  unfold envelope
  split
  · exact isShare_zero
  · split
    · exact isShare_one
    · exact isShare_release h _

theorem isShare_percussionEnvelope {timings : EnvelopeTimings} (h : timings.releaseMs.IsPositive)
    (note : NoteState) (now : Tick) : IsShare (timings.percussionEnvelope note now) := by
  unfold percussionEnvelope
  split
  · exact isShare_zero
  · exact isShare_release h _

/-! ## The standard release -/

theorem standard_releaseMs :
    standard.releaseMs = .finite false (1000 * unitsPerOne) (fits_whole (by decide)) :=
  ofNat_eq (n := 1000) (by decide)

/-- One tick before the end of the standard release about a millionth of it is left, and the eased
envelope is still above `2 ^ -20`. -/
theorem within_standard_release {span : Tick} (h : span.toNat < 1000000) :
    Within false (2 ^ 129) unitsPerOne (standard.release span) := by
  have hpos : 0 < 1000 * unitsPerOne := Nat.mul_pos (by decide) unitsPerOne_pos
  -- the bounds are the least fitting ones past 999.999 and 0.999999
  have hrest : Fits (unitsPerOne - 2 ^ 129) :=
    fits_shifted (m := 2 ^ 20 - 1) (k := 129) (by decide) (by decide)
  have hmillis : Within false 0 (1023999 * 2 ^ 139) (Tick.toMillis span) :=
    Tick.within_toMillis span fits_zero (fits_whole (n := 999999) (by decide)) fits_zero
      (fits_shifted (by decide) (by decide)) (Nat.zero_le _) (Nat.mul_le_mul_right _ (by omega))
      (by decide) (by decide)
  obtain ⟨m, fm, hm, -, hle⟩ := hmillis
  have hq : Within false 0 (unitsPerOne - 2 ^ 129) (finite false (min m (1000 * unitsPerOne))
      (fits_min fm (fits_whole (by decide))) / finite false (1000 * unitsPerOne)
      (fits_whole (by decide))) := by
    refine Within.div ⟨_, _, rfl, Nat.zero_le _, le_trans (Nat.min_le_left _ _) hle⟩ hpos fits_zero
      hrest (by simp) ?_
    decide +kernel
  obtain ⟨k, fk, hk, -, hle⟩ := hq
  rw [release_eq hm standard_releaseMs hpos, hk, one_eq]
  have hmargin : 2 ^ 129 ≤ unitsPerOne := by decide
  have hleft : Within false (2 ^ 129) unitsPerOne
      (finite false unitsPerOne fits_one - finite false k fk) :=
    within_sub (by omega) (fits_two_pow (by decide)) fits_one (by omega) (Nat.sub_le _ _)
  exact hleft.ease (fits_two_pow (by decide)) hrest

theorem standard_release_eq_zero {span : Tick} (h : 1000000 ≤ span.toNat) :
    standard.release span = 0 := by
  refine release_eq_zero standard_usable.releaseMs ?_
  obtain ⟨m, fm, hm, hge, -⟩ := Tick.within_toMillis span (fits_whole (n := 1000000) (by decide))
    Tick.fits_turn (fits_whole (n := 1000) (by decide)) Tick.fits_turn (Nat.mul_le_mul_right _ h)
    (Nat.mul_le_mul_right _ span.toNat_lt.le) (by decide) (by omega)
  rw [standard_releaseMs, hm, finite_le_finite]
  exact hge

theorem standard_release_eq_zero_iff {span : Tick} :
    standard.release span = 0 ↔ 1000000 ≤ span.toNat := by
  constructor
  · intro h
    by_contra hlt
    exact (within_standard_release (Nat.not_le.mp hlt)).ne_zero (by decide) h
  · exact standard_release_eq_zero

end EnvelopeTimings
end MidiPanel
