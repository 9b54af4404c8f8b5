import MidiPanel.Tick
import MidiPanel.Proofs.Single.Monotone
import Mathlib.Algebra.Group.Nat.Defs

/-!
# Ticks and time

Time is a count of microseconds without a bound; a tick is what the counter reads of it. Spans and
orders of readings are those of time modulo a turn of the counter, and they depend on differences
only: a shift of all readings by the same amount changes neither.

An order is judged by the sign of a difference. As a signed word, the difference of two readings is
the one of their times that lies between half a turn back, which it includes, and half a turn ahead,
which it does not.

Results:
* `toNat_elapsed_reading`, `le_elapsed_reading_iff`, `isBefore_reading`: spans and orders of
  readings, in terms of time.
* `elapsed_add`, `isBefore_add`: spans and orders do not notice a shift.
* `isBefore_iff_toInt32_neg`, `toInt_sub_reading`: differences as signed words.
* `elapsed_ofMillis`, `within_toMillis`, `toMillis_mono`: from and to milliseconds.
* `readings_tell_time`: what readings tell of time.
-/

namespace MidiPanel.Tick

open Single

/-- What the counter reads when `micros` microseconds have passed. -/
def reading (micros : Nat) : Tick := UInt32.ofNat micros

theorem reading_inj {time time' : Nat} (h : time < 2 ^ 32) (h' : time' < 2 ^ 32)
    (heq : reading time = reading time') : time = time' := by
  have hmod := congrArg UInt32.toNat heq
  unfold reading at hmod
  rwa [UInt32.toNat_ofNat', UInt32.toNat_ofNat', Nat.mod_eq_of_lt h, Nat.mod_eq_of_lt h'] at hmod

theorem elapsed_self (now : Tick) : elapsed now now = 0 := UInt32.sub_self now

theorem toNat_elapsed_reading {since now : Nat} (h : since ≤ now) :
    (elapsed (reading now) (reading since)).toNat = (now - since) % 2 ^ 32 := by
  unfold elapsed reading
  rw [UInt32.toNat_sub, UInt32.toNat_ofNat', UInt32.toNat_ofNat']
  omega

/-- Less than a turn of the counter behind `since`, a span has passed when it has. -/
theorem le_elapsed_reading_iff {span : Tick} {since now : Nat} (h : since ≤ now)
    (hturn : now < since + 2 ^ 32) :
    span ≤ elapsed (reading now) (reading since) ↔ since + span.toNat ≤ now := by
  rw [UInt32.le_iff_toNat_le, toNat_elapsed_reading h, Nat.mod_eq_of_lt (by omega)]
  omega

theorem toNat_elapsed_reading_of_le {since now : Nat} (h : now ≤ since) :
    (elapsed (reading now) (reading since)).toNat =
      (2 ^ 32 - (since - now) % 2 ^ 32) % 2 ^ 32 := by
  unfold elapsed reading
  rw [UInt32.toNat_sub, UInt32.toNat_ofNat', UInt32.toNat_ofNat']
  omega

theorem isBefore_reading {reference now : Nat} (h : reference ≤ now) :
    isBefore (reading now) (reading reference) = decide (2 ^ 31 ≤ (now - reference) % 2 ^ 32) := by
  rw [← toNat_elapsed_reading h]
  rfl

/-! ## Shifts -/

theorem elapsed_add (now since shift : Tick) :
    elapsed (now + shift) (since + shift) = elapsed now since := by
  unfold elapsed
  rw [← UInt32.toNat_inj]
  simp only [UInt32.toNat_sub, UInt32.toNat_add]
  have := now.toNat_lt
  have := since.toNat_lt
  omega

theorem isBefore_add (now reference shift : Tick) :
    isBefore (now + shift) (reference + shift) = isBefore now reference := by
  unfold isBefore
  rw [show now + shift - (reference + shift) = now - reference from elapsed_add now reference shift]

/-! ## Signed differences -/

/-- A reading is before another if their difference, as a signed word, is below zero. -/
theorem isBefore_iff_toInt32_neg {tick reference : Tick} :
    isBefore tick reference = true ↔ (tick - reference).toInt32 < 0 := by
  have hneg : (tick - reference).toInt32 < 0 ↔ 2 ^ 32 ≤ 2 * (tick - reference).toNat := by
    rw [Int32.lt_iff_toInt_lt]
    exact BitVec.toInt_neg_iff
  rw [hneg]
  unfold isBefore UInt32.size
  rw [decide_eq_true_eq]
  omega

/-- The signed difference of two readings is that of their times, modulo a turn of the counter. -/
theorem toInt_sub_reading (reference now : Nat) :
    (reading now - reading reference).toInt32.toInt = ((now : Int) - reference).bmod (2 ^ 32) := by
  show (BitVec.ofNat 32 now - BitVec.ofNat 32 reference).toInt = _
  rw [BitVec.toInt_sub, BitVec.toInt_ofNat', BitVec.toInt_ofNat', Int.sub_bmod_bmod,
    Int.bmod_sub_bmod]

theorem isBefore_reading_iff {reference now : Nat} (hback : -2 ^ 31 ≤ (now : Int) - reference)
    (hahead : (now : Int) - reference < 2 ^ 31) :
    isBefore (reading now) (reading reference) = true ↔ now < reference := by
  have hspan : ((now : Int) - reference).bmod (2 ^ 32) = now - reference :=
    Int.bmod_eq_of_le (by omega) (by omega)
  rw [isBefore_iff_toInt32_neg, Int32.lt_iff_toInt_lt, toInt_sub_reading, hspan]
  show (now : Int) - reference < 0 ↔ _
  omega

/-! ## Milliseconds -/

theorem ofMillis_eq_reading (millis : UInt32) :
    ofMillis millis = reading (millis.toNat * 1000) := by
  unfold ofMillis reading
  rw [UInt32.ofNat_mul, UInt32.ofNat_toNat]
  rfl

/-- Wrapping keeps spans, although different times may come to the same ticks. -/
theorem elapsed_ofMillis (a b : UInt32) :
    elapsed (ofMillis b) (ofMillis a) = ofMillis (b - a) := by
  unfold elapsed ofMillis
  exact UInt32.sub_mul.symm

theorem toMillis_eq (span : Tick) : toMillis span =
    Single.ofNat span.toNat / finite false (1000 * unitsPerOne) (fits_whole (by decide)) :=
  congrArg (Single.ofNat span.toNat / ·) (ofNat_eq (by decide))

theorem within_toMillis (span : Tick) {a b low high : Nat} (ha : Fits a) (hb : Fits b)
    (hl : Fits low) (hh : Fits high) (h₁ : a ≤ span.toNat * unitsPerOne)
    (h₂ : span.toNat * unitsPerOne ≤ b) (h₃ : low * 1000 ≤ a) (h₄ : b ≤ high * 1000) :
    Within false low high (toMillis span) := by
  rw [toMillis_eq]
  refine (within_ofNat ha hb h₁ h₂).div (Nat.mul_pos (by decide) unitsPerOne_pos) hl hh ?_ ?_
  · rw [← mul_assoc]
    exact Nat.mul_le_mul_right _ h₃
  · rw [← mul_assoc]
    exact Nat.mul_le_mul_right _ h₄

/-- A full turn of the counter. -/
theorem fits_turn : Fits (2 ^ 32 * unitsPerOne) := by
  rw [unitsPerOne_eq, ← pow_add]
  exact fits_two_pow (by decide)

theorem toMillis_finite (span : Tick) : ∃ m fm, toMillis span = .finite false m fm := by
  have hlt : span.toNat < 2 ^ 32 := span.toNat_lt
  obtain ⟨m, fm, hm, -, -⟩ := within_toMillis span fits_zero fits_turn fits_zero
    fits_turn (Nat.zero_le _) (Nat.mul_le_mul_right _ hlt.le) (by omega) (by omega)
  exact ⟨m, fm, hm⟩

theorem toMillis_mono {span span' : Tick} (h : span ≤ span') : toMillis span ≤ toMillis span' := by
  have finite_span (t : Tick) : ∃ m fm, Single.ofNat t.toNat = finite false m fm := by
    obtain ⟨m, fm, hm, -⟩ := within_ofNat fits_zero fits_turn (Nat.zero_le _)
      (Nat.mul_le_mul_right unitsPerOne t.toNat_lt.le)
    exact ⟨m, fm, hm⟩
  obtain ⟨m, fm, hm⟩ := finite_span span
  obtain ⟨n, fn, hn⟩ := finite_span span'
  have hle : Single.ofNat span.toNat ≤ Single.ofNat span'.toNat :=
    ofNat_le_ofNat (UInt32.le_iff_toNat_le.mp h)
  rw [toMillis_eq, toMillis_eq, hm, hn]
  rw [hm, hn] at hle
  exact finite_div_le_finite_div (Nat.mul_pos (by decide) unitsPerOne_pos) (finite_le_finite.mp hle)

/-! ## What readings tell -/

/-- Whatever the times: if one is less than a turn of the counter behind another, their readings tell
the span between them, and if they are at most half a turn apart, short of half a turn ahead, which
one is earlier. Of two counts of milliseconds the ticks tell the span, also where they have wrapped,
and a longer span never comes to fewer milliseconds. -/
theorem readings_tell_time :
    (∀ since now : Nat, since ≤ now → now < since + 2 ^ 32 →
      (elapsed (reading now) (reading since)).toNat = now - since) ∧
    (∀ reference now : Nat, -2 ^ 31 ≤ (now : Int) - reference → (now : Int) - reference < 2 ^ 31 →
      (isBefore (reading now) (reading reference) = true ↔ now < reference)) ∧
    (∀ a b : UInt32, a ≤ b → elapsed (ofMillis b) (ofMillis a) = ofMillis (b - a) ∧
      ofMillis (b - a) = reading ((b.toNat - a.toNat) * 1000)) ∧
    ∀ span span' : Tick, span ≤ span' → toMillis span ≤ toMillis span' := by
  refine ⟨?_, ?_, ?_, ?_⟩
  · intro since now h hturn
    rw [toNat_elapsed_reading h, Nat.mod_eq_of_lt (by omega)]
  · intro reference now hback hahead
    exact isBefore_reading_iff hback hahead
  · intro a b hle
    refine ⟨elapsed_ofMillis a b, ?_⟩
    rw [ofMillis_eq_reading, UInt32.toNat_sub_of_le b a hle]
  · intro span span' hle
    exact toMillis_mono hle

/-- A span across a wrap, times half a turn apart on either side, counts of milliseconds whose ticks
have wrapped, and two spans that come to the same milliseconds. -/
theorem readings_tell_time_across_wrap :
    (elapsed (reading (2 ^ 32 + 400)) (reading (2 ^ 32 - 100))).toNat = 500 ∧
    isBefore (reading 5) (reading (2 ^ 31 + 5)) = true ∧
    ¬isBefore (reading (2 ^ 31 + 4)) (reading 5) = true ∧
    elapsed (ofMillis 4294967295) (ofMillis 4294968) = ofMillis 4290672327 ∧
    toMillis 16777216 ≤ toMillis 16777217 ∧ toMillis 16777217 = toMillis 16777216 := by
  obtain ⟨hspan, hbefore, hmillis, hmono⟩ := readings_tell_time
  refine ⟨hspan (2 ^ 32 - 100) (2 ^ 32 + 400) (by decide) (by decide),
    (hbefore (2 ^ 31 + 5) 5 (by decide) (by decide)).mpr (by decide), ?_,
    (hmillis 4294968 4294967295 (by decide)).1, hmono 16777216 16777217 (by decide),
    by decide +kernel⟩
  exact mt (hbefore 5 (2 ^ 31 + 4) (by decide) (by decide)).mp (by decide)

end MidiPanel.Tick
