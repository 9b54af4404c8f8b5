import MidiPanel.Proofs.Monitor.Loudness
import MidiPanel.Proofs.Monitor.Run
import MidiPanel.Proofs.Tick

/-!
# The range of readings

Whatever messages and queries a fresh monitor with usable timings has seen, a reading tells a level
and a peak from zero to one, the peak not below the level. The invariant is that every stored peak
is a share: a message leaves peaks alone, and a query stores levels only.

Results:
* `within_fallen`: a peak falls, and not below zero.
* `Sound.after`: the invariant holds behind every history.
* `reading_range`: the range of a reading, and its level as the greatest contribution.
-/

namespace MidiPanel

open Single

/-! ## Falling peaks -/

/-- Nothing is left of a share if as much is taken off. -/
theorem Single.clamp_sub_of_le {l n : Nat} {fl : Fits l} {fn : Fits n} (h : l ≤ n) :
    (finite false l fl - finite false n fn).clamp 0 1 = 0 := by
  rcases Nat.lt_or_eq_of_le h with hlt | rfl
  · obtain ⟨r, fr, hr, hpos, -⟩ : Within true 1 n (finite false l fl - finite false n fn) :=
      within_sub_of_lt hlt (fits_two_pow (k := 0) (by decide)) fn (by omega) (by omega)
    have hneg : finite true r fr < 0 := by
      rw [zero_eq]
      exact negative_lt_finite hpos
    rw [hr, clamp_of_lt_zero hneg]
  · have hnone : Within false 0 0 (finite false l fl - finite false l fn) :=
      within_sub le_rfl fits_zero fits_zero (Nat.zero_le _) (Nat.sub_self l).le
    rw [IsShare.clamp_eq (hnone.mono le_rfl (Nat.zero_le _)), hnone.eq_finite fits_zero, zero_eq]

theorem Single.clamp_sub_infinite {l : Nat} {fl : Fits l} :
    (finite false l fl - infinite false).clamp 0 1 = 0 := by
  have hneg : infinite true < 0 := by
    rw [zero_eq]
    exact infinite_lt_finite
  rw [show finite false l fl - infinite false = infinite true from rfl, clamp_of_lt_zero hneg]

/-- Taking something off a share leaves less of it, even if what is taken off is infinite. -/
theorem Single.within_clamp_sub {l : Nat} {fl : Fits l} {x : Single} (hl : l ≤ unitsPerOne)
    (hx : (∃ n fn, x = finite false n fn) ∨ x = infinite false) :
    Within false 0 l ((finite false l fl - x).clamp 0 1) := by
  have hzero : Within false 0 l 0 := within_zero.mono le_rfl (Nat.zero_le l)
  rcases hx with ⟨n, fn, rfl⟩ | rfl
  · rcases Nat.le_total l n with hle | hge
    · rw [clamp_sub_of_le hle]
      exact hzero
    · have hrest : Within false 0 l (finite false l fl - finite false n fn) :=
        within_sub hge fits_zero fl (Nat.zero_le _) (Nat.sub_le _ _)
      rw [IsShare.clamp_eq (hrest.mono (Nat.zero_le _) hl)]
      exact hrest
  · rw [clamp_sub_infinite]
    exact hzero

/-- A peak does not rise. -/
theorem Peak.within_fallen {p : Peak} {timings : EnvelopeTimings} (ht : timings.Usable) {l : Nat}
    {fl : Fits l} (hp : p.level = finite false l fl) (hl : l ≤ unitsPerOne) (now : Tick) :
    Within false 0 l (p.fallen timings now) := by
  obtain ⟨n, fn, hn, hpos⟩ := ht.falloffMs.exists_units
  obtain ⟨h, fh, hh, -⟩ := ht.holdMs.exists_units
  obtain ⟨m, fm, hm⟩ := Tick.toMillis_finite (Tick.elapsed now p.time)
  unfold fallen
  dsimp only
  rw [hp, hn, hh, hm]
  split
  next hheld =>
    rw [finite_le_finite] at hheld
    obtain ⟨k, fk, hk, -, -⟩ : Within false 0 m (finite false m fm - finite false h fh) :=
      within_sub hheld fits_zero fm (Nat.zero_le _) (Nat.sub_le _ _)
    rw [hk, Single.maximum_zero]
    exact within_clamp_sub hl (finite_div_cases fk fn hpos)
  next => exact ⟨l, fl, rfl, Nat.zero_le _, le_rfl⟩

theorem Peak.isShare_fallen {p : Peak} {timings : EnvelopeTimings} (ht : timings.Usable)
    (hp : IsShare p.level) (now : Tick) : IsShare (p.fallen timings now) := by
  obtain ⟨l, fl, hl, -, hle⟩ := hp
  exact (within_fallen ht hl hle now).mono (Nat.zero_le _) hle

theorem Peak.fallen_of_level_eq_zero {p : Peak} {timings : EnvelopeTimings} (ht : timings.Usable)
    (hp : p.level = 0) (now : Tick) : p.fallen timings now = 0 := by
  have h : Within false 0 0 (p.fallen timings now) :=
    within_fallen ht (hp.trans zero_eq) (Nat.zero_le _) now
  rw [h.eq_finite fits_zero, zero_eq]

theorem Peak.fallen_at_time {timings : EnvelopeTimings} (h : timings.Usable) (p : Peak) :
    p.fallen timings p.time = p.level := by
  obtain ⟨n, fn, hn, hpos⟩ := h.holdMs.exists_units
  have helapsed : Tick.toMillis (Tick.elapsed p.time p.time) = 0 := by
    rw [Tick.elapsed_self]
    decide +kernel
  unfold fallen
  rw [helapsed, hn, zero_eq]
  simp only [finite_le_finite]
  rw [if_neg (Nat.not_le.mpr hpos)]

namespace Monitor

/-! ## Levels -/

/-- What a note adds to the level of its channel at `now`. -/
def contribution (m : Monitor) (channel : Channel) (now : Tick) (note : DataByte) : Single :=
  let state := m.channels.get channel
  ChannelState.contribution state.gain (m.noteEnvelope channel now (state.notes.get note))
    (state.notes.get note)

/-- The envelope of the note, its velocity and the gain of the channel, multiplied. -/
theorem contribution_eq (m : Monitor) (channel : Channel) (now : Tick) (note : DataByte) :
    let state := m.channels.get channel
    m.contribution channel now note =
      m.noteEnvelope channel now (state.notes.get note) *
        (Single.ofNat (state.notes.get note).velocity.val / 127) *
        ((Single.ofNat state.volume.val / 127) * (Single.ofNat state.expression.val / 127)) := by
  intro state
  unfold contribution ChannelState.contribution ChannelState.gain
  simp only [ChannelState.share_eq]
  rfl

theorem isShare_noteEnvelope {m : Monitor} (h : m.timings.Usable) (channel : Channel) (now : Tick)
    (note : NoteState) : IsShare (m.noteEnvelope channel now note) := by
  unfold noteEnvelope
  split
  · exact EnvelopeTimings.isShare_percussionEnvelope h.releaseMs note now
  · exact EnvelopeTimings.isShare_envelope h.releaseMs note now

theorem noteEnvelope_of_not_hasSounded (m : Monitor) (channel : Channel) (now : Tick)
    {note : NoteState} (h : note.hasSounded = false) : m.noteEnvelope channel now note = 0 := by
  have hon : note.onTime = none := by simpa [NoteState.hasSounded] using h
  unfold noteEnvelope EnvelopeTimings.percussionEnvelope EnvelopeTimings.envelope
  rw [hon]
  exact ite_self 0

theorem isLoudest_contribution {m : Monitor} (h : m.timings.Usable) (channel : Channel)
    (now : Tick) :
    IsShare ((m.channels.get channel).loudest (m.noteEnvelope channel now)) ∧
      IsLoudest ((m.channels.get channel).loudest (m.noteEnvelope channel now))
        (m.contribution channel now) :=
  ChannelState.isLoudest_loudest (isShare_noteEnvelope h channel now)
    fun _ => noteEnvelope_of_not_hasSounded m channel now

theorem loudness_eq_loudest {m : Monitor} (h : m.timings.Usable) (channel : Channel) (now : Tick) :
    m.loudness channel now = (m.channels.get channel).loudest (m.noteEnvelope channel now) :=
  (isLoudest_contribution h channel now).1.clamp_eq

theorem isShare_loudness {m : Monitor} (h : m.timings.Usable) (channel : Channel) (now : Tick) :
    IsShare (m.loudness channel now) := by
  rw [loudness_eq_loudest h]
  exact (isLoudest_contribution h channel now).1

/-! ## The invariant -/

/-- The timings are usable and every stored peak is a share. -/
structure Sound (m : Monitor) : Prop where
  timings : m.timings.Usable
  peaks : ∀ channel : Channel, IsShare (m.peaks.get channel).level

theorem sound_new {timings : EnvelopeTimings} (h : timings.Usable) : Sound (.new timings) where
  timings := h
  peaks channel := by
    simpa [new, get_eq_getElem, Peak.initial] using isShare_zero

theorem Sound.next {m : Monitor} (h : Sound m) (input : Input) : Sound (m.next input) := by
  refine ⟨by rw [next_timings]; exact h.timings, fun channel => ?_⟩
  cases input with
  | message packed now =>
    show IsShare ((m.receive packed now).peaks.get channel).level
    rw [receive_peaks]
    exact h.peaks channel
  | query now =>
    show IsShare ((m.query now).2.peaks.get channel).level
    rw [query_peak]
    split
    · exact isShare_loudness h.timings channel now
    · exact h.peaks channel

theorem Sound.after {m : Monitor} (h : Sound m) (history : List Input) : Sound (m.after history) :=
  after_invariant (fun input _ _ h => h.next input) h

/-- The reported peak is the greater of the level and the height of the stored peak. -/
theorem Sound.query_peak_eq {m : Monitor} (h : Sound m) (now : Tick) (channel : Channel) :
    ((m.query now).1.get channel).peak =
      (m.loudness channel now).maximum ((m.peaks.get channel).fallen m.timings now) := by
  have hlevel : IsShare (m.loudness channel now) := isShare_loudness h.timings channel now
  have hheight : IsShare ((m.peaks.get channel).fallen m.timings now) :=
    Peak.isShare_fallen h.timings (h.peaks channel) now
  rw [query_reading_peak]
  split
  next hle => exact (hlevel.maximum_eq_left hheight hle).symm
  next hlt => exact (hlevel.maximum_eq_right hheight ((hheight.not_le hlevel).mp hlt)).symm

/-- Of every channel a query tells a level and a peak with `0 ≤ level ≤ peak ≤ 1`. The level is the
greatest contribution of the 128 notes, each the product of its envelope, its velocity and the gain
of the channel, as it stands before it is clamped. -/
theorem reading_range {timings : EnvelopeTimings} (h : timings.Usable) (history : List Input)
    (now : Tick) (channel : Channel) :
    let m := (Monitor.new timings).after history
    let reading := (m.query now).1.get channel
    let state := m.channels.get channel
    reading.level ≠ .nan ∧ reading.peak ≠ .nan ∧
      0 ≤ reading.level ∧ reading.level ≤ reading.peak ∧ reading.peak ≤ 1 ∧
      IsLoudest reading.level (fun note =>
        m.noteEnvelope channel now (state.notes.get note) *
          (Single.ofNat (state.notes.get note).velocity.val / 127) *
          ((Single.ofNat state.volume.val / 127) * (Single.ofNat state.expression.val / 127))) ∧
      reading.level = state.loudest (m.noteEnvelope channel now) := by
  intro m reading state
  have hm : Sound m := (sound_new h).after history
  have hlevel : IsShare (m.loudness channel now) := isShare_loudness hm.timings channel now
  have hfallen : IsShare ((m.peaks.get channel).fallen m.timings now) :=
    Peak.isShare_fallen hm.timings (hm.peaks channel) now
  have hl : reading.level = m.loudness channel now := query_level m now channel
  have hp : IsShare reading.peak ∧ reading.level ≤ reading.peak := by
    rw [hl, show reading.peak = _ from hm.query_peak_eq now channel]
    exact ⟨hlevel.maximum hfallen, hlevel.le_maximum_left hfallen⟩
  have hloudest := loudness_eq_loudest hm.timings channel now
  refine ⟨?_, hp.1.ne_nan, ?_, hp.2, hp.1.le_one, ?_, ?_⟩
  · rw [hl]
    exact hlevel.ne_nan
  · rw [hl]
    exact hlevel.nonneg
  · rw [hl, hloudest, ← funext (m.contribution_eq channel now)]
    exact (isLoudest_contribution hm.timings channel now).2
  · rw [hl, hloudest]

/-- The least positive times: dividing by them overflows. -/
def leastTimings : EnvelopeTimings := ⟨.ofBits 1, .ofBits 1, .ofBits 1⟩

theorem leastTimings_usable : leastTimings.Usable :=
  ⟨by decide +kernel, by decide +kernel, by decide +kernel⟩

/-- A note is struck, read and released. -/
def shortNote : List Input :=
  [.message (ShortMessage.noteOn 0 60 127).pack 0, .query 2,
    .message (ShortMessage.noteOff 0 60).pack 5]

theorem reading_range_least :
    leastTimings.Usable ∧
      0 ≤ ((((Monitor.new leastTimings).after shortNote).query 6).1.get 0).level ∧
      ((((Monitor.new leastTimings).after shortNote).query 6).1.get 0).level ≤
        ((((Monitor.new leastTimings).after shortNote).query 6).1.get 0).peak ∧
      ((((Monitor.new leastTimings).after shortNote).query 6).1.get 0).peak ≤ 1 := by
  obtain ⟨-, -, hlevel, hpeak, hone, -⟩ := reading_range leastTimings_usable shortNote 6 0
  exact ⟨leastTimings_usable, hlevel, hpeak, hone⟩

end Monitor
end MidiPanel
