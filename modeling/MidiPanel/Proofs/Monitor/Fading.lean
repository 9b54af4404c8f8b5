import MidiPanel.Proofs.Monitor.NoteHistory
import MidiPanel.Proofs.Monitor.Range
import MidiPanel.Proofs.Single.Monotone
import MidiPanel.Proofs.Tick

/-!
# Notes fade

A release never rises, in single precision too: every operation on the way from its span to its
height keeps the order or turns it around. Within half a turn of the counter from its onset a note
can therefore get louder in two ways only: it is struck again, or it is released again.

**Deviation.** A note keeps the tick of its latest note-off, so that a further note-off starts the
release anew, from full height. A released note that is released again rises, and is at most as high
as before once the new release has lasted as long as the old one had. Drums do not heed note-offs.

Results:
* `release_antitone`: the longer a release has lasted, the lower it is.
* `release_curve`: the range of a release, and where it begins and ends.
* `after_note_cases`: what becomes of a note that is not struck.
* `noteEnvelope_le`: when the envelope of a note does not rise.
* `noteEnvelope_rises`: a released note that is released again.
-/

namespace MidiPanel

open Single Rounding

/-! ## The eased fall -/

/-- The units of an eased share. -/
def easeUnits (units : Nat) : Nat :=
  let missing := toPrecision 24 (unitsPerOne - units) 1
  let square := toPrecision 24 (missing * missing) unitsPerOne
  toPrecision 24 (unitsPerOne - square) 1

theorem ease_finite {m : Nat} (fm : Fits m) (h : m ≤ unitsPerOne) :
    ∃ f, ease (finite false m fm) = finite false (easeUnits m) f := by
  obtain ⟨s, hsub⟩ := finite_sub_one fm h
  have hle : unitsPerOne - m ≤ unitsPerOne * 1 := by omega
  obtain ⟨hmissing, fd, hd⟩ := ofUnits_eq_of_le s Nat.one_pos hle
  rw [hd] at hsub
  obtain ⟨hsquare, fq, hq⟩ := ofUnits_eq_of_le false unitsPerOne_pos
    (Nat.mul_le_mul hmissing hmissing)
  have hmul : (finite false m fm - 1) * (finite false m fm - 1) = finite false _ fq := by
    rw [hsub]
    show ofUnits (s != s) _ unitsPerOne = _
    rw [bne_self_eq_false, hq]
  unfold ease
  rw [hmul, neg_finite_add_one hsquare]
  exact (ofUnits_eq_of_le false Nat.one_pos (by omega)).2

theorem easeUnits_mono {m n : Nat} (h : m ≤ n) : easeUnits m ≤ easeUnits n := by
  unfold easeUnits
  dsimp only
  have hmissing : toPrecision 24 (unitsPerOne - n) 1 ≤ toPrecision 24 (unitsPerOne - m) 1 :=
    toPrecision_mono (by decide) Nat.one_pos Nat.one_pos (by omega)
  have hsquare := toPrecision_mono (p := 24) (by decide) unitsPerOne_pos unitsPerOne_pos
    (Nat.mul_le_mul_right unitsPerOne (Nat.mul_le_mul hmissing hmissing))
  exact toPrecision_mono (by decide) Nat.one_pos Nat.one_pos (by omega)

theorem ease_le_ease {x y : Single} (hx : IsShare x) (hy : IsShare y) (h : x ≤ y) :
    ease x ≤ ease y := by
  obtain ⟨m, fm, rfl, -, hm⟩ := hx
  obtain ⟨n, fn, rfl, -, hn⟩ := hy
  obtain ⟨f, hf⟩ := ease_finite fm hm
  obtain ⟨g, hg⟩ := ease_finite fn hn
  rw [hf, hg, finite_le_finite]
  exact easeUnits_mono (finite_le_finite.mp h)

/-! ## The release -/

namespace EnvelopeTimings

variable {timings : EnvelopeTimings}

/-- The longer a release has lasted, the lower it is. -/
theorem release_antitone (h : timings.releaseMs.IsPositive) {span span' : Tick}
    (hspan : span ≤ span') : timings.release span' ≤ timings.release span := by
  obtain ⟨n, fn, hn, hpos⟩ := h.exists_units
  obtain ⟨m, fm, hm⟩ := Tick.toMillis_finite span
  obtain ⟨m', fm', hm'⟩ := Tick.toMillis_finite span'
  have hmillis := Tick.toMillis_mono hspan
  rw [hm, hm', finite_le_finite] at hmillis
  have hmin : min m n ≤ min m' n := min_le_min_right n hmillis
  have hshare (k : Nat) (fk : Fits k) (hk : k ≤ n) :
      IsShare (finite false k fk / finite false n fn) :=
    Within.div ⟨k, fk, rfl, Nat.zero_le k, hk⟩ hpos fits_zero fits_one (by omega) (by rw [mul_comm])
  have hquotient : finite false (min m n) (fits_min fm fn) / finite false n fn ≤
      finite false (min m' n) (fits_min fm' fn) / finite false n fn :=
    finite_div_le_finite_div hpos hmin
  rw [release_eq hm hn hpos, release_eq hm' hn hpos]
  refine ease_le_ease (isShare_one_sub_div hpos (Nat.min_le_right m' n))
    (isShare_one_sub_div hpos (Nat.min_le_right m n)) ?_
  obtain ⟨q, fq, hq, -, -⟩ := hshare _ (fits_min fm fn) (Nat.min_le_right m n)
  obtain ⟨q', fq', hq', -, hle⟩ := hshare _ (fits_min fm' fn) (Nat.min_le_right m' n)
  rw [hq, hq', finite_le_finite] at hquotient
  rw [hq, hq', one_eq]
  exact finite_sub_le_finite_sub hquotient hle

/-- At first nothing is missing, however short the release is. -/
theorem release_zero (h : timings.releaseMs.IsPositive) : timings.release 0 = 1 := by
  obtain ⟨n, fn, hn, hpos⟩ := h.exists_units
  have hmillis : Tick.toMillis 0 = finite false 0 fits_zero := by decide +kernel
  have hquotient : Within false 0 0 (finite false 0 fits_zero / finite false n fn) :=
    Within.div ⟨0, fits_zero, rfl, le_rfl, le_rfl⟩ hpos fits_zero fits_zero (by simp) (by simp)
  rw [release_eq hmillis hn hpos]
  simp only [Nat.zero_min]
  rw [hquotient.eq_finite fits_zero]
  decide +kernel

/-- A release falls from one to zero and does not rise on the way, whatever its time is. -/
theorem release_curve (h : timings.releaseMs.IsPositive) :
    (∀ span, timings.release span ≠ .nan ∧ 0 ≤ timings.release span ∧ timings.release span ≤ 1) ∧
    (∀ span span' : Tick, span ≤ span' → timings.release span' ≤ timings.release span) ∧
    timings.release 0 = 1 ∧
    ∀ span, timings.releaseMs ≤ Tick.toMillis span → timings.release span = 0 := by
  refine ⟨?_, fun span span' => release_antitone h, release_zero h, fun span => release_eq_zero h⟩
  intro span
  have hshare : IsShare (timings.release span) := isShare_release h span
  exact ⟨hshare.ne_nan, hshare.nonneg, hshare.le_one⟩

/-- The shortest release is over with the first tick. -/
theorem release_curve_least :
    Monitor.leastTimings.releaseMs.IsPositive ∧ Monitor.leastTimings.release 0 = 1 ∧
      Monitor.leastTimings.release 1 = 0 ∧
      Monitor.leastTimings.release 5 ≤ Monitor.leastTimings.release 1 := by
  have hpos := Monitor.leastTimings_usable.releaseMs
  obtain ⟨-, hfalls, hfirst, hover⟩ := release_curve hpos
  exact ⟨hpos, hfirst, hover 1 (by decide +kernel), hfalls 1 5 (by decide)⟩

/-! ## Envelopes in time -/

/-- Within half a turn of the counter from its onset a note is judged at the time that it is. -/
theorem judgedAt_reading {onset time : Nat} (h : onset ≤ time) (half : time < onset + 2 ^ 31) :
    judgedAt (Tick.reading time) (Tick.reading onset) = Tick.reading time := by
  unfold judgedAt
  rw [Tick.isBefore_reading h]
  exact if_neg (by simp only [decide_eq_true_eq]; omega)

theorem envelope_of_held {note : NoteState} {onset : Tick} (hon : note.onTime = some onset)
    (hoff : note.offTime = none) (now : Tick) : timings.envelope note now = 1 := by
  unfold envelope
  rw [hon, hoff]

section Time

variable {note note' : NoteState} {onset time time₁ time₂ : Nat}
  (hon : note.onTime = some (Tick.reading onset))

include hon

theorem envelope_of_released (h : onset ≤ time) (half : time < onset + 2 ^ 31) {off : Tick}
    (hoff : note.offTime = some off) :
    timings.envelope note (.reading time) = timings.release (Tick.elapsed (.reading time) off) := by
  unfold envelope
  rw [hon, hoff]
  dsimp only
  rw [judgedAt_reading h half]

theorem percussionEnvelope_eq_release (h : onset ≤ time) (half : time < onset + 2 ^ 31) :
    timings.percussionEnvelope note (.reading time) =
      timings.release (Tick.elapsed (.reading time) (.reading onset)) := by
  unfold percussionEnvelope
  rw [hon]
  dsimp only
  rw [judgedAt_reading h half]

variable (hpos : timings.releaseMs.IsPositive) (hon' : note'.onTime = some (Tick.reading onset))
  (honset : onset ≤ time₁) (ordered : time₁ ≤ time₂) (half : time₂ < onset + 2 ^ 31)

include hpos hon' honset ordered half

theorem percussionEnvelope_le :
    timings.percussionEnvelope note' (.reading time₂) ≤
      timings.percussionEnvelope note (.reading time₁) := by
  rw [percussionEnvelope_eq_release hon honset (by omega),
    percussionEnvelope_eq_release hon' (by omega) half]
  refine release_antitone hpos ?_
  rw [UInt32.le_iff_toNat_le, Tick.toNat_elapsed_reading honset,
    Tick.toNat_elapsed_reading (Nat.le_trans honset ordered)]
  omega

theorem envelope_le_of_released {off release : Nat} (hoff : note.offTime = some (.reading off))
    (hrelease : note'.offTime = some (.reading release)) (h₁ : onset ≤ off) (h₂ : off ≤ time₁)
    (h₃ : onset ≤ release) (h₄ : release ≤ time₂) (hspan : time₁ - off ≤ time₂ - release) :
    timings.envelope note' (.reading time₂) ≤ timings.envelope note (.reading time₁) := by
  rw [envelope_of_released hon honset (by omega) hoff,
    envelope_of_released hon' (by omega) half hrelease]
  refine release_antitone hpos ?_
  rw [UInt32.le_iff_toNat_le, Tick.toNat_elapsed_reading h₂, Tick.toNat_elapsed_reading h₄]
  omega

end Time

end EnvelopeTimings

namespace Monitor

variable {m : Monitor} {channel : Channel} {key : DataByte} {input : Input} {history : List Input}

/-! ## What becomes of a note that is not struck -/

/-- A note-off for the note, at this tick. -/
def Input.ReleasesAt (channel : Channel) (key : DataByte) (release : Tick) (input : Input) : Prop :=
  ∃ stop, input = .message stop release ∧ (ShortMessage.unpack stop).event.releases channel key

/-- If it is a message, the input arrives from `low` to `high`. -/
def Input.ArrivesIn (low high : Nat) : Input → Prop
  | .message _ now => ∃ time, low ≤ time ∧ time ≤ high ∧ now = Tick.reading time
  | .query _ => True

theorem Input.ArrivesIn.of_releasesAt {low high : Nat} {release : Tick}
    (h : input.ArrivesIn low high) (hr : input.ReleasesAt channel key release) :
    ∃ time, low ≤ time ∧ time ≤ high ∧ release = Tick.reading time := by
  obtain ⟨stop, rfl, -⟩ := hr
  exact h

theorem next_note_cases (hs : ¬ input.brings (Event.strikes channel key)) :
    (m.next input).note channel key = .silent ∨
      (m.next input).note channel key = m.note channel key ∨
      ∃ release, input.ReleasesAt channel key release ∧
        (m.next input).note channel key =
          { m.note channel key with offTime := some release } := by
  by_cases hc : input.brings (Event.clears channel)
  · exact .inl (next_note_of_clears hc)
  by_cases hr : input.brings (Event.releases channel key)
  · cases input with
    | query now => cases hr
    | message stop release =>
      exact .inr (.inr ⟨release, ⟨stop, rfl, hr⟩, next_note_of_releases hr release⟩)
  · exact .inr (.inl (next_note_of_spares hs hr hc))

/-- A note that is not struck is cleared, or it keeps its onset, and its release is the one from
before or one of these inputs. -/
theorem after_note_cases {low high : Nat}
    (hs : ∀ input ∈ history, ¬ input.brings (Event.strikes channel key))
    (harrive : ∀ input ∈ history, input.ArrivesIn low high) :
    let note := (m.after history).note channel key
    note.onTime = none ∨
      note.onTime = (m.note channel key).onTime ∧
        (note.offTime = (m.note channel key).offTime ∨
          ∃ release : Nat, low ≤ release ∧ release ≤ high ∧
            (∃ input ∈ history, input.ReleasesAt channel key (.reading release)) ∧
            note.offTime = some (.reading release)) := by
  refine after_invariant (P := fun m' => (m'.note channel key).onTime = none ∨
    (m'.note channel key).onTime = (m.note channel key).onTime ∧
      ((m'.note channel key).offTime = (m.note channel key).offTime ∨
        ∃ release : Nat, low ≤ release ∧ release ≤ high ∧
          (∃ input ∈ history, input.ReleasesAt channel key (.reading release)) ∧
          (m'.note channel key).offTime = some (.reading release))) ?_ (.inr ⟨rfl, .inl rfl⟩)
  intro input hin m' h
  obtain hnext | hnext | ⟨tick, htick, hnext⟩ := next_note_cases (m := m') (hs input hin)
  · rw [hnext]
    exact .inl rfl
  · rwa [hnext]
  · rw [hnext]
    obtain hnone | ⟨hon, -⟩ := h
    · exact .inl hnone
    · obtain ⟨release, hlow, hhigh, rfl⟩ := (harrive input hin).of_releasesAt htick
      exact .inr ⟨hon, .inr ⟨release, hlow, hhigh, ⟨input, hin, htick⟩, rfl⟩⟩

/-- Since its note-on a note has been cleared, or it has that onset, and a release since then if
there has been one. -/
theorem after_note_since_strike {strike : UInt32} {onset time : Nat} {since : List Input}
    (strikes : (ShortMessage.unpack strike).event.strikes channel key)
    (hs : ∀ input ∈ since, ¬ input.brings (Event.strikes channel key))
    (harrive : ∀ input ∈ since, input.ArrivesIn onset time) :
    let note := (m.after (.message strike (.reading onset) :: since)).note channel key
    note.onTime = none ∨
      note.onTime = some (.reading onset) ∧
        (note.offTime = none ∨
          ∃ off : Nat, onset ≤ off ∧ off ≤ time ∧ note.offTime = some (.reading off)) := by
  obtain ⟨velocity, -, hstruck⟩ := next_note_of_strikes (m := m) strikes (.reading onset)
  have hsince := after_note_cases (m := m.next (.message strike (.reading onset))) hs harrive
  rw [hstruck] at hsince
  obtain hnone | ⟨hon, hoff | ⟨off, hlow, hhigh, -, hoff⟩⟩ := hsince
  · exact .inl hnone
  · exact .inr ⟨hon, .inl hoff⟩
  · exact .inr ⟨hon, .inr ⟨off, hlow, hhigh, hoff⟩⟩

/-- Between two times within half a turn of the counter from its onset a note does not rise, unless
it is struck again, or has been released and is released again. In the last case it does not rise
if the new release has lasted as long by the second time as the one before had by the first. -/
theorem noteEnvelope_le {timings : EnvelopeTimings} (h : timings.Usable) {strike : UInt32}
    {onset time₁ time₂ : Nat} (before : List Input) {first second : List Input}
    (strikes : (ShortMessage.unpack strike).event.strikes channel key)
    (unstruck : ∀ input ∈ first ++ second, ¬ input.brings (Event.strikes channel key))
    (hfirst : ∀ input ∈ first, input.ArrivesIn onset time₁)
    (hsecond : ∀ input ∈ second, input.ArrivesIn time₁ time₂)
    (honset : onset ≤ time₁) (ordered : time₁ ≤ time₂) (half : time₂ < onset + 2 ^ 31) :
    let m₁ := (new timings).after (before ++ .message strike (.reading onset) :: first)
    let m₂ := m₁.after second
    (channel ≠ percussionChannel → ∀ off release : Nat, onset ≤ off → off ≤ time₁ →
        (m₁.note channel key).offTime = some (.reading off) → time₁ ≤ release → release ≤ time₂ →
        (∃ input ∈ second, input.ReleasesAt channel key (.reading release)) →
        time₁ - off ≤ time₂ - release) →
      m₂.noteEnvelope channel (.reading time₂) (m₂.note channel key) ≤
        m₁.noteEnvelope channel (.reading time₁) (m₁.note channel key) := by
  intro m₁ m₂ again
  have ht₁ : m₁.timings = timings := after_timings _ _
  have ht₂ : m₂.timings = timings := (after_timings _ _).trans ht₁
  have hshare₁ := isShare_noteEnvelope (ht₁ ▸ h) channel (.reading time₁) (m₁.note channel key)
  -- a note that has been cleared is silent
  have of_cleared (hnone : (m₂.note channel key).onTime = none) :
      m₂.noteEnvelope channel (.reading time₂) (m₂.note channel key) ≤
        m₁.noteEnvelope channel (.reading time₁) (m₁.note channel key) := by
    have hsilent : (m₂.note channel key).hasSounded = false := by
      unfold NoteState.hasSounded
      rw [hnone]
      rfl
    rw [noteEnvelope_of_not_hasSounded m₂ channel _ hsilent]
    exact hshare₁.nonneg
  have hnote₁ := after_note_since_strike (m := (new timings).after before) strikes
    (fun input hin => unstruck input (List.mem_append_left second hin)) hfirst
  rw [← after_append] at hnote₁
  have hnote₂ := after_note_cases (m := m₁)
    (fun input hin => unstruck input (List.mem_append_right first hin)) hsecond
  obtain hnone₂ | ⟨hon₂, hoff₂⟩ := hnote₂
  · exact of_cleared hnone₂
  obtain hnone₁ | ⟨hon₁, hoff₁⟩ := hnote₁
  · exact of_cleared (hon₂.trans hnone₁)
  replace hon₂ := hon₂.trans hon₁
  unfold noteEnvelope
  rw [ht₁, ht₂]
  split
  next => exact EnvelopeTimings.percussionEnvelope_le hon₁ h.releaseMs hon₂ honset ordered half
  next melodic =>
    obtain hheld | ⟨off, hlow, hhigh, hoff⟩ := hoff₁
    · -- a key that is down keeps its note at full height
      rw [EnvelopeTimings.envelope_of_held hon₁ hheld]
      exact (EnvelopeTimings.isShare_envelope h.releaseMs _ _).le_one
    obtain hsame | ⟨release, hafter, hbefore, hreleases, hrelease⟩ := hoff₂
    · exact EnvelopeTimings.envelope_le_of_released hon₁ h.releaseMs hon₂ honset ordered half hoff
        (hsame.trans hoff) hlow hhigh hlow (by omega) (by omega)
    · exact EnvelopeTimings.envelope_le_of_released hon₁ h.releaseMs hon₂ honset ordered half hoff
        hrelease hlow hhigh (by omega) hbefore
        (again melodic off release hlow hhigh hoff hafter hbefore hreleases)

/-- A note-off, for the note of `softly`. -/
def softOff (time : Nat) : Input := .message (ShortMessage.noteOff 0 60).pack (.reading time)

/-- A monitor behind a note at the start of time that is released after a tenth of a second. -/
def softly : Monitor :=
  (new .standard).after
    ([] ++ .message (ShortMessage.noteOn 0 60 127).pack (.reading 0) :: [softOff 100000])

theorem strikes_softly :
    (ShortMessage.unpack (ShortMessage.noteOn 0 60 127).pack).event.strikes 0 60 := by
  decide +kernel

theorem not_strikes_softOff (time : Nat) : ¬ (softOff time).brings (Event.strikes 0 60) :=
  not_brings_of_releases (show (ShortMessage.unpack (ShortMessage.noteOff 0 60).pack).event.releases
    0 60 by decide +kernel)

theorem unstruck_softly (time : Nat) :
    ∀ input ∈ [softOff 100000] ++ [softOff time], ¬ input.brings (Event.strikes 0 60) := by
  intro input hin
  simp only [List.singleton_append, List.mem_cons, List.not_mem_nil, or_false] at hin
  obtain rfl | rfl := hin
  · exact not_strikes_softOff 100000
  · exact not_strikes_softOff time

theorem arrivesIn_softOff {time low high : Nat} (h₁ : low ≤ time) (h₂ : time ≤ high) :
    ∀ input ∈ [softOff time], input.ArrivesIn low high := by
  intro input hin
  rw [List.mem_singleton.mp hin]
  exact ⟨time, h₁, h₂, rfl⟩

/-- The note is released again half a second later. After another half second it is as low as it was
then. -/
theorem noteEnvelope_le_again :
    let m := softly.after [softOff 600000]
    EnvelopeTimings.standard.Usable ∧
      m.noteEnvelope 0 (.reading 1100000) (m.note 0 60) ≤
        softly.noteEnvelope 0 (.reading 600000) (softly.note 0 60) := by
  intro m
  have hoff₁ : (softly.note 0 60).offTime = some (.reading 100000) := by decide +kernel
  refine ⟨EnvelopeTimings.standard_usable, noteEnvelope_le EnvelopeTimings.standard_usable []
    strikes_softly (unstruck_softly 600000) (arrivesIn_softOff (by decide) (by decide))
    (arrivesIn_softOff le_rfl (by decide)) (by decide) (by decide) (by decide) ?_⟩
  rintro - off release - hoff hoffTime - hrelease ⟨input, hin, stop, hinput, -⟩
  have hold : off = 100000 :=
    Tick.reading_inj (by omega) (by decide) (Option.some.inj (hoffTime.symm.trans hoff₁))
  rw [List.mem_singleton.mp hin] at hinput
  have hnew : 600000 = release :=
    Tick.reading_inj (by decide) (by omega) (Input.message.inj hinput).2
  omega

/-- Without its last hypothesis `noteEnvelope_le` does not hold: a released note that is released
again is back at full height. -/
theorem noteEnvelope_rises :
    ¬ ∀ (channel : Channel) (key : DataByte) (strike : UInt32) (onset time₁ time₂ : Nat)
      (first second : List Input), channel ≠ percussionChannel →
        (ShortMessage.unpack strike).event.strikes channel key →
        (∀ input ∈ first ++ second, ¬ input.brings (Event.strikes channel key)) →
        (∀ input ∈ first, input.ArrivesIn onset time₁) →
        (∀ input ∈ second, input.ArrivesIn time₁ time₂) →
        onset ≤ time₁ → time₁ ≤ time₂ → time₂ < onset + 2 ^ 31 →
        let m₁ := (new .standard).after ([] ++ .message strike (.reading onset) :: first)
        let m₂ := m₁.after second
        m₂.noteEnvelope channel (.reading time₂) (m₂.note channel key) ≤
          m₁.noteEnvelope channel (.reading time₁) (m₁.note channel key) := by
  intro hfades
  have hle := hfades 0 60 _ 0 600000 700000 [softOff 100000] [softOff 700000] (by decide)
    strikes_softly (unstruck_softly 700000) (arrivesIn_softOff (by decide) (by decide))
    (arrivesIn_softOff (by decide) le_rfl) (by decide) (by decide) (by decide)
  have hrises : ¬ (softly.after [softOff 700000]).noteEnvelope 0 (.reading 700000)
      ((softly.after [softOff 700000]).note 0 60) ≤
        softly.noteEnvelope 0 (.reading 600000) (softly.note 0 60) := by decide +kernel
  exact hrises hle

end Monitor
end MidiPanel
