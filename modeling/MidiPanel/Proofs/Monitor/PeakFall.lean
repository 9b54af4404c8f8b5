import MidiPanel.Proofs.Monitor.Fading
import MidiPanel.Proofs.Monitor.PeakHistory

/-!
# Peaks do not rise by themselves

A falling peak is not stored: every query computes its height anew, from the span since the query
that has set it, and the counter tells that span modulo a turn. The height never rises with the
span, in single precision either. If a peak is held and falls from the top within a quarter of a
turn, nothing is left of it after half a turn, and the next query sets it to the level. So if there
is less than half a turn from each query to the next, a peak that has not been set since lies less
than a turn back, where the span is told as it is.

Results:
* `heightAfter_antitone`, `heightAfter_eq_zero`: the height of a peak, by the span.
* `Told.pending`: what a run of messages and queries keeps.
* `peak_le_maximum_previous`: from one query to the next a peak does not rise past the level, and
  it does not fall while it is held.
-/

namespace MidiPanel

open Single

/-- The more is taken off a share, the less is left. -/
theorem Single.clamp_sub_antitone {l : Nat} {fl : Fits l} {x y : Single} (hl : l ≤ unitsPerOne)
    (hx : (∃ n fn, x = finite false n fn) ∨ x = infinite false)
    (hy : (∃ n fn, y = finite false n fn) ∨ y = infinite false) (hxy : x ≤ y) :
    (finite false l fl - y).clamp 0 1 ≤ (finite false l fl - x).clamp 0 1 := by
  have hleft : IsShare ((finite false l fl - x).clamp 0 1) :=
    (within_clamp_sub hl hx).mono le_rfl hl
  have hrest {k : Nat} {fk : Fits k} (hk : k ≤ l) :
      IsShare (finite false l fl - finite false k fk) :=
    (within_sub hk fits_zero fl (Nat.zero_le _) (Nat.sub_le _ _)).mono le_rfl hl
  rcases hy with ⟨n', fn', rfl⟩ | rfl
  · rcases Nat.le_total l n' with hall | hpart
    · rw [clamp_sub_of_le hall]
      exact hleft.nonneg
    · rcases hx with ⟨n, fn, rfl⟩ | rfl
      · rw [finite_le_finite] at hxy
        rw [(hrest hpart).clamp_eq, (hrest (Nat.le_trans hxy hpart)).clamp_eq]
        exact finite_sub_le_finite_sub hxy hpart
      · cases eq_of_infinite_le hxy
  · rw [clamp_sub_infinite]
    exact hleft.nonneg

/-! ## The height of a peak -/

/-- Holding a peak and letting it fall from the top takes a quarter of a turn of the counter at
most. -/
def EnvelopeTimings.Brief (timings : EnvelopeTimings) : Prop :=
  ∀ hold ∈ timings.holdMs.rank, ∀ falloff ∈ timings.falloffMs.rank,
    (hold + falloff) * 1000 ≤ 2 ^ 30 * (unitsPerOne : Int)

namespace Peak

/-- How far a peak has fallen after a span, in full heights. -/
def fall (timings : EnvelopeTimings) (span : Tick) : Single :=
  (Tick.toMillis span - timings.holdMs) / timings.falloffMs

variable {timings : EnvelopeTimings} {level : Single} {span span' : Tick}

theorem held_or_falls (ht : timings.Usable) (span : Tick) :
    Tick.toMillis span < timings.holdMs ∨ timings.holdMs ≤ Tick.toMillis span := by
  obtain ⟨k, fk, hk, -⟩ := ht.holdMs.exists_units
  obtain ⟨m, fm, hm⟩ := Tick.toMillis_finite span
  rw [hk, hm, finite_lt_finite, finite_le_finite]
  exact Nat.lt_or_ge m k

theorem heightAfter_of_held (h : Tick.toMillis span < timings.holdMs) :
    heightAfter timings level span = level := if_pos h

section Falls

variable (ht : timings.Usable) (h : timings.holdMs ≤ Tick.toMillis span)

include ht h

/-- How long a peak has fallen is a finite time. -/
theorem exists_falling_units :
    ∃ d fd, Tick.toMillis span - timings.holdMs = finite false d fd := by
  obtain ⟨k, fk, hk, -⟩ := ht.holdMs.exists_units
  obtain ⟨m, fm, hm⟩ := Tick.toMillis_finite span
  rw [hk, hm, finite_le_finite] at h
  obtain ⟨d, fd, hd, -, -⟩ : Within false 0 m (finite false m fm - finite false k fk) :=
    within_sub h fits_zero fm (Nat.zero_le _) (Nat.sub_le _ _)
  rw [hk, hm]
  exact ⟨d, fd, hd⟩

theorem heightAfter_of_falls :
    heightAfter timings level span = (level - fall timings span).clamp 0 1 := by
  obtain ⟨d, fd, hd⟩ := exists_falling_units ht h
  unfold heightAfter fall
  dsimp only
  rw [if_neg (Single.not_lt_of_le h), hd, Single.maximum_zero]

theorem fall_cases :
    (∃ n fn, fall timings span = finite false n fn) ∨ fall timings span = infinite false := by
  obtain ⟨n, fn, hn, hpos⟩ := ht.falloffMs.exists_units
  obtain ⟨d, fd, hd⟩ := exists_falling_units ht h
  unfold fall
  rw [hn, hd]
  exact finite_div_cases fd fn hpos

theorem fall_mono (hle : span ≤ span') (h' : timings.holdMs ≤ Tick.toMillis span') :
    fall timings span ≤ fall timings span' := by
  obtain ⟨n, fn, hn, hpos⟩ := ht.falloffMs.exists_units
  obtain ⟨d, fd, hd⟩ := exists_falling_units ht h
  obtain ⟨d', fd', hd'⟩ := exists_falling_units ht h'
  have hfalling : Tick.toMillis span - timings.holdMs ≤ Tick.toMillis span' - timings.holdMs := by
    obtain ⟨k, fk, hk, -⟩ := ht.holdMs.exists_units
    obtain ⟨m, fm, hm⟩ := Tick.toMillis_finite span
    obtain ⟨m', fm', hm'⟩ := Tick.toMillis_finite span'
    have hmillis := Tick.toMillis_mono hle
    rw [hm, hm', finite_le_finite] at hmillis
    rw [hk, hm, finite_le_finite] at h
    rw [hk, hm, hm']
    exact finite_sub_le_finite_sub_of_le h hmillis
  unfold fall
  rw [hd, hd', finite_le_finite] at hfalling
  rw [hd, hd', hn]
  exact finite_div_le_finite_div hpos hfalling

end Falls

theorem heightAfter_le (ht : timings.Usable) (hlevel : IsShare level) (span : Tick) :
    heightAfter timings level span ≤ level := by
  rcases held_or_falls ht span with hheld | hfalls
  · rw [heightAfter_of_held hheld]
    exact hlevel.le_refl
  · obtain ⟨l, fl, rfl, -, hl⟩ := hlevel
    obtain ⟨r, fr, hr, -, hle⟩ :
        Within false 0 l ((finite false l fl - fall timings span).clamp 0 1) :=
      within_clamp_sub hl (fall_cases ht hfalls)
    rwa [heightAfter_of_falls ht hfalls, hr, finite_le_finite]

/-- The longer a peak has not been set, the lower it is. -/
theorem heightAfter_antitone (ht : timings.Usable) (hlevel : IsShare level) (hle : span ≤ span') :
    heightAfter timings level span' ≤ heightAfter timings level span := by
  rcases held_or_falls ht span with hheld | hfalls
  · rw [heightAfter_of_held hheld]
    exact heightAfter_le ht hlevel span'
  · obtain ⟨l, fl, rfl, -, hl⟩ := hlevel
    have hfalls' := Single.le_trans hfalls (Tick.toMillis_mono hle)
    rw [heightAfter_of_falls ht hfalls, heightAfter_of_falls ht hfalls']
    exact clamp_sub_antitone hl (fall_cases ht hfalls) (fall_cases ht hfalls')
      (fall_mono ht hfalls hle hfalls')

/-- Half a turn is more than two million milliseconds. -/
theorem within_half_turn (hlong : 2 ^ 31 ≤ span.toNat) :
    Within false (2147483 * unitsPerOne) (2 ^ 32 * unitsPerOne) (Tick.toMillis span) := by
  have hturn : span.toNat < 2 ^ 32 := span.toNat_lt
  have hhalf : Fits (2 ^ 31 * unitsPerOne) := by
    rw [unitsPerOne_eq, ← pow_add]
    exact fits_two_pow (by decide)
  refine Tick.within_toMillis span hhalf Tick.fits_turn (fits_whole (by decide)) Tick.fits_turn
    (Nat.mul_le_mul_right _ hlong) (Nat.mul_le_mul_right _ hturn.le) ?_ (by omega)
  rw [Nat.mul_right_comm]
  exact Nat.mul_le_mul_right _ (by decide)

/-- Half a turn is long enough for a peak to fall from the top. -/
theorem one_le_fall (ht : timings.Usable) (hbrief : timings.Brief) (hlong : 2 ^ 31 ≤ span.toNat) :
    timings.holdMs ≤ Tick.toMillis span ∧ 1 ≤ fall timings span := by
  obtain ⟨n, fn, hn, hpos⟩ := ht.falloffMs.exists_units
  obtain ⟨k, fk, hk, -⟩ := ht.holdMs.exists_units
  obtain ⟨m, fm, hm, hmillis, -⟩ := within_half_turn hlong
  have hsum : (k + n) * 1000 ≤ 2 ^ 30 * unitsPerOne := by
    rw [EnvelopeTimings.Brief, hn, hk] at hbrief
    exact_mod_cast hbrief k rfl n rfl
  have hover : k + n ≤ m := by
    generalize unitsPerOne = one at hmillis hsum
    omega
  obtain ⟨d, fd, hd, hlow, -⟩ : Within false n m (finite false m fm - finite false k fk) :=
    within_sub (by omega) fn fm (by omega) (Nat.sub_le _ _)
  have htop : finite false n fn / finite false n fn = 1 := finite_div_self hpos
  unfold fall
  rw [hm, hk, hn, finite_le_finite, hd, ← htop]
  exact ⟨by omega, finite_div_le_finite_div hpos hlow⟩

/-- Nothing is left of a peak that has not been set for half a turn. -/
theorem heightAfter_eq_zero (ht : timings.Usable) (hbrief : timings.Brief)
    (hlevel : IsShare level) (hlong : 2 ^ 31 ≤ span.toNat) :
    heightAfter timings level span = 0 := by
  obtain ⟨hfalls, hone⟩ := one_le_fall ht hbrief hlong
  obtain ⟨l, fl, rfl, -, hl⟩ := hlevel
  have hshare : IsShare ((finite false l fl - fall timings span).clamp 0 1) :=
    (within_clamp_sub hl (fall_cases ht hfalls)).mono le_rfl hl
  have hle : (finite false l fl - fall timings span).clamp 0 1 ≤ 0 :=
    calc (finite false l fl - fall timings span).clamp 0 1
        ≤ (finite false l fl - finite false unitsPerOne fits_one).clamp 0 1 :=
          clamp_sub_antitone hl (.inl ⟨_, _, rfl⟩) (fall_cases ht hfalls) (one_eq ▸ hone)
      _ = 0 := clamp_sub_of_le hl
  rw [heightAfter_of_falls ht hfalls]
  exact hshare.eq_zero_of_not_pos (Single.not_lt_of_le hle)

end Peak

namespace Monitor

/-! ## Runs of messages and queries -/

/-- What the queries of a run have told since the monitor was new, the newest first and each with
its time, and the time and the monitor behind the run. Time does not go back, and there is less than
half a turn of the counter from each query to the next. -/
inductive Told (timings : EnvelopeTimings) : List (Nat × Vector Reading 16) → Nat → Monitor → Prop
  | new (start : Nat) : Told timings [] start (.new timings)
  | message {told : List (Nat × Vector Reading 16)} {now : Nat} {m : Monitor}
      (h : Told timings told now m) (packed : UInt32) {time : Nat} (hle : now ≤ time) :
      Told timings told time (m.receive packed (Tick.reading time))
  | query {told : List (Nat × Vector Reading 16)} {now : Nat} {m : Monitor}
      (h : Told timings told now m) {time : Nat} (hle : now ≤ time)
      (hnear : ∀ previous ∈ told.head?, time < previous.1 + 2 ^ 31) :
      Told timings ((time, (m.query (Tick.reading time)).1) :: told) time
        (m.query (Tick.reading time)).2

/-- The query has set the peak of the channel to its level. -/
def setsPeak (channel : Channel) (query : Nat × Vector Reading 16) : Bool :=
  (query.2.get channel).peak = (query.2.get channel).level

/-- Behind a run whose last query was `previous`, the peak of a channel is still that of the query
`setter`, less than half a turn before, and `previous` has told its height. -/
structure Pending (timings : EnvelopeTimings) (channel : Channel)
    (setter previous : Nat × Vector Reading 16) (p : Peak) : Prop where
  peak : p = ⟨(setter.2.get channel).level, Tick.reading setter.1⟩
  ordered : setter.1 ≤ previous.1
  near : previous.1 < setter.1 + 2 ^ 31
  height : (previous.2.get channel).peak = p.fallen timings (Tick.reading previous.1)

variable {timings : EnvelopeTimings} {told : List (Nat × Vector Reading 16)} {now time : Nat}
  {m : Monitor} {channel : Channel}

theorem Told.sound (run : Told timings told now m) (ht : timings.Usable) :
    Sound m ∧ m.timings = timings := by
  induction run with
  | new start => exact ⟨sound_new ht, rfl⟩
  | @message _ _ m _ packed time _ ih =>
    exact ⟨ih.1.next (.message packed (Tick.reading time)), (receive_timings m _ _).trans ih.2⟩
  | @query _ _ m _ time _ _ ih =>
    exact ⟨ih.1.next (.query (Tick.reading time)), (query_timings m _).trans ih.2⟩

/-- The height of a pending peak at a query less than half a turn behind the one before. -/
theorem Pending.fallen_eq {setter previous : Nat × Vector Reading 16} {p : Peak}
    (h : Pending timings channel setter previous p) (ht : timings.Usable) {time : Nat}
    (hle : previous.1 ≤ time) (hnear : time < previous.1 + 2 ^ 31) :
    ∃ span : Tick, span.toNat = time - setter.1 ∧
      p.fallen timings (Tick.reading time) = Peak.heightAfter timings p.level span := by
  have hspan := Tick.toNat_elapsed_reading (Nat.le_trans h.ordered hle)
  rw [Nat.mod_eq_of_lt (by have := h.near; omega)] at hspan
  refine ⟨_, hspan, ?_⟩
  rw [Peak.fallen_eq_heightAt ht, Peak.heightAt, h.peak]

/-- Behind a run a peak is as it was at first, if there has been no query, or it is pending. -/
theorem Told.pending (run : Told timings told now m) (ht : timings.Usable) (hbrief : timings.Brief)
    (channel : Channel) :
    (told = [] ∧ m.peaks.get channel = .initial) ∨
      ∃ previous ∈ told.head?, previous.1 ≤ now ∧
        ∃ setter ∈ told.find? (setsPeak channel),
          Pending timings channel setter previous (m.peaks.get channel) := by
  induction run with
  | new start => exact .inl ⟨rfl, by simp [Monitor.new, get_eq_getElem]⟩
  | message run packed hle ih =>
    rw [receive_peaks]
    obtain hnone | ⟨previous, hprevious, hnow, hpending⟩ := ih
    · exact .inl hnone
    · exact .inr ⟨previous, hprevious, hnow.trans hle, hpending⟩
  | @query told now m run time hle hnear ih =>
    obtain ⟨hm, htimings⟩ := run.sound ht
    have hshare : IsShare (m.loudness channel (Tick.reading time)) :=
      isShare_loudness hm.timings channel (Tick.reading time)
    have hlevel := query_level m (Tick.reading time) channel
    have hpeak := query_reading_peak m (Tick.reading time) channel
    have hstored := query_peak m (Tick.reading time) channel
    rw [htimings] at hpeak hstored
    refine .inr ⟨_, rfl, le_rfl, ?_⟩
    rw [List.find?_cons]
    split_ifs at hpeak hstored with hset
    · have hsets : setsPeak channel (time, (m.query (Tick.reading time)).1) = true :=
        decide_eq_true (hpeak.trans hlevel.symm)
      rw [hsets, hstored]
      exact ⟨_, rfl, by rw [hlevel], le_rfl, by omega, by rw [Peak.fallen_at_time ht, hpeak]⟩
    · have hkeeps : setsPeak channel (time, (m.query (Tick.reading time)).1) = false := by
        refine decide_eq_false fun hsame => hset ?_
        rw [← hpeak, hsame, hlevel]
        exact hshare.le_refl
      have hleft : (m.peaks.get channel).fallen timings (Tick.reading time) ≠ 0 := by
        intro hzero
        rw [hzero] at hset
        exact hset hshare.nonneg
      rw [hkeeps, hstored]
      obtain ⟨-, hinitial⟩ | ⟨previous, hprevious, hnow, setter, hsetter, hpending⟩ := ih
      · exact absurd (Peak.fallen_of_level_eq_zero ht (by rw [hinitial]; rfl) _) hleft
      · have hlater := Nat.le_trans hnow hle
        refine ⟨setter, hsetter, hpending.peak, Nat.le_trans hpending.ordered hlater, ?_, hpeak⟩
        by_contra hlong
        obtain ⟨span, hspan, hheight⟩ :=
          hpending.fallen_eq ht hlater (hnear previous hprevious)
        refine hleft (hheight.trans ?_)
        exact Peak.heightAfter_eq_zero ht hbrief (hm.peaks channel) (by omega)

/-- From one query to the next a peak does not rise, unless it rises to the level. It does not fall
either while less than the time to hold it has passed since the latest query before that has set it
to the level: the time between the two, not what is left of it modulo a turn. The first query sets
it. -/
theorem peak_le_maximum_previous (ht : timings.Usable) (hbrief : timings.Brief)
    (run : Told timings told now m) (hle : now ≤ time)
    (hnear : ∀ previous ∈ told.head?, time < previous.1 + 2 ^ 31) (channel : Channel) :
    let reading := (m.query (Tick.reading time)).1.get channel
    (told = [] → reading.peak = reading.level) ∧
      ∀ previous ∈ told.head?,
        reading.peak ≤ (previous.2.get channel).peak.maximum reading.level ∧
          ∃ setter ∈ told.find? (setsPeak channel),
            Single.ofNat (time - setter.1) / 1000 < timings.holdMs →
              (previous.2.get channel).peak ≤ reading.peak := by
  intro reading
  obtain ⟨hm, htimings⟩ := run.sound ht
  let height := (m.peaks.get channel).fallen timings (Tick.reading time)
  have hlevel : IsShare reading.level := by
    rw [show reading.level = _ from query_level m _ channel]
    exact isShare_loudness hm.timings channel _
  have hheight : IsShare height := Peak.isShare_fallen ht (hm.peaks channel) _
  have hpeak : reading.peak = reading.level.maximum height := by
    rw [show reading.peak = _ from hm.query_peak_eq _ channel,
      show reading.level = _ from query_level m _ channel, htimings]
  obtain ⟨rfl, hinitial⟩ | ⟨previous, hprevious, hnow, setter, hsetter, hpending⟩ :=
    run.pending ht hbrief channel
  · refine ⟨fun _ => ?_, fun previous hprevious => nomatch hprevious⟩
    have hzero : height = 0 := Peak.fallen_of_level_eq_zero ht (by rw [hinitial]; rfl) _
    rw [hpeak, hzero, hlevel.maximum_zero]
  · refine ⟨fun hnone => ?_, fun latest hlatest => ?_⟩
    · rw [hnone] at hprevious
      cases hprevious
    obtain rfl := Option.mem_unique hprevious hlatest
    have hlater : previous.1 ≤ time := Nat.le_trans hnow hle
    have hbefore : IsShare (previous.2.get channel).peak := by
      rw [hpending.height]
      exact Peak.isShare_fallen ht (hm.peaks channel) _
    obtain ⟨span, hspan, hat⟩ := hpending.fallen_eq ht hlater (hnear previous hprevious)
    obtain ⟨span', hspan', hat'⟩ := hpending.fallen_eq ht le_rfl (by omega)
    refine ⟨?rises, setter, hsetter, ?held⟩
    case rises =>
      have hfalls : height ≤ (previous.2.get channel).peak := by
        rw [hpending.height, show height = _ from hat, hat']
        exact Peak.heightAfter_antitone ht (hm.peaks channel)
          (UInt32.le_iff_toNat_le.mpr (by omega))
      rw [hpeak]
      obtain hmax | hmax := hlevel.maximum_choice hheight
      · rw [hmax]
        exact hbefore.le_maximum_right hlevel
      · rw [hmax]
        exact Single.le_trans hfalls (hbefore.le_maximum_left hlevel)
    case held =>
      intro hheld
      rw [← hspan] at hheld
      rw [hpending.height, hat', hpeak]
      have htop : height = (m.peaks.get channel).level := by
        rw [show height = _ from hat]
        exact Peak.heightAfter_of_held hheld
      exact Single.le_trans (htop ▸ Peak.heightAfter_le ht (hm.peaks channel) span')
        (hlevel.le_maximum_right hheight)

theorem standard_brief : EnvelopeTimings.standard.Brief := by
  unfold EnvelopeTimings.Brief
  decide +kernel

/-- A note is struck and read, released, and read again behind the wrap of the counter, while its
peak is still held. -/
theorem peak_le_maximum_previous_across_wrap :
    let struck := (Monitor.new .standard).receive (ShortMessage.noteOn 0 60 127).pack
      (Tick.reading 4294900000)
    let first := struck.query (Tick.reading 4294900010)
    let released := first.2.receive (ShortMessage.noteOff 0 60).pack (Tick.reading 4294900020)
    let reading := (released.query (Tick.reading 4295700000)).1.get 0
    EnvelopeTimings.standard.Usable ∧ EnvelopeTimings.standard.Brief ∧
      Told .standard [(4294900010, first.1)] 4294900020 released ∧
      reading.peak ≤ (first.1.get 0).peak.maximum reading.level ∧
      (first.1.get 0).peak ≤ reading.peak := by
  intro struck first released reading
  have run : Told .standard [(4294900010, first.1)] 4294900020 released :=
    .message (.query (.message (.new 4294900000) _ le_rfl) (by decide) (by simp)) _ (by decide)
  have hle : 4294900020 ≤ 4295700000 := by decide
  have hnear : ∀ previous ∈ [((4294900010 : Nat), first.1)].head?,
      4295700000 < previous.1 + 2 ^ 31 := by
    intro previous hprevious
    rw [← Option.some.inj hprevious]
    decide
  obtain ⟨-, hprevious⟩ := peak_le_maximum_previous EnvelopeTimings.standard_usable standard_brief
    run hle hnear 0
  obtain ⟨hrises, setter, hsetter, hheld⟩ := hprevious _ rfl
  refine ⟨EnvelopeTimings.standard_usable, standard_brief, run, hrises, hheld ?_⟩
  rw [List.mem_singleton.mp (List.mem_of_find?_eq_some hsetter)]
  decide +kernel

end Monitor
end MidiPanel
