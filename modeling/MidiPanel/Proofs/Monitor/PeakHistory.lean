import MidiPanel.Proofs.Monitor.Range
import Mathlib.Data.List.Induction

/-!
# The trajectory of a peak

A peak can be told from the levels that the queries so far have read. A query snaps if its level is
at or above the height to which the peak of the latest earlier snap has fallen by then. The peak
that it reports is the greater of its level and that height. A query that does not snap leaves no
trace, however often it is made: the fall is counted from the snap and not from the last query.

Results:
* `peak_eq_lastSnap`: the stored peak is the latest snap of the history.
* `peak_trajectory`: the reported peak, and what queries and messages leave alone.
-/

namespace MidiPanel

open Single

namespace Peak

/-- The height of a peak of this level after a span: held at first, then falling linearly. -/
def heightAfter (timings : EnvelopeTimings) (level : Single) (span : Tick) : Single :=
  let held := Tick.toMillis span
  if held < timings.holdMs then level
  else (level - (held - timings.holdMs).maximum 0 / timings.falloffMs).clamp 0 1

/-- The height at `now` of the peak that `snap` has set. -/
def heightAt (timings : EnvelopeTimings) (snap : Peak) (now : Tick) : Single :=
  heightAfter timings snap.level (Tick.elapsed now snap.time)

/-- The latest snap among samples, the newest first: a sample snaps if it is at or above the height
of the latest snap before it. -/
def lastSnap (timings : EnvelopeTimings) : List Peak → Peak
  | [] => ⟨0, 0⟩
  | sample :: earlier =>
    let last := lastSnap timings earlier
    if heightAt timings last sample.time ≤ sample.level then sample else last

theorem fallen_eq_heightAt {timings : EnvelopeTimings} (h : timings.Usable) (p : Peak)
    (now : Tick) : p.fallen timings now = heightAt timings p now := by
  obtain ⟨n, fn, hn, -⟩ := h.holdMs.exists_units
  obtain ⟨m, fm, hm⟩ := Tick.toMillis_finite (Tick.elapsed now p.time)
  unfold fallen heightAt heightAfter
  dsimp only
  rw [hn, hm]
  simp only [finite_le_finite, finite_lt_finite]
  rcases Nat.lt_or_ge m n with hlt | hge
  · rw [if_pos hlt, if_neg (Nat.not_le.mpr hlt)]
  · rw [if_neg (Nat.not_lt.mpr hge), if_pos hge]

end Peak

namespace Monitor

/-- What the queries of a history have read of one channel, the newest first. -/
def samples (m : Monitor) (channel : Channel) (history : List Input) : List Peak :=
  ((m.readings history).map fun (now, readings) => ⟨(readings.get channel).level, now⟩).reverse

theorem samples_concat_message (m : Monitor) (channel : Channel) (history : List Input)
    (packed : UInt32) (now : Tick) :
    m.samples channel (history ++ [.message packed now]) = m.samples channel history := by
  unfold samples
  rw [readings_append]
  simp [readings]

theorem samples_concat_query (m : Monitor) (channel : Channel) (history : List Input)
    (now : Tick) :
    m.samples channel (history ++ [.query now]) =
      ⟨(m.after history).loudness channel now, now⟩ :: m.samples channel history := by
  unfold samples
  rw [readings_append, List.map_append, List.reverse_append]
  simp only [readings, List.map_cons, List.map_nil, List.reverse_singleton, List.singleton_append,
    query_level]

theorem peak_eq_lastSnap {timings : EnvelopeTimings} (h : timings.Usable) (channel : Channel)
    (history : List Input) :
    ((Monitor.new timings).after history).peaks.get channel =
      Peak.lastSnap timings ((Monitor.new timings).samples channel history) := by
  induction history using List.reverseRecOn with
  | nil => simp [new, get_eq_getElem, samples, readings, Peak.lastSnap, Peak.initial]
  | append_singleton history input ih =>
    rw [after_append, after_cons, after_nil]
    cases input with
    | message packed now =>
      rw [samples_concat_message, ← ih]
      exact congrArg (·.get channel) (receive_peaks _ packed now)
    | query now =>
      show (((Monitor.new timings).after history).query now).2.peaks.get channel = _
      rw [query_peak, samples_concat_query, Peak.lastSnap, ← ih, after_timings]
      dsimp only
      rw [show (Monitor.new timings).timings = timings from rfl, Peak.fallen_eq_heightAt h]

/-- A query at `now` snaps for a channel behind a history. -/
def Snaps (timings : EnvelopeTimings) (history : List Input) (now : Tick) (channel : Channel) :
    Prop :=
  let m := (Monitor.new timings).after history
  Peak.heightAt timings (Peak.lastSnap timings ((Monitor.new timings).samples channel history)) now
    ≤ ((m.query now).1.get channel).level

theorem query_peak_of_not_snaps {timings : EnvelopeTimings} (h : timings.Usable)
    {history : List Input} {now : Tick} {channel : Channel}
    (hs : ¬ Snaps timings history now channel) :
    (((Monitor.new timings).after history).query now).2.peaks.get channel =
      ((Monitor.new timings).after history).peaks.get channel := by
  rw [query_peak, after_timings, show (Monitor.new timings).timings = timings from rfl,
    Peak.fallen_eq_heightAt h, peak_eq_lastSnap h]
  refine if_neg ?_
  rwa [Snaps, query_level] at hs

theorem query_of_not_snaps {timings : EnvelopeTimings} (h : timings.Usable) {history : List Input}
    {now : Tick} (hs : ∀ channel, ¬ Snaps timings history now channel) :
    (((Monitor.new timings).after history).query now).2 = (Monitor.new timings).after history := by
  generalize hm : (Monitor.new timings).after history = m
  have hpeaks : (m.query now).2.peaks = m.peaks := by
    refine Vector.ext fun i hi => ?_
    subst hm
    exact query_peak_of_not_snaps h (hs ⟨i, hi⟩)
  cases m
  exact congrArg (fun peaks => Monitor.mk _ peaks _) hpeaks

theorem after_queries {m : Monitor} {ticks : List Tick}
    (h : ∀ tick ∈ ticks, (m.query tick).2 = m) : m.after (ticks.map .query) = m := by
  induction ticks with
  | nil => rfl
  | cons tick ticks ih =>
    rw [List.map_cons, after_cons, show m.next (.query tick) = (m.query tick).2 from rfl,
      h tick List.mem_cons_self]
    exact ih fun t ht => h t (List.mem_cons_of_mem tick ht)

/-- The reported peak is the greater of the level and the height of the latest earlier snap. A query
that does not snap for a channel leaves its peak alone, and any number of queries that snap for none
leave the whole monitor alone; no message changes a peak, no query a note or a controller. -/
theorem peak_trajectory {timings : EnvelopeTimings} (h : timings.Usable) (history : List Input)
    (now : Tick) :
    let m := (Monitor.new timings).after history
    (∀ channel : Channel, ((m.query now).1.get channel).peak =
      ((m.query now).1.get channel).level.maximum (Peak.heightAt timings
        (Peak.lastSnap timings ((Monitor.new timings).samples channel history)) now)) ∧
    (∀ channel : Channel, ¬ Snaps timings history now channel →
      (m.query now).2.peaks.get channel = m.peaks.get channel) ∧
    (∀ ticks : List Tick, (∀ tick ∈ ticks, ∀ channel, ¬ Snaps timings history tick channel) →
      (Monitor.new timings).after (history ++ ticks.map .query) = m) ∧
    (∀ packed tick, (m.receive packed tick).peaks = m.peaks) ∧
    (m.query now).2.channels = m.channels := by
  intro m
  have hm : Sound m := (sound_new h).after history
  refine ⟨fun channel => ?_, fun channel => query_peak_of_not_snaps h, fun ticks hticks => ?_,
    receive_peaks m, query_channels m now⟩
  · have htimings : m.timings = timings := after_timings _ history
    rw [hm.query_peak_eq, query_level, htimings, Peak.fallen_eq_heightAt h, peak_eq_lastSnap h]
  · rw [after_append]
    exact after_queries fun tick ht => query_of_not_snaps h (hticks tick ht)

/-- A note is struck and read, and read again while its peak falls. -/
theorem peak_trajectory_standard :
    let history : List Input := [.message (ShortMessage.noteOn 0 60 127).pack 0, .query 0,
      .message (ShortMessage.noteOff 0 60).pack 10, .query 1500000]
    let m := (Monitor.new .standard).after history
    EnvelopeTimings.standard.Usable ∧
      ((m.query 2000000).1.get 0).peak =
        ((m.query 2000000).1.get 0).level.maximum (Peak.heightAt .standard
          (Peak.lastSnap .standard ((Monitor.new .standard).samples 0 history)) 2000000) ∧
      (m.query 2000000).2.channels = m.channels := by
  intro history m
  obtain ⟨hpeak, -, -, -, hchannels⟩ :=
    peak_trajectory EnvelopeTimings.standard_usable history 2000000
  exact ⟨EnvelopeTimings.standard_usable, hpeak 0, hchannels⟩

end Monitor
end MidiPanel
