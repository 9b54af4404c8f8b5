import MidiPanel.Proofs.Monitor.NoteHistory
import MidiPanel.Proofs.Monitor.Range
import MidiPanel.Proofs.Tick

/-!
# The silence of finished notes

A finished note is a drum since its latest note-on, or any other note since the note-off behind its
latest note-on, as long as no further message names it. The standard release lasts a million ticks,
and for half a turn of the counter from its onset on a finished note stays silent after it.

Beyond that the counter does not tell how long ago the onset was. A query in the second half of a
turn is taken for one from before the onset and reads as the onset, so that a drum is back at full
height; and each full turn brings the release back. The span that the counter makes out decides
exactly when a finished note is silent.

Results:
* `toNat_elapsed_judgedAt`: the release that the counter makes out.
* `Finished.silent_iff`: when a finished note is silent.
* `Finished.not_silent_for_good`: not always.
-/

namespace MidiPanel

/-- How long a release at `release` of a note from `onset` has lasted at `time`, as far as the
counter can tell. -/
def countedRelease (onset release time : Nat) : Nat :=
  if (time - onset) % 2 ^ 32 < 2 ^ 31 then (time - release) % 2 ^ 32
  else (2 ^ 32 - (release - onset) % 2 ^ 32) % 2 ^ 32

theorem EnvelopeTimings.toNat_elapsed_judgedAt {onset release time : Nat} (h₁ : onset ≤ release)
    (h₂ : release ≤ time) :
    (Tick.elapsed (judgedAt (Tick.reading time) (Tick.reading onset))
      (Tick.reading release)).toNat = countedRelease onset release time := by
  unfold judgedAt countedRelease
  rw [Tick.isBefore_reading (le_trans h₁ h₂)]
  by_cases h : (time - onset) % 2 ^ 32 < 2 ^ 31
  · rw [if_pos h, if_neg (by simpa using h)]
    exact Tick.toNat_elapsed_reading h₂
  · rw [if_neg h, if_pos (by simpa using h)]
    exact Tick.toNat_elapsed_reading_of_le h₁

/-- In the half turn after the onset the counter makes out the release as it is. -/
theorem countedRelease_of_lt {onset release time : Nat} (h₁ : onset ≤ release) (h₂ : release ≤ time)
    (h : time < onset + 2 ^ 31) : countedRelease onset release time = time - release := by
  unfold countedRelease
  rw [if_pos (by omega)]
  omega

namespace Monitor

/-- A history behind which a note is finished: it began at `onset`, its release at `release`, and
`since` is what has happened from its onset on. -/
inductive Finished (channel : Channel) (key : DataByte) :
    (onset release : Nat) → (history since : List Input) → Prop where
  | struck {onset : Nat} {strike : UInt32} {before rest : List Input}
      (percussion : channel = percussionChannel)
      (strikes : (ShortMessage.unpack strike).event.strikes channel key)
      (unstruck : ∀ input ∈ rest, ¬ input.brings (Event.strikes channel key)) :
      Finished channel key onset onset (before ++ .message strike (Tick.reading onset) :: rest) rest
  | released {onset release : Nat} {strike stop : UInt32} {before held rest : List Input}
      (melodic : channel ≠ percussionChannel)
      (strikes : (ShortMessage.unpack strike).event.strikes channel key)
      (releases : (ShortMessage.unpack stop).event.releases channel key)
      (ordered : onset ≤ release)
      (unstruck : ∀ input ∈ held ++ rest, ¬ input.brings (Event.strikes channel key))
      (unreleased : ∀ input ∈ held ++ rest, ¬ input.brings (Event.releases channel key)) :
      Finished channel key onset release
        (before ++ .message strike (Tick.reading onset) ::
          (held ++ .message stop (Tick.reading release) :: rest))
        (held ++ rest)

namespace Finished

variable {channel : Channel} {key : DataByte} {onset release time : Nat}
  {history since : List Input} {m : Monitor}

theorem onTime_of_cleared (h : Finished channel key onset release history since)
    (hc : ∃ input ∈ since, input.brings (Event.clears channel)) :
    ((m.after history).note channel key).onTime = none := by
  cases h with
  | struck percussion strikes unstruck =>
    rw [after_append, after_cons]
    exact after_onTime_of_clears unstruck hc
  | released melodic strikes releases ordered unstruck unreleased =>
    rw [after_append, after_cons]
    exact after_onTime_of_clears_released releases unstruck hc

/-- Unless it has been cleared, a finished note follows the release that the counter makes out. -/
theorem noteEnvelope_of_spared (h : Finished channel key onset release history since)
    (ht : release ≤ time) (hc : ∀ input ∈ since, ¬ input.brings (Event.clears channel)) :
    ((m.after history).note channel key).velocity ≠ 0 ∧
      ∃ span : Tick, span.toNat = countedRelease onset release time ∧
        (m.after history).noteEnvelope channel (Tick.reading time)
          ((m.after history).note channel key) = (m.after history).timings.release span := by
  cases h with
  | struck percussion strikes unstruck =>
    rw [after_append]
    obtain ⟨velocity, off, hvelocity, hnote⟩ := after_note_of_struck (m := m.after _) strikes
      unstruck hc
    rw [hnote]
    refine ⟨hvelocity, _, EnvelopeTimings.toNat_elapsed_judgedAt le_rfl ht, ?_⟩
    unfold noteEnvelope EnvelopeTimings.percussionEnvelope
    rw [if_pos percussion]
  | released melodic strikes releases ordered unstruck unreleased =>
    rw [after_append]
    obtain ⟨velocity, hvelocity, hnote⟩ := after_note_of_released (m := m.after _) strikes releases
      unstruck unreleased hc
    rw [hnote]
    refine ⟨hvelocity, _, EnvelopeTimings.toNat_elapsed_judgedAt ordered ht, ?_⟩
    unfold noteEnvelope EnvelopeTimings.envelope
    rw [if_neg melodic]

theorem onset_le_release (h : Finished channel key onset release history since) :
    onset ≤ release := by
  cases h with
  | struck => exact le_rfl
  | released _ _ _ ordered => exact ordered

theorem contribution_of_cleared (h : Finished channel key onset release history since)
    (hc : ∃ input ∈ since, input.brings (Event.clears channel)) :
    (m.after history).contribution channel (Tick.reading time) key = 0 := by
  have hoff : ((m.after history).note channel key).hasSounded = false := by
    unfold NoteState.hasSounded
    rw [h.onTime_of_cleared hc]
    rfl
  show ChannelState.contribution _ ((m.after history).noteEnvelope channel (Tick.reading time)
    ((m.after history).note channel key)) _ = 0
  rw [noteEnvelope_of_not_hasSounded _ channel _ hoff]
  exact ChannelState.contribution_zero (ChannelState.isShare_gain _) _

theorem contribution_of_spared (h : Finished channel key onset release history since)
    (ht : release ≤ time) (hc : ∀ input ∈ since, ¬ input.brings (Event.clears channel)) :
    let m := (Monitor.new .standard).after history
    m.contribution channel (Tick.reading time) key = 0 ↔
      1000000 ≤ countedRelease onset release time ∨
        (m.channels.get channel).volume = 0 ∨ (m.channels.get channel).expression = 0 := by
  intro m
  obtain ⟨hvelocity, span, hspan, henvelope⟩ := h.noteEnvelope_of_spared (m := .new .standard) ht hc
  have hrelease : m.noteEnvelope channel (Tick.reading time) (m.note channel key) =
      EnvelopeTimings.standard.release span := by
    rw [henvelope, after_timings]
    rfl
  show ChannelState.contribution (m.channels.get channel).gain
    (m.noteEnvelope channel (Tick.reading time) (m.note channel key)) (m.note channel key) = 0 ↔ _
  rw [hrelease, ChannelState.contribution_eq_zero_iff _ hvelocity,
    EnvelopeTimings.standard_release_eq_zero_iff, hspan]
  rcases Nat.lt_or_ge span.toNat 1000000 with hlt | hge
  · exact .inr (EnvelopeTimings.within_standard_release hlt)
  · exact .inl (EnvelopeTimings.standard_release_eq_zero hge)

/-- A finished note is silent if it has been cleared, if its channel is turned down, and otherwise
exactly if the counter makes out a release of a million ticks or more. It does so from the end of
the release until half a turn of the counter after the onset. -/
theorem silent_iff (h : Finished channel key onset release history since)
    (ht : release ≤ time) :
    let m := (Monitor.new .standard).after history
    (m.contribution channel (Tick.reading time) key = 0 ↔
      (∃ input ∈ since, input.brings (Event.clears channel)) ∨
        1000000 ≤ countedRelease onset release time ∨
        (m.channels.get channel).volume = 0 ∨ (m.channels.get channel).expression = 0) ∧
    (release + 1000000 ≤ time → time < onset + 2 ^ 31 →
      m.contribution channel (Tick.reading time) key = 0) := by
  intro m
  have hsilent : m.contribution channel (Tick.reading time) key = 0 ↔
      (∃ input ∈ since, input.brings (Event.clears channel)) ∨
        1000000 ≤ countedRelease onset release time ∨
        (m.channels.get channel).volume = 0 ∨ (m.channels.get channel).expression = 0 := by
    by_cases hc : ∃ input ∈ since, input.brings (Event.clears channel)
    · exact iff_of_true (h.contribution_of_cleared hc) (.inl hc)
    · have hspared := h.contribution_of_spared ht fun input hin hclears => hc ⟨input, hin, hclears⟩
      exact Iff.trans hspared (or_iff_right hc).symm
  refine ⟨hsilent, fun hover hhalf => hsilent.mpr (.inr (.inl ?_))⟩
  rw [countedRelease_of_lt h.onset_le_release ht hhalf]
  omega

/-! ## One stroke on a drum -/

/-- A bass drum, struck at the start of time. -/
def stroke : List Input := [.message (ShortMessage.noteOn 9 36 127).pack (Tick.reading 0)]

theorem finished_stroke : Finished percussionChannel 36 0 0 stroke [] := by
  show Finished percussionChannel 36 0 0 ([] ++ stroke) []
  exact .struck rfl (by decide +kernel) fun _ hin => absurd hin List.not_mem_nil

theorem stroke_silent :
    Finished percussionChannel 36 0 0 stroke [] ∧ 0 ≤ 1000000 ∧
      ((Monitor.new .standard).after stroke).contribution percussionChannel
        (Tick.reading 1000000) 36 = 0 :=
  ⟨finished_stroke, by decide,
    (silent_iff finished_stroke (show 0 ≤ 1000000 by decide)).2 le_rfl (by decide)⟩

/-- A finished note does not stay silent for good: half a turn of the counter after its onset a drum
is back at full height. -/
theorem not_silent_for_good :
    ¬ ∀ (channel : Channel) (key : DataByte) (onset release time : Nat)
      (history since : List Input), Finished channel key onset release history since →
        release + 1000000 ≤ time → ((Monitor.new .standard).after history).contribution channel
          (Tick.reading time) key = 0 := by
  intro hsilent
  have hzero := hsilent percussionChannel 36 0 0 (2 ^ 31) _ [] finished_stroke (by decide)
  have hloud : ((Monitor.new .standard).after stroke).contribution percussionChannel
      (Tick.reading (2 ^ 31)) 36 ≠ 0 := by decide +kernel
  exact hloud hzero

end Finished

end Monitor
end MidiPanel
