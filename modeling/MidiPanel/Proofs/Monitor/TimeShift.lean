import MidiPanel.Proofs.Monitor.Range
import MidiPanel.Proofs.Tick

/-!
# Monitors with shifted clocks

Two monitors whose clocks differ by a constant shift go on to tell the same readings. All times of
notes differ by the shift. A peak that no level has reached yet keeps the tick zero on both sides,
which does not matter: its height is zero at any tick.

Results:
* `Monitor.Shifted.receive`, `Monitor.Shifted.query`: the relation is kept, the readings are equal.
-/

namespace MidiPanel

open Single

/-! ## Notes and channels -/

/-- The note with its times moved. -/
def NoteState.shift (shift : Tick) (note : NoteState) : NoteState :=
  ⟨note.onTime.map (· + shift), note.offTime.map (· + shift), note.velocity⟩

@[simp] theorem NoteState.shift_silent (shift : Tick) :
    NoteState.silent.shift shift = .silent := rfl

@[simp] theorem NoteState.hasSounded_shift (note : NoteState) (shift : Tick) :
    (note.shift shift).hasSounded = note.hasSounded := Option.isSome_map

namespace EnvelopeTimings

theorem judgedAt_add (now onTime shift : Tick) :
    judgedAt (now + shift) (onTime + shift) = judgedAt now onTime + shift := by
  unfold judgedAt
  rw [Tick.isBefore_add]
  split <;> rfl

theorem envelope_shift (timings : EnvelopeTimings) (note : NoteState) (now shift : Tick) :
    timings.envelope (note.shift shift) (now + shift) = timings.envelope note now := by
  obtain ⟨onTime, offTime, velocity⟩ := note
  cases onTime with
  | none => rfl
  | some on =>
    cases offTime with
    | none => rfl
    | some off =>
      show timings.release (Tick.elapsed (judgedAt (now + shift) (on + shift)) (off + shift)) = _
      rw [judgedAt_add, Tick.elapsed_add]
      rfl

theorem percussionEnvelope_shift (timings : EnvelopeTimings) (note : NoteState)
    (now shift : Tick) :
    timings.percussionEnvelope (note.shift shift) (now + shift) =
      timings.percussionEnvelope note now := by
  obtain ⟨onTime, offTime, velocity⟩ := note
  cases onTime with
  | none => rfl
  | some on =>
    show timings.release (Tick.elapsed (judgedAt (now + shift) (on + shift)) (on + shift)) = _
    rw [judgedAt_add, Tick.elapsed_add]
    rfl

end EnvelopeTimings

namespace ChannelState

/-- The channel with the times of its notes moved. -/
def shift (shift : Tick) (c : ChannelState) : ChannelState :=
  { c with notes := c.notes.map (·.shift shift) }

variable (c : ChannelState) (d : Tick)

@[simp] theorem shift_initial : initial.shift d = initial := by
  simp [shift, initial]

theorem noteOff_shift (note : DataByte) (now : Tick) :
    (c.shift d).noteOff note (now + d) = (c.noteOff note now).shift d := by
  simp [shift, noteOff, NoteState.shift, Vector.map_set]

theorem noteOn_shift (note velocity : DataByte) (now : Tick) :
    (c.shift d).noteOn note velocity (now + d) = (c.noteOn note velocity now).shift d := by
  simp [shift, noteOn, NoteState.shift, Vector.map_set]

theorem controlChange_shift (controller value : DataByte) :
    (c.shift d).controlChange controller value = (c.controlChange controller value).shift d := by
  unfold controlChange
  split <;> simp [shift, notesOff]

theorem loudness_shift {envelope envelope' : NoteState → Single}
    (h : ∀ note, envelope' (note.shift d) = envelope note) :
    (c.shift d).loudness envelope' = c.loudness envelope := by
  unfold loudness loudest
  simp only [shift, Vector.foldl_map, NoteState.hasSounded_shift, h]
  rfl

end ChannelState

/-! ## Peaks -/

/-- The same level, reached at times that differ by the shift unless it is zero. -/
structure Peak.Shifted (shift : Tick) (p p' : Peak) : Prop where
  level : p'.level = p.level
  time : p.level = 0 ∨ p'.time = p.time + shift

namespace Peak.Shifted

variable {d : Tick} {p p' : Peak} {timings : EnvelopeTimings}

theorem fallen (h : Shifted d p p') (ht : timings.Usable) (now : Tick) :
    p'.fallen timings (now + d) = p.fallen timings now := by
  rcases h.time with hzero | htime
  · rw [fallen_of_level_eq_zero ht hzero, fallen_of_level_eq_zero ht (h.level.trans hzero)]
  · unfold Peak.fallen
    rw [h.level, htime, Tick.elapsed_add]

theorem meet (h : Shifted d p p') (ht : timings.Usable) (level : Single) (now : Tick) :
    (p'.meet timings level (now + d)).1 = (p.meet timings level now).1 ∧
      Shifted d (p.meet timings level now).2 (p'.meet timings level (now + d)).2 := by
  unfold Peak.meet
  dsimp only
  rw [h.fallen ht]
  split
  · exact ⟨rfl, rfl, .inr rfl⟩
  · exact ⟨rfl, h⟩

end Peak.Shifted

/-! ## Monitors -/

namespace Monitor

/-- Two monitors whose clocks differ by a shift. -/
structure Shifted (shift : Tick) (m m' : Monitor) : Prop where
  channels : m'.channels = m.channels.map (·.shift shift)
  peaks : ∀ channel : Channel, Peak.Shifted shift (m.peaks.get channel) (m'.peaks.get channel)
  timings : m'.timings = m.timings
  usable : m.timings.Usable

theorem shifted_new {timings : EnvelopeTimings} (h : timings.Usable) (shift : Tick) :
    Shifted shift (.new timings) (.new timings) where
  channels := by simp [new]
  peaks channel := ⟨rfl, .inl (by simp [new, get_eq_getElem, Peak.initial])⟩
  timings := rfl
  usable := h

namespace Shifted

variable {d : Tick} {m m' : Monitor}

theorem modifyChannel (h : Shifted d m m') (channel : Channel) {f f' : ChannelState → ChannelState}
    (hf : ∀ c : ChannelState, f' (c.shift d) = (f c).shift d) :
    Shifted d (m.modifyChannel channel f) (m'.modifyChannel channel f') where
  channels := by
    unfold Monitor.modifyChannel
    simp [h.channels, hf, Vector.map_set]
  peaks := h.peaks
  timings := h.timings
  usable := h.usable

theorem handle (h : Shifted d m m') (event : Event) (now : Tick) :
    Shifted d (m.handle event now) (m'.handle event (now + d)) := by
  cases event with
  | noteOff channel note =>
    show Shifted d (m.modifyChannel channel (·.noteOff note now))
      (m'.modifyChannel channel (·.noteOff note (now + d)))
    exact h.modifyChannel channel fun c => c.noteOff_shift d note now
  | noteOn channel note velocity =>
    show Shifted d (m.modifyChannel channel (·.noteOn note velocity now))
      (m'.modifyChannel channel (·.noteOn note velocity (now + d)))
    exact h.modifyChannel channel fun c => c.noteOn_shift d note velocity now
  | controlChange channel controller value =>
    show Shifted d (m.modifyChannel channel (·.controlChange controller value))
      (m'.modifyChannel channel (·.controlChange controller value))
    exact h.modifyChannel channel fun c => c.controlChange_shift d controller value
  | systemReset => exact { h with channels := by simp [Monitor.handle] }
  | unhandled => exact h

theorem receive (h : Shifted d m m') (packed : UInt32) (now : Tick) :
    Shifted d (m.receive packed now) (m'.receive packed (now + d)) := h.handle _ now

theorem loudness (h : Shifted d m m') (channel : Channel) (now : Tick) :
    m'.loudness channel (now + d) = m.loudness channel now := by
  have henvelope (note : NoteState) :
      m'.noteEnvelope channel (now + d) (note.shift d) = m.noteEnvelope channel now note := by
    unfold noteEnvelope
    rw [h.timings, EnvelopeTimings.percussionEnvelope_shift, EnvelopeTimings.envelope_shift]
  have hchannel : m'.channels[channel] = m.channels[channel].shift d := by
    simp [h.channels]
  unfold Monitor.loudness
  rw [hchannel]
  exact m.channels[channel].loudness_shift d henvelope

theorem query (h : Shifted d m m') (now : Tick) :
    (m'.query (now + d)).1 = (m.query now).1 ∧
      Shifted d (m.query now).2 (m'.query (now + d)).2 := by
  have hmeet (channel : Channel) :
      ((m'.peaks.get channel).meet m'.timings (m'.loudness channel (now + d)) (now + d)).1 =
          ((m.peaks.get channel).meet m.timings (m.loudness channel now) now).1 ∧
        Peak.Shifted d ((m.peaks.get channel).meet m.timings (m.loudness channel now) now).2
          ((m'.peaks.get channel).meet m'.timings (m'.loudness channel (now + d)) (now + d)).2 := by
    rw [h.loudness, h.timings]
    exact (h.peaks channel).meet h.usable _ now
  constructor
  · refine Vector.ext fun i hi => ?_
    have hreading := (hmeet ⟨i, hi⟩).1
    rwa [← query_reading, ← query_reading] at hreading
  · refine { h with peaks := fun channel => ?_ }
    simpa [Monitor.query, get_eq_getElem] using (hmeet channel).2

end Shifted

end Monitor
end MidiPanel
