import MidiPanel.Tick
import MidiPanel.Midi.Message

/-!
# How loud a note still is

A note sounds at full height while its key is down and is released with an eased fall after its
note-off. Drums have no key to hold, so their release starts at the onset. All of it is single
precision arithmetic on spans of the tick counter.
-/

namespace MidiPanel

/-- Envelope and peak timing, in milliseconds. -/
structure EnvelopeTimings where
  releaseMs : Single
  holdMs : Single
  falloffMs : Single
  deriving DecidableEq

/-- One second of release, one of peak hold, two for a peak to fall from the top. -/
def EnvelopeTimings.standard : EnvelopeTimings := ⟨1000, 1000, 2000⟩

/-- Quadratic ease-out: zero at zero, one at one, concave in between. -/
def ease (x : Single) : Single := -((x - 1) * (x - 1)) + 1

/-- What is known of one note: the latest note-on, the note-off after it, and how hard it was
struck. -/
structure NoteState where
  onTime : Option Tick
  offTime : Option Tick
  velocity : DataByte
  deriving DecidableEq

/-- A note that has not sounded. -/
def NoteState.silent : NoteState := ⟨none, none, 0⟩

/-- There has been a note-on. -/
def NoteState.hasSounded (note : NoteState) : Bool := note.onTime.isSome

namespace EnvelopeTimings

/-- The eased fall, `span` ticks after the release began: one at the start, zero once the release
time is over. -/
def release (timings : EnvelopeTimings) (span : Tick) : Single :=
  let millis := (Tick.toMillis span).minimum timings.releaseMs
  ease ((1 - millis / timings.releaseMs).maximum 0)

/-- The instant at which a note is judged: a query from before the onset reads as the onset. -/
def judgedAt (now onTime : Tick) : Tick := if Tick.isBefore now onTime then onTime else now

/-- Full height while the key is down, then the release. -/
def envelope (timings : EnvelopeTimings) (note : NoteState) (now : Tick) : Single :=
  match note.onTime with
  | none => 0
  | some onTime =>
    match note.offTime with
    | none => 1
    | some offTime => timings.release (Tick.elapsed (judgedAt now onTime) offTime)

/-- The release counted from the onset. -/
def percussionEnvelope (timings : EnvelopeTimings) (note : NoteState) (now : Tick) : Single :=
  match note.onTime with
  | none => 0
  | some onTime => timings.release (Tick.elapsed (judgedAt now onTime) onTime)

end EnvelopeTimings
end MidiPanel
