import MidiPanel.Monitor.Channel

/-!
# The level monitor

The monitor follows sixteen channels. Messages change notes and controllers, a query reads the
loudness and the held peak of every channel at a tick. A peak older than the hold time falls
linearly; a level at or above the fallen peak becomes the new peak and restarts its hold. A peak
that has only fallen is not stored: the next query computes the fall again from the same start.
-/

namespace MidiPanel

/-- A peak and the tick at which it was reached. -/
structure Peak where
  level : Single
  time : Tick
  deriving DecidableEq, Inhabited

/-- What a query tells of one channel. -/
structure Reading where
  level : Single
  peak : Single
  deriving DecidableEq, Inhabited

namespace Peak

/-- No peak yet. -/
def initial : Peak := ⟨0, 0⟩

/-- The height of the peak at `now`. -/
def fallen (p : Peak) (timings : EnvelopeTimings) (now : Tick) : Single :=
  let held := Tick.toMillis (Tick.elapsed now p.time)
  if timings.holdMs ≤ held then
    let fall := (held - timings.holdMs).maximum 0
    (p.level - fall / timings.falloffMs).clamp 0 1
  else p.level

/-- Meets a level: the reading, and the peak from here on. -/
def meet (p : Peak) (timings : EnvelopeTimings) (level : Single) (now : Tick) : Reading × Peak :=
  let height := p.fallen timings now
  if height ≤ level then (⟨level, level⟩, ⟨level, now⟩) else (⟨level, height⟩, p)

end Peak

/-- Sixteen channels with their peaks. -/
structure Monitor where
  channels : Vector ChannelState 16
  peaks : Vector Peak 16
  timings : EnvelopeTimings
  deriving DecidableEq

namespace Monitor

def new (timings : EnvelopeTimings) : Monitor :=
  ⟨.replicate 16 .initial, .replicate 16 .initial, timings⟩

/-- The channel whose notes are drums. -/
def percussionChannel : Channel := 9

/-- Changes one channel. -/
def modifyChannel (m : Monitor) (channel : Channel) (f : ChannelState → ChannelState) : Monitor :=
  { m with channels := m.channels.set channel.val (f m.channels[channel]) channel.isLt }

/-- Takes an event in at tick `now`. -/
def handle (m : Monitor) (event : Event) (now : Tick) : Monitor :=
  match event with
  | .noteOff channel note => m.modifyChannel channel (·.noteOff note now)
  | .noteOn channel note velocity => m.modifyChannel channel (·.noteOn note velocity now)
  | .controlChange channel controller value =>
    m.modifyChannel channel (·.controlChange controller value)
  | .systemReset => { m with channels := .replicate 16 .initial }
  | .unhandled => m

/-- Takes a packed message in at tick `now`. -/
def receive (m : Monitor) (packed : UInt32) (now : Tick) : Monitor :=
  m.handle (ShortMessage.unpack packed).event now

/-- The envelope that the notes of a channel follow. -/
def noteEnvelope (m : Monitor) (channel : Channel) (now : Tick) (note : NoteState) : Single :=
  if channel = percussionChannel then m.timings.percussionEnvelope note now
  else m.timings.envelope note now

/-- The loudness of a channel at `now`. -/
def loudness (m : Monitor) (channel : Channel) (now : Tick) : Single :=
  m.channels[channel].loudness (m.noteEnvelope channel now)

/-- Reads every channel at `now`; the peaks move on. -/
def query (m : Monitor) (now : Tick) : Vector Reading 16 × Monitor :=
  let met := Vector.ofFn fun channel : Channel =>
    m.peaks[channel].meet m.timings (m.loudness channel now) now
  (met.map Prod.fst, { m with peaks := met.map Prod.snd })

end Monitor
end MidiPanel
