import MidiPanel.Script.Player
import MidiPanel.Settings.Basic

/-!
# Replaying a script

A replay steps the panel frame by frame. Each frame has a time in milliseconds that follows from its
number and the frame rate; the events due at it run, then the panel is refreshed. The replay is over
after the first frame at or past the end of the script at which every event has run.

Times are words of 32 bits, so a replay whose end lies too close to the greatest word may pass it
by: it goes on from the start of the next turn, and is over in a later turn or never. Behind `turn`
frames the times come back in the same order, so a replay that is not over by then never is.
-/

namespace MidiPanel.Replay

/-- The length of a frame in microseconds; a rate of zero counts as one. -/
def frameMicros (fps : Nat) : Nat := 1000000 / max fps 1

/-- The time of a frame in milliseconds, modulo `2 ^ 32`. -/
def frameTime (fps frame : Nat) : UInt32 := UInt32.ofNat (frame * 1000 / fps)

/-- The number of the first frame that is at or past `durationMs`. -/
def lastFrame (fps : Nat) (durationMs : UInt32) : Nat := (durationMs.toNat * fps + 999) / 1000

/-- A replay between two frames. -/
structure State (σ : Type) where
  player : Player
  panel : Panel
  surface : σ

variable {σ : Type} [Surface σ]

/-- One frame: the events that are due, then a refresh. -/
def step (s : State σ) (time : UInt32) : State σ × Option Fault :=
  let now := Tick.ofMillis time
  let advanced := s.player.advance time s.panel s.surface now
  match advanced.fault with
  | some fault => (⟨advanced.player, advanced.panel, advanced.surface⟩, some fault)
  | none =>
    let drawn := advanced.panel.refresh advanced.surface now
    (⟨advanced.player, drawn.state, drawn.surface⟩, drawn.fault)

/-- The frame at `time` is the last one. -/
def isOver (s : State σ) (time durationMs : UInt32) : Bool :=
  durationMs ≤ time && s.player.isFinished

/-- After so many frames the times of frames come back, since so many seconds are a whole number of
turns of the word. -/
def turn (fps : Nat) : Nat := UInt32.size * fps

/-- How a replay went. -/
inductive Ending (σ : Type) where
  /-- Over after this frame. -/
  | over (frame : Nat) (last : State σ)
  | failed (fault : Fault)
  /-- Not over after the last frame that was played. -/
  | goesOn (s : State σ)

/-- Plays `frames` frames at most, from number `frame` on. -/
def run (fps : Nat) (durationMs : UInt32) : (frames frame : Nat) → State σ → Ending σ
  | 0, _, s => .goesOn s
  | frames + 1, frame, s =>
    let time := frameTime fps frame
    match step s time with
    | (_, some fault) => .failed fault
    | (s, none) =>
      if isOver s time durationMs then .over frame s
      else run fps durationMs frames (frame + 1) s

/-- The panel that the settings describe, on a surface. -/
def panelFor (settings : Settings) (surface : σ) : Panel :=
  let display := settings.displayInEffect
  Panel.new settings.envelopeTimings settings.overlayTimings
    (display.meterLayout (.forSurface surface)) display.channelsInEffect

/-- Plays a script from its start until it is over; if it never is, for a whole turn. -/
def play (settings : Settings) (script : Script) (surface : σ) : Ending σ :=
  let fps := settings.displayInEffect.fpsInEffect
  run fps script.durationMs (turn fps) 0
    ⟨.ofScript script, panelFor settings surface, surface⟩

end MidiPanel.Replay
