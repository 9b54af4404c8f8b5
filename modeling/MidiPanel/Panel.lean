import MidiPanel.Meter.Bars
import MidiPanel.Monitor.Basic
import MidiPanel.Overlay.Basic

/-!
# The front panel

The front panel owns the level monitor, the status overlay and the place of the meter. Refreshing
composes one frame: it blanks the surface, lets the overlay run its timers and draw itself, draws
the meter if no overlay is up, and shows the frame. A fault ends the frame where it happened.
-/

namespace MidiPanel

/-- Monitor, overlay and meter geometry of one panel. -/
structure Panel where
  monitor : Monitor
  status : Status
  layout : MeterLayout
  channels : Nat
  deriving DecidableEq

namespace Panel

variable {σ : Type} [Surface σ]

/-- A fresh panel that meters the first `channels` channels: at least one, at most sixteen. -/
def new (envelope : EnvelopeTimings) (overlay : OverlayTimings) (layout : MeterLayout)
    (channels : Nat) : Panel :=
  ⟨.new envelope, .new overlay, layout, min (max channels 1) 16⟩

/-- Standard timings and a meter of all sixteen channels over the whole surface. -/
def forSurface (surface : σ) : Panel :=
  new .standard .standard (.forSurface surface) 16

/-- Takes a packed MIDI message in. -/
def receive (p : Panel) (packed : UInt32) (now : Tick) : Panel :=
  { p with monitor := p.monitor.receive packed now }

/-- Reads the monitor and draws the first `channels` meters, sixteen at most. -/
def drawLevels (p : Panel) (surface : σ) (layout : MeterLayout) (channels : Nat) (now : Tick) :
    Drawn Panel σ :=
  let (readings, monitor) := p.monitor.query now
  let levels := readings.toList.map Reading.level
  let peaks := readings.toList.map Reading.peak
  let (surface, fault) := Stroke.draw surface <|
    Meter.strokes (Surface.kind surface) (Surface.width surface) layout levels peaks
      (min channels 16)
  ⟨{ p with monitor := monitor }, surface, fault⟩

/-- Runs the timers of the overlay and draws it. -/
def updateStatus (p : Panel) (surface : σ) (now : Tick) : Drawn Panel σ :=
  let drawn := p.status.update surface now
  ⟨{ p with status := drawn.state }, drawn.surface, drawn.fault⟩

/-- Leaves power saving. -/
def exitPowerSaving (p : Panel) (surface : σ) : Drawn Panel σ :=
  let drawn := p.status.exitPowerSaving surface
  ⟨{ p with status := drawn.state }, drawn.surface, drawn.fault⟩

/-- Makes calls that change nothing in the panel. -/
def draw (p : Panel) (surface : σ) (calls : List Call) : Drawn Panel σ :=
  let (surface, fault) := Surface.run surface calls
  ⟨p, surface, fault⟩

/-- Goes on with the panel and the surface, unless a fault has ended the drawing. -/
def andThen (drawn : Drawn Panel σ) (next : Panel → σ → Drawn Panel σ) : Drawn Panel σ :=
  match drawn.fault with
  | none => next drawn.state drawn.surface
  | some _ => drawn

/-- Composes one frame: the overlay, or the meter when no overlay is up. -/
def refresh (p : Panel) (surface : σ) (now : Tick) : Drawn Panel σ :=
  andThen (p.draw surface [.clear]) fun p surface =>
  andThen (p.updateStatus surface now) fun p surface =>
  andThen (if p.status.overlay = .idle then p.drawLevels surface p.layout p.channels now
    else ⟨p, surface, none⟩) fun p surface =>
  p.draw surface [.flush]

end Panel
end MidiPanel
