import MidiPanel.Overlay.MessageBuffer
import MidiPanel.Surface.Basic
import MidiPanel.Tick

/-!
# Status overlays

An overlay takes the panel over from the meter: a message, a message with a spinner, a full-screen
image, or the notice that power saving begins. Each of them ends after the display time; the notice
ends in power saving proper, with the backlight off, all others in the idle state that leaves the
panel to the meter. Spinner frames advance on a timer of their own and never move the deadline.

An update first looks at the timers and makes at most one transition, then draws the overlay.
-/

namespace MidiPanel

/-- How long overlays stay and how fast the spinner turns, in milliseconds. -/
structure OverlayTimings where
  displayMs : UInt32
  frameMs : UInt32
  deriving DecidableEq

/-- Three seconds, and about thirty frames a second. -/
def OverlayTimings.standard : OverlayTimings := ⟨3000, 32⟩

/-- The glyphs that a spinner shows one after the other: a low dash that rises, peaks and sinks. -/
def spinnerGlyphs : Vector UInt8 14 :=
  #v[0x5F, 0x5F, 0x5F, 0x2D, 0x27, 0x27, 0x5E, 0x5E, 0x60, 0x60, 0x2D, 0x5F, 0x5F, 0x5F]

/-- What is shown over the meter. -/
inductive Overlay where
  | idle
  | message
  /-- The frame shown, and the tick since which it has been. -/
  | spinner (frame : Fin 14) (frameTick : Tick)
  | image (id : ImageId)
  | enteringPowerSaving
  | inPowerSaving
  deriving DecidableEq

/-- What an overlay is, whatever it shows and since when. -/
inductive Overlay.Mode where
  | idle
  | message
  | spinner
  | image
  | enteringPowerSaving
  | inPowerSaving
  deriving DecidableEq

/-- The mode of an overlay. -/
def Overlay.mode : Overlay → Overlay.Mode
  | .idle => .idle
  | .message => .message
  | .spinner _ _ => .spinner
  | .image _ => .image
  | .enteringPowerSaving => .enteringPowerSaving
  | .inPowerSaving => .inPowerSaving

/-- The overlay with its timers and its message. -/
structure Status where
  overlay : Overlay
  /-- The tick at which the overlay was entered. -/
  since : Tick
  message : MessageBuffer
  displayTicks : Tick
  frameTicks : Tick
  deriving DecidableEq

namespace Status

def new (timings : OverlayTimings) : Status :=
  ⟨.idle, 0, .empty, Tick.ofMillis timings.displayMs, Tick.ofMillis timings.frameMs⟩

/-- The spinner frame, while a spinner is shown. -/
def spinnerFrame? (s : Status) : Option (Fin 14) :=
  match s.overlay with
  | .spinner frame _ => some frame
  | _ => none

/-- The image, while one is shown. -/
def image? (s : Status) : Option ImageId :=
  match s.overlay with
  | .image id => some id
  | _ => none

/-! ## Triggers -/

/-- Changes to an overlay and starts its display time. -/
def enter (s : Status) (overlay : Overlay) (now : Tick) : Status :=
  { s with overlay := overlay, since := now }

def showMessage (s : Status) (text : String) (spinner : Bool) (now : Tick) : Status :=
  if spinner then
    { s with message := .setSpinnerText text spinnerGlyphs[0] }.enter (.spinner 0 now) now
  else { s with message := .setText text }.enter .message now

/-- Drops whatever overlay is shown, for instance when the work behind a spinner is done. -/
def dismiss (s : Status) : Status := { s with overlay := .idle }

def showImage (s : Status) (id : ImageId) (now : Tick) : Status := s.enter (.image id) now

def enterPowerSaving (s : Status) (now : Tick) : Status :=
  { s with message := .setText "Power saving mode" }.enter .enteringPowerSaving now

/-- Lights the panel up again and drops the overlay. -/
def exitPowerSaving {σ : Type} [Surface σ] (s : Status) (surface : σ) : Drawn Status σ :=
  match Surface.perform surface (.setBacklight true) with
  | .ok surface => ⟨s.dismiss, surface, none⟩
  | .error fault => ⟨s, Surface.afterFault surface (.setBacklight true), some fault⟩

/-! ## Timers -/

/-- The display time of the overlay is over. -/
def timedOut (s : Status) (now : Tick) : Bool := s.displayTicks ≤ Tick.elapsed now s.since

/-- The state once the timers have been looked at. -/
def afterTimers (s : Status) (now : Tick) : Status :=
  match s.overlay with
  | .idle | .inPowerSaving => s
  | .message | .image _ => if s.timedOut now then s.enter .idle now else s
  | .enteringPowerSaving => if s.timedOut now then s.enter .inPowerSaving now else s
  | .spinner frame frameTick =>
    if s.timedOut now then s.enter .idle now
    else if s.frameTicks ≤ Tick.elapsed now frameTick then
      { s with
        overlay := .spinner (frame + 1) now
        message := s.message.setGlyph spinnerGlyphs[frame + 1] }
    else s

/-- This look at the timers enters power saving, which turns the backlight off. -/
def goesDark (s : Status) (now : Tick) : Bool :=
  s.overlay = .enteringPowerSaving && s.timedOut now

/-! ## Drawing -/

/-- The calls that draw the overlay on a panel of this kind and height. -/
def calls (s : Status) (kind : PanelKind) (height : Nat) : List Call :=
  match s.overlay, kind with
  | .idle, _ => []
  | .image id, .graphical => [.drawImage id]
  | .image _, .character => []
  | _, .graphical => [.print s.message.text 0 (if height = 32 then 0 else 1) true]
  | _, .character =>
    match height with
    | 2 => [.print s.message.text 0 0 true, .print "" 0 1 true]
    | 4 => [.print "" 0 0 true, .print s.message.text 0 1 true, .print "" 0 2 true,
        .print "" 0 3 true]
    | _ => []

/-- Draws the overlay as it is. -/
def draw {σ : Type} [Surface σ] (s : Status) (surface : σ) : Drawn Status σ :=
  let (surface, fault) :=
    Surface.run surface (s.calls (Surface.kind surface) (Surface.height surface))
  ⟨s, surface, fault⟩

/-- Looks at the timers, then draws the overlay. The backlight goes off before power saving is
entered: if that fails, nothing has changed. -/
def update {σ : Type} [Surface σ] (s : Status) (surface : σ) (now : Tick) : Drawn Status σ :=
  if s.goesDark now then
    match Surface.perform surface (.setBacklight false) with
    | .ok surface => (s.afterTimers now).draw surface
    | .error fault => ⟨s, Surface.afterFault surface (.setBacklight false), some fault⟩
  else (s.afterTimers now).draw surface

end Status
end MidiPanel
