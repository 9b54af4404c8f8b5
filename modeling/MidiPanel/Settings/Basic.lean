import MidiPanel.Meter.Layout
import MidiPanel.Monitor.Envelope
import MidiPanel.Overlay.Basic

/-!
# Settings

Settings come in layers, so every one of them may be unset, and so may whole sections. Merging puts
one layer over another: what the upper layer sets wins, and a section is there if either layer has
it. What is unset in the end has a default, which for the size depends on the kind of panel.
-/

namespace MidiPanel

/-- Envelope and peak timing. -/
structure MonitorSettings where
  releaseMs : Option Single
  holdMs : Option Single
  falloffMs : Option Single
  deriving DecidableEq

/-- Overlay timing. -/
structure OverlaySettings where
  displayMs : Option UInt32
  frameMs : Option UInt32
  deriving DecidableEq

/-- Panel geometry and meter layout. -/
structure DisplaySettings where
  kind : Option PanelKind
  width : Option Nat
  height : Option Nat
  channels : Option Nat
  barSpacing : Option Nat
  barXOffset : Option Nat
  drawBarBases : Option Bool
  fps : Option Nat
  deriving DecidableEq

/-- All settings. -/
structure Settings where
  logLevel : Option String
  monitor : Option MonitorSettings
  overlay : Option OverlaySettings
  display : Option DisplaySettings
  script : Option String
  deriving DecidableEq

/-- Nothing is set. -/
def MonitorSettings.unset : MonitorSettings := ⟨none, none, none⟩

/-- Nothing is set. -/
def OverlaySettings.unset : OverlaySettings := ⟨none, none⟩

/-- Nothing is set. -/
def DisplaySettings.unset : DisplaySettings := ⟨none, none, none, none, none, none, none, none⟩

/-- Nothing is set. -/
def Settings.unset : Settings := ⟨none, none, none, none, none⟩

/-! ## Layers -/

/-- `upper` over `lower`. -/
def MonitorSettings.merge (lower upper : MonitorSettings) : MonitorSettings where
  releaseMs := upper.releaseMs <|> lower.releaseMs
  holdMs := upper.holdMs <|> lower.holdMs
  falloffMs := upper.falloffMs <|> lower.falloffMs

/-- `upper` over `lower`. -/
def OverlaySettings.merge (lower upper : OverlaySettings) : OverlaySettings where
  displayMs := upper.displayMs <|> lower.displayMs
  frameMs := upper.frameMs <|> lower.frameMs

/-- `upper` over `lower`. -/
def DisplaySettings.merge (lower upper : DisplaySettings) : DisplaySettings where
  kind := upper.kind <|> lower.kind
  width := upper.width <|> lower.width
  height := upper.height <|> lower.height
  channels := upper.channels <|> lower.channels
  barSpacing := upper.barSpacing <|> lower.barSpacing
  barXOffset := upper.barXOffset <|> lower.barXOffset
  drawBarBases := upper.drawBarBases <|> lower.drawBarBases
  fps := upper.fps <|> lower.fps

/-- A section of two layers: merged where both have it. -/
def mergeSection {α : Type} (merge : α → α → α) : Option α → Option α → Option α
  | some lower, some upper => some (merge lower upper)
  | some lower, none => some lower
  | none, upper => upper

/-- `upper` over `lower`. -/
def Settings.merge (lower upper : Settings) : Settings where
  logLevel := upper.logLevel <|> lower.logLevel
  monitor := mergeSection .merge lower.monitor upper.monitor
  overlay := mergeSection .merge lower.overlay upper.overlay
  display := mergeSection .merge lower.display upper.display
  script := upper.script <|> lower.script

/-! ## What is in effect -/

namespace DisplaySettings

def kindInEffect (d : DisplaySettings) : PanelKind := d.kind.getD .graphical

/-- The size without settings: a 128 by 32 pixel panel, or two rows of twenty characters. -/
def standardSize : PanelKind → Nat × Nat
  | .graphical => (128, 32)
  | .character => (20, 2)

def sizeInEffect (d : DisplaySettings) : Nat × Nat :=
  let (width, height) := standardSize d.kindInEffect
  (d.width.getD width, d.height.getD height)

def channelsInEffect (d : DisplaySettings) : Nat := d.channels.getD 16

def fpsInEffect (d : DisplaySettings) : Nat := d.fps.getD 30

/-- The configured bar geometry over that of a panel. -/
def meterLayout (d : DisplaySettings) (base : MeterLayout) : MeterLayout :=
  { base with
    xOffset := d.barXOffset.getD base.xOffset
    barSpacing := d.barSpacing.getD base.barSpacing
    drawBarBases := d.drawBarBases.getD base.drawBarBases }

end DisplaySettings

namespace Settings

def envelopeTimings (s : Settings) : EnvelopeTimings :=
  let m := s.monitor.getD .unset
  let standard := EnvelopeTimings.standard
  ⟨m.releaseMs.getD standard.releaseMs, m.holdMs.getD standard.holdMs,
    m.falloffMs.getD standard.falloffMs⟩

def overlayTimings (s : Settings) : OverlayTimings :=
  let o := s.overlay.getD .unset
  let standard := OverlayTimings.standard
  ⟨o.displayMs.getD standard.displayMs, o.frameMs.getD standard.frameMs⟩

def displayInEffect (s : Settings) : DisplaySettings := s.display.getD .unset

/-! ## Validation -/

/-- What makes settings useless. -/
inductive Violation where
  | panelSize
  | channelCount
  | frameRate
  | envelopeTime (name : String)
  | overlayTime
  | fileNotFound (path : String)
  deriving DecidableEq

/-- The wording of a violation. -/
def Violation.message : Violation → String
  | .panelSize => "display width/height must be > 0"
  | .channelCount => "display channels must be 1..=16"
  | .frameRate => "display fps must be > 0"
  | .envelopeTime name => s!"monitor {name} must be > 0"
  | .overlayTime => "ui timings must be > 0"
  | .fileNotFound path => s!"Config file not found: {path}"

/-- The setting is there and `bad`. -/
def isSetTo {α : Type} (setting : Option α) (bad : α → Bool) : Bool := setting.any bad

def displayViolation? (d : DisplaySettings) : Option Violation :=
  if isSetTo d.width (· = 0) || isSetTo d.height (· = 0) then some .panelSize
  else if isSetTo d.channels (fun n => n = 0 || 16 < n) then some .channelCount
  else if isSetTo d.fps (· = 0) then some .frameRate
  else none

/-- A time that is not finite and positive. -/
def isUselessTime (x : Single) : Bool := !(x.isFinite && decide (0 < x))

def monitorViolation? (m : MonitorSettings) : Option Violation :=
  if isSetTo m.releaseMs isUselessTime then some (.envelopeTime "decay_release_ms")
  else if isSetTo m.holdMs isUselessTime then some (.envelopeTime "peak_hold_ms")
  else if isSetTo m.falloffMs isUselessTime then some (.envelopeTime "peak_falloff_ms")
  else none

def overlayViolation? (o : OverlaySettings) : Option Violation :=
  if isSetTo o.displayMs (· = 0) || isSetTo o.frameMs (· = 0) then some .overlayTime else none

/-- The first violation: the display is looked at first, then the monitor, then the overlay. -/
def violation? (s : Settings) : Option Violation :=
  s.display.bind displayViolation? <|> s.monitor.bind monitorViolation?
    <|> s.overlay.bind overlayViolation?

end Settings
end MidiPanel
