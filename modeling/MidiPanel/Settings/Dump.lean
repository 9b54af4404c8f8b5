import MidiPanel.Settings.Basic
import MidiPanel.Yaml.Emit

/-!
# Printing settings

All settings as YAML, one line for each in a fixed order. The settings of a section stand two spaces
further right than its name; a section that is not there is null, like a single setting that is
unset.
-/

namespace MidiPanel.Settings

open Yaml

/-- A name with a scalar. A line feed ends the line, unless the scalar has ended it. -/
def line (name value : String) : String :=
  name ++ ": " ++ value ++ if value.toList.getLast?.any isBreak then "" else "\n"

/-- A section: its name, then the indented lines of its settings. -/
def dumpSection {α : Type} (name : String) (lines : α → List (String × String)) :
    Option α → String
  | none => line name "null"
  | some value =>
    name ++ ":\n" ++ String.join ((lines value).map fun (name, value) => "  " ++ line name value)

def monitorLines (m : MonitorSettings) : List (String × String) :=
  [("decay_release_ms", optionScalar singleScalar m.releaseMs),
    ("peak_hold_ms", optionScalar singleScalar m.holdMs),
    ("peak_falloff_ms", optionScalar singleScalar m.falloffMs)]

def overlayLines (o : OverlaySettings) : List (String × String) :=
  [("message_display_ms", optionScalar (natScalar ·.toNat) o.displayMs),
    ("spinner_frame_ms", optionScalar (natScalar ·.toNat) o.frameMs)]

def displayLines (d : DisplaySettings) : List (String × String) :=
  [("kind", optionScalar PanelKind.name d.kind),
    ("width", optionScalar natScalar d.width),
    ("height", optionScalar natScalar d.height),
    ("channels", optionScalar natScalar d.channels),
    ("bar_spacing", optionScalar natScalar d.barSpacing),
    ("bar_x_offset", optionScalar natScalar d.barXOffset),
    ("draw_bar_bases", optionScalar boolScalar d.drawBarBases),
    ("fps", optionScalar natScalar d.fps)]

/-- All settings as a YAML text. -/
def dump (s : Settings) : String :=
  line "log_level" (optionScalar textScalar s.logLevel)
    ++ dumpSection "monitor" monitorLines s.monitor
    ++ dumpSection "ui" overlayLines s.overlay
    ++ dumpSection "display" displayLines s.display
    ++ line "script" (optionScalar textScalar s.script)

end MidiPanel.Settings
