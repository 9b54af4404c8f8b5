import MidiPanel.Settings.Basic
import MidiPanel.Yaml.Reading

/-!
# Settings as YAML

Settings are a mapping of single settings and sections; all of them may be missing or null.
-/

namespace MidiPanel.Settings

open Yaml

def monitorSection : Reader MonitorSettings := fun node => do
  let fields ← fieldsOf ["decay_release_ms", "peak_hold_ms", "peak_falloff_ms"] node
  return {
    releaseMs := ← fields.optional "decay_release_ms" Reader.single
    holdMs := ← fields.optional "peak_hold_ms" Reader.single
    falloffMs := ← fields.optional "peak_falloff_ms" Reader.single }

def overlaySection : Reader OverlaySettings := fun node => do
  let fields ← fieldsOf ["message_display_ms", "spinner_frame_ms"] node
  return {
    displayMs := ← fields.optional "message_display_ms" Reader.word
    frameMs := ← fields.optional "spinner_frame_ms" Reader.word }

def panelKind : Reader PanelKind :=
  Reader.oneOf [("character", .character), ("graphical", .graphical)]

def displaySection : Reader DisplaySettings := fun node => do
  let fields ← fieldsOf ["kind", "width", "height", "channels", "bar_spacing", "bar_x_offset",
    "draw_bar_bases", "fps"] node
  let length := Reader.below UInt32.size
  return {
    kind := ← fields.optional "kind" panelKind
    width := ← fields.optional "width" length
    height := ← fields.optional "height" length
    channels := ← fields.optional "channels" (Reader.below UInt64.size)
    barSpacing := ← fields.optional "bar_spacing" length
    barXOffset := ← fields.optional "bar_x_offset" length
    drawBarBases := ← fields.optional "draw_bar_bases" Reader.bool
    fps := ← fields.optional "fps" length }

def settings : Reader Settings := fun node => do
  let fields ← fieldsOf ["log_level", "monitor", "ui", "display", "script"] node
  return {
    logLevel := ← fields.optional "log_level" Reader.string
    monitor := ← fields.optional "monitor" monitorSection
    overlay := ← fields.optional "ui" overlaySection
    display := ← fields.optional "display" displaySection
    script := ← fields.optional "script" Reader.string }

/-- Reads settings, whether or not they are useful. -/
def parse (text : String) : Except Yaml.Error Settings := readDocument settings text

end MidiPanel.Settings
