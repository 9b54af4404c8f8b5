import MidiPanel.CommandLine.Run
import MidiPanel.Main
import MidiPanel.Surface.Recorder
import MidiPanel.Proofs.Monitor.Range
import MidiPanel.Proofs.Monitor.PeakHistory
import MidiPanel.Proofs.Monitor.PeakFall
import MidiPanel.Proofs.Monitor.Silence
import MidiPanel.Proofs.Panel.TimeShift
import MidiPanel.Proofs.Midi.Word
import MidiPanel.Proofs.Monitor.StateHistory
import MidiPanel.Proofs.Overlay.Legible
import MidiPanel.Proofs.Overlay.Lifetime
import MidiPanel.Proofs.Panel.Backlight
import MidiPanel.Proofs.Meter.Calls
import MidiPanel.Proofs.Meter.Heights
import MidiPanel.Proofs.Meter.Fitting
import MidiPanel.Proofs.Surface.Framed
import MidiPanel.Proofs.Panel.Frame
import MidiPanel.Proofs.Surface.Faulty
import MidiPanel.Proofs.Panel.Reached
import MidiPanel.Proofs.Panel.Retry
import MidiPanel.Proofs.Panel.Inside
import MidiPanel.Proofs.Panel.Faults
import MidiPanel.Proofs.Replay.Schedule
import MidiPanel.Proofs.Replay.Ending
import MidiPanel.Proofs.Monitor.Isolation
import MidiPanel.Proofs.Monitor.Fading
import MidiPanel.Proofs.Meter.Pixels
import MidiPanel.Proofs.Overlay.Honoured
import MidiPanel.Proofs.Script.Progress
import MidiPanel.Proofs.Surface.Bitmap
import MidiPanel.Proofs.Surface.Printing
import MidiPanel.Proofs.Meter.Cells
import MidiPanel.Proofs.Script.Retry
import MidiPanel.Proofs.Script.Split
import MidiPanel.Proofs.Overlay.Pacing
import MidiPanel.Proofs.Settings.Layers
import MidiPanel.Proofs.Meter.Overflow
import MidiPanel.Proofs.Yaml.Scalar
import MidiPanel.Proofs.Yaml.Steps
import MidiPanel.Proofs.Yaml.Lines
import MidiPanel.Proofs.Yaml.Mapping
import MidiPanel.Proofs.Yaml.Values
import MidiPanel.Proofs.Settings.Loaded
import MidiPanel.Proofs.Settings.Merging
import MidiPanel.Proofs.Settings.RoundTrip
import MidiPanel.Proofs.Overlay.Independence
import MidiPanel.Proofs.Meter.Columns
import MidiPanel.Proofs.Meter.Levels
import MidiPanel.Proofs.Surface.Filling
import MidiPanel.Proofs.Surface.Lettering
import MidiPanel.Proofs.Surface.Grid
import MidiPanel.Proofs.Surface.Stored
import MidiPanel.Proofs.Surface.Dumps
import MidiPanel.Proofs.Settings.Usable
import MidiPanel.Proofs.Script.Offender
