import MidiPanel.Logo
import MidiPanel.Replay
import MidiPanel.Script.Reading
import MidiPanel.Settings.Dump
import MidiPanel.Settings.Load
import MidiPanel.Surface.CellPanel
import MidiPanel.Surface.PixelPanel

/-!
# The program

From arguments and files to what the program prints: the settings in effect, or the last frame of a
replay. Without a script it plays a short demonstration. The frame of a pixel panel can also be
saved; that is left to whoever can write files.
-/

namespace MidiPanel.CommandLine

/-- Why the program stopped early. -/
inductive Failure where
  | usage (cause : UsageError)
  | settings (cause : Settings.LoadError)
  | script (path : String) (cause : ScriptError)
  | panel (cause : Fault)
  /-- The replay goes on past its last frame. -/
  | endless
  | save (path : String) (cause : FileError)
  deriving DecidableEq

/-- What the program leaves behind: what it printed, the image file to write as path and text, the
number of frames played, and why it stopped early, if it did. -/
structure Outcome where
  printed : String
  image : Option (String × String)
  frames : Nat
  failure : Option Failure

/-- Nothing but a failure. -/
def Outcome.failed (failure : Failure) : Outcome := ⟨"", none, 0, some failure⟩

/-! ## Wording -/

/-- An error of the settings and its causes, outermost first. YAML errors have no text. -/
def settingsCauses : Settings.LoadError → List String
  | .yaml _ => []
  | .io cause => [s!"I/O error: {cause.message}", cause.message]
  | .invalid violation => [s!"Validation error: {violation.message}"]

/-- An error of a script and its causes, outermost first. YAML errors have no text. -/
def scriptCauses : ScriptError → List String
  | .yaml _ => []
  | .io cause => [s!"I/O error: {cause.message}", cause.message]
  | .invalid index defect => [s!"event {index}: {defect.message}"]

/-- What failed, and its causes from the outside in. -/
def Failure.chain : Failure → String × List String
  | .usage _ => ("", [])
  | .settings cause => ("loading configuration", settingsCauses cause)
  | .script path cause => (s!"loading script {path}", scriptCauses cause)
  | .panel cause => (cause.message, [])
  | .endless => ("the replay does not end", [])
  | .save path cause => (s!"writing {path}", [cause.message])

/-- A text whose lines but the first are moved to the right. -/
def hangingText (margin : Nat) (text : String) : String :=
  String.ofList (text.toList.flatMap fun c =>
    if c = '\n' then c :: List.replicate margin ' ' else [c])

/-- The causes of a failure under a heading; more than one are numbered. -/
def causeLines : List String → List String
  | [] => []
  | [cause] => ["", "Caused by:", s!"    {hangingText 4 cause}"]
  | causes => "" :: "Caused by:" ::
    causes.mapIdx fun i cause => s!"    {i}: {hangingText 7 cause}"

/-- The failure is that a text is no YAML, or not the YAML that is wanted. -/
def Failure.isYaml : Failure → Bool
  | .settings (.yaml _) => true
  | .script _ (.yaml _) => true
  | _ => false

/-- The report of a failure: what failed, then its causes. Of a YAML error only the first line is
reported. -/
def Failure.report (failure : Failure) : String :=
  let (what, causes) := failure.chain
  let what := s!"Error: {what}"
  if failure.isYaml then String.ofList (what.toList.takeWhile (· ≠ '\n'))
  else "\n".intercalate (what :: causeLines causes)

/-- The status that the program exits with; an overflow is an abort. -/
def Outcome.exitCode (o : Outcome) : Nat :=
  match o.failure with
  | none => 0
  | some (.usage .help) => 0
  | some (.usage .version) => 0
  | some (.usage _) => 2
  | some (.panel .overflow) => 101
  | some _ => 1

/-! ## Running -/

/-- An event at a time at which nothing happens yet. -/
def eventAt (atMs : UInt32) : ScriptEvent := ⟨atMs, none, none, false, none, none⟩

/-- An event with one MIDI message. -/
def midiAt (atMs : UInt32) (status data1 data2 : UInt8) : ScriptEvent :=
  { eventAt atMs with midi := some (status, data1, data2) }

/-- Played when there is no script: the name plate, a spinner, then a few notes. -/
def demonstration : Script where
  holdMs := 1500
  events := [
    { eventAt 0 with image := some 1 },
    { eventAt 1500 with message := some ⟨"Loading SoundFont", true⟩ },
    { eventAt 2500 with clearSpinner := true },
    midiAt 2500 0x90 36 127,
    midiAt 2500 0x99 38 110,
    midiAt 2600 0x91 64 90,
    midiAt 2700 0x92 67 70,
    midiAt 3000 0x80 36 0,
    midiAt 3200 0xB2 7 60]

/-- The script that the settings name, or the demonstration. -/
def scriptFor (files : Files) (settings : Settings) : Except Failure Script :=
  match settings.script with
  | none => .ok demonstration
  | some path =>
    match Script.load files path with
    | .ok script => .ok script
    | .error cause => .error (.script path cause)

/-- A pixel panel with the name plate registered as image 1. -/
def pixelPanel (width height : Nat) : Except Fault PixelPanel := do
  (← PixelPanel.new width height).register 1 width (Logo.frame width height).toImageBytes.toArray

/-- Plays a script on a surface and prints its last frame. -/
def playOn {σ : Type} [Surface σ] (settings : Settings) (script : Script) (surface : Except Fault σ)
    (text : σ → String) (image : σ → Option (String × String)) : Outcome :=
  match surface with
  | .error fault => .failed (.panel fault)
  | .ok surface =>
    match Replay.play settings script surface with
    | .over frame last => ⟨text last.surface, image last.surface, frame + 1, none⟩
    | .failed fault => .failed (.panel fault)
    | .goesOn _ => .failed .endless

/-- Plays a script on the panel that the settings describe. -/
def playScript (settings : Settings) (options : Options) (script : Script) : Outcome :=
  let display := settings.displayInEffect
  let (width, height) := display.sizeInEffect
  match display.kindInEffect with
  | .graphical =>
    playOn settings script (pixelPanel width height) PixelPanel.toAscii fun panel =>
      options.pbm.map fun path => (path, panel.toPbm)
  | .character =>
    playOn settings script (CellPanel.new width height) CellPanel.toText fun _ => none

/-- Runs with these options. -/
def runWith (files : Files) (home : Option String) (options : Options) : Outcome :=
  match Settings.load files home options with
  | .error cause => .failed (.settings cause)
  | .ok settings =>
    if options.dumpConfig then ⟨settings.dump ++ "\n", none, 0, none⟩
    else match scriptFor files settings with
      | .error failure => .failed failure
      | .ok script => playScript settings options script

/-- What is shown for `--version`. -/
def versionText : String := "midimon 0.1.0\n"

/-- Runs with these arguments. -/
def run (files : Files) (home : Option String) (args : List String) : Outcome :=
  match Options.parse args with
  | .error .version => ⟨versionText, none, 0, some (.usage .version)⟩
  | .error cause => .failed (.usage cause)
  | .ok options => runWith files home options

/-- The outcome once the image has been written, or could not be. -/
def Outcome.afterSaving (o : Outcome) (path : String) : Except FileError Unit → Outcome
  | .ok () => o
  | .error cause => { o with failure := some (.save path cause) }

end MidiPanel.CommandLine
