import MidiPanel.CommandLine.Options
import MidiPanel.Files
import MidiPanel.Settings.Reading

/-!
# Loading settings

The settings of the program are those of one file with the command line over them. The file is the
one that the command line names, which must be there, or the first of four places that has one. What
the command line overrides need not be valid in the file.
-/

namespace MidiPanel.Settings

/-- Why there are no settings. -/
inductive LoadError where
  | yaml (cause : Yaml.Error)
  | io (cause : FileError)
  | invalid (violation : Violation)
  deriving DecidableEq

/-- Where a settings file is looked for, in this order. -/
def candidates (home : Option String) : List String :=
  (home.elim [] fun home => [home ++ "/.config/midimon/config.yaml", home ++ "/.config/midimon.yaml"])
    ++ ["midimon.yaml", "config/midimon.yaml"]

/-- The settings file, if there is one. -/
def filePath? (files : Files) (home : Option String) (config : Option String) :
    Except LoadError (Option String) :=
  match config with
  | some path =>
    if files.isThere path then .ok (some path) else .error (.invalid (.fileNotFound path))
  | none => .ok ((candidates home).find? files.isThere)

/-- Reads settings from a file. -/
def readFile (files : Files) (path : String) : Except LoadError Settings :=
  match files.read path with
  | .error cause => .error (.io cause)
  | .ok text =>
    match parse text with
    | .error cause => .error (.yaml cause)
    | .ok s => .ok s

/-- The settings themselves, if nothing makes them useless. -/
def validate (s : Settings) : Except LoadError Settings :=
  match s.violation? with
  | some violation => .error (.invalid violation)
  | none => .ok s

/-- The settings of the program: the file's, then the command line's over them. -/
def load (files : Files) (home : Option String) (options : Options) : Except LoadError Settings := do
  let fromFile ← match ← filePath? files home options.config with
    | some path => readFile files path
    | none => pure .unset
  (fromFile.merge options.settings).validate

end MidiPanel.Settings
