import MidiPanel.CommandLine.Run

/-!
# The command

Gathers the files that the arguments lead to, runs the program on them, prints, writes the image
file, and reports a failure on the error stream.
-/

namespace MidiPanel.CommandLine

/-- The file error that an operating system error amounts to. -/
def fileErrorOf : IO.Error → FileError
  | .noFileOrDirectory _ _ _ => .notFound
  | .permissionDenied _ _ _ => .permissionDenied
  | .inappropriateType _ 21 _ => .isDirectory
  | .inappropriateType _ _ _ => .notDirectory
  | .invalidArgument _ code _ => if code = 22 then .nulInName else .nameTooLong
  | .userError _ => .notText
  | _ => .notFound

/-- Reads the text of a file. -/
def readText (path : String) : IO (Except FileError String) := do
  try
    match String.fromUTF8? (← IO.FS.readBinFile path) with
    | some text => return .ok text
    | none => return .error .notText
  catch e => return .error (fileErrorOf e)

/-- What stands at these paths, as a file system. -/
def snapshot (paths : List String) : IO Files := do
  let texts ← paths.mapM fun path => return (path, ← readText path)
  let read (path : String) : Except FileError String :=
    (texts.lookup path).getD (.error .notFound)
  let isThere (path : String) : Bool :=
    match read path with
    | .error .notFound => false
    | .error .notDirectory => false
    | _ => true
  return ⟨isThere, read⟩

/-- The paths that the options lead to: the places of the settings file, then the script. -/
def pathsFor (home : Option String) (args : List String) : IO (List String) := do
  match Options.parse args with
  | .error _ => return []
  | .ok options =>
    let paths := options.config.elim (Settings.candidates home) fun path => [path]
    match Settings.load (← snapshot paths) home options with
    | .ok settings => return paths ++ settings.script.toList
    | .error _ => return paths

/-- Waits as long as the replay takes in real time, if that was asked for. -/
def pace (args : List String) (files : Files) (home : Option String) (frames : Nat) : IO Unit := do
  match Options.parse args with
  | .ok options =>
    if options.realtime then
      if let .ok settings := Settings.load files home options then
        let micros := Replay.frameMicros settings.displayInEffect.fpsInEffect * (frames - 1)
        IO.sleep (UInt32.ofNat (micros / 1000))
  | .error _ => return

/-- Writes a file. -/
def writeText (path text : String) : IO (Except FileError Unit) := do
  try
    IO.FS.writeFile path text
    return .ok ()
  catch e => return .error (fileErrorOf e)

end MidiPanel.CommandLine

open MidiPanel MidiPanel.CommandLine in
def main (args : List String) : IO UInt32 := do
  let home ← IO.getEnv "HOME"
  let files ← snapshot (← pathsFor home args)
  let outcome := run files home args
  pace args files home outcome.frames
  IO.print outcome.printed
  let outcome ← match outcome.image with
    | some (path, text) => pure (outcome.afterSaving path (← writeText path text))
    | none => pure outcome
  match outcome.failure with
  | none | some (.usage _) => pure ()
  | some failure => IO.eprintln failure.report
  return UInt32.ofNat outcome.exitCode
