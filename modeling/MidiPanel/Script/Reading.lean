import MidiPanel.Files
import MidiPanel.Script.Basic
import MidiPanel.Yaml.Reading

/-!
# Scripts as YAML

A script is a mapping with a hold time and a list of events. An event must have a time; everything
else may be missing. A text that reads as a script is then checked for the first defect.
-/

namespace MidiPanel

/-- Why there is no script. -/
inductive ScriptError where
  | yaml (cause : Yaml.Error)
  | io (cause : FileError)
  | invalid (index : Nat) (defect : Script.Defect)
  deriving DecidableEq

namespace Script

open Yaml

/-- Exactly three bytes. -/
def midiBytes : Reader (UInt8 × UInt8 × UInt8) := fun node => do
  match ← Reader.list Reader.byte node with
  | [status, data1, data2] => return (status, data1, data2)
  | _ => throw .wrongType

def messageAction : Reader MessageAction := fun node => do
  let fields ← fieldsOf ["text", "spinner"] node
  return {
    text := ← fields.required "text" Reader.string
    spinner := ← fields.withDefault "spinner" Reader.bool false }

def powerSaving : Reader PowerSaving := Reader.oneOf [("enter", .enter), ("exit", .exit)]

def event : Reader ScriptEvent := fun node => do
  let fields ← fieldsOf ["at_ms", "midi", "message", "clear_spinner", "image", "power_saving"] node
  return {
    atMs := ← fields.required "at_ms" Reader.word
    midi := ← fields.optional "midi" midiBytes
    message := ← fields.optional "message" messageAction
    clearSpinner := ← fields.withDefault "clear_spinner" Reader.bool false
    image := ← fields.optional "image" Reader.halfWord
    powerSaving := ← fields.optional "power_saving" powerSaving }

def script : Reader Script := fun node => do
  let fields ← fieldsOf ["hold_ms", "events"] node
  return {
    holdMs := ← fields.withDefault "hold_ms" Reader.word 0
    events := ← fields.withDefault "events" (Reader.list event) [] }

/-- The script itself, if nothing is wrong with it. -/
def check (s : Script) : Except ScriptError Script :=
  match s.firstDefectOf? with
  | some (index, defect) => .error (.invalid index defect)
  | none => .ok s

/-- Reads a script that can be played. -/
def parse (text : String) : Except ScriptError Script :=
  match readDocument script text with
  | .ok s => s.check
  | .error cause => .error (.yaml cause)

/-- Reads a script from a file. -/
def load (files : Files) (path : String) : Except ScriptError Script :=
  match files.read path with
  | .ok text => parse text
  | .error cause => .error (.io cause)

end Script
end MidiPanel
