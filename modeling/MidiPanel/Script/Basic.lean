import MidiPanel.Surface.Basic

/-!
# Scripts

A script is a list of events, each stamped with the time since the start of playback, and a hold
time for which playback goes on after the last of them. A script that can be played has its events
in the order of time, at least one action in every event, and a status byte in every MIDI message.
-/

namespace MidiPanel

/-- What happens to power saving. -/
inductive PowerSaving where
  | enter
  | exit
  deriving DecidableEq

/-- A system message. -/
structure MessageAction where
  text : String
  spinner : Bool
  deriving DecidableEq

/-- What happens at one time; every part of it may be missing. -/
structure ScriptEvent where
  atMs : UInt32
  midi : Option (UInt8 × UInt8 × UInt8)
  message : Option MessageAction
  clearSpinner : Bool
  image : Option ImageId
  powerSaving : Option PowerSaving
  deriving DecidableEq

/-- Events with a hold time after the last. -/
structure Script where
  holdMs : UInt32
  events : List ScriptEvent
  deriving DecidableEq

namespace ScriptEvent

/-- Nothing happens. -/
def isEmpty (e : ScriptEvent) : Bool :=
  e.midi.isNone && e.message.isNone && !e.clearSpinner && e.image.isNone && e.powerSaving.isNone

/-- The status byte of the MIDI message, if it is none. -/
def badStatus? (e : ScriptEvent) : Option UInt8 :=
  e.midi.bind fun (status, _) => if status < 0x80 then some status else none

end ScriptEvent

namespace Script

/-- What is wrong with an event. -/
inductive Defect where
  | tooEarly (atMs previous : UInt32)
  | noAction
  | badStatus (status : UInt8)
  deriving DecidableEq

/-- Two upper-case hexadecimal digits. -/
def hexByte (b : UInt8) : String :=
  let digit (n : Nat) : Char := (Nat.digitChar n).toUpper
  String.ofList [digit (b.toNat / 16), digit (b.toNat % 16)]

/-- The wording of a defect. -/
def Defect.message : Defect → String
  | .tooEarly atMs previous =>
    s!"at_ms {atMs.toNat} is earlier than the previous event ({previous.toNat})"
  | .noAction => "no action"
  | .badStatus status => s!"status byte 0x{hexByte status} lacks the high bit"

/-- The defect of an event behind one at `previous`: the time is looked at first, then the actions,
then the status byte. -/
def defect? (previous : UInt32) (e : ScriptEvent) : Option Defect :=
  if e.atMs < previous then some (.tooEarly e.atMs previous)
  else if e.isEmpty then some .noAction
  else e.badStatus?.map .badStatus

/-- The first defect among events from number `index` on. -/
def firstDefect? (index : Nat) (previous : UInt32) : List ScriptEvent → Option (Nat × Defect)
  | [] => none
  | e :: events =>
    match defect? previous e with
    | some defect => some (index, defect)
    | none => firstDefect? (index + 1) e.atMs events

/-- The first defect of a script with the number of its event. -/
def firstDefectOf? (s : Script) : Option (Nat × Defect) := firstDefect? 0 0 s.events

/-- Playback length including the trailing hold; it stops growing at the greatest word. -/
def durationMs (s : Script) : UInt32 :=
  let last := (s.events.getLast?.map ScriptEvent.atMs).getD 0
  UInt32.ofNat (min (last.toNat + s.holdMs.toNat) (UInt32.size - 1))

end Script
end MidiPanel
