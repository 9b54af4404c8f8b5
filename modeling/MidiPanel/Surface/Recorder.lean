import MidiPanel.Surface.Basic

/-!
# Recorders

A recorder is a surface of any kind and size that draws nothing: it keeps the calls it was given, in
order, except those it was told to refuse.
-/

namespace MidiPanel

/-- The name of a call, whatever its arguments. -/
def Call.name : Call → String
  | .print _ _ _ _ => "print"
  | .fillRect _ _ _ _ => "rect"
  | .drawImage _ => "image"
  | .setBacklight _ => "backlight"
  | .clear => "clear"
  | .flush => "flush"

/-- A surface that keeps the calls it was given, but for those with a refused name. -/
structure Recorder where
  kind : PanelKind
  width : Nat
  height : Nat
  refused : List String
  calls : Array Call
  deriving DecidableEq

namespace Recorder

def perform (r : Recorder) (call : Call) : Except Fault Recorder :=
  if r.refused.contains call.name then .error (.callFailed call.name)
  else .ok { r with calls := r.calls.push call }

instance : Surface Recorder where
  kind := kind
  width := width
  height := height
  perform := perform

end Recorder
end MidiPanel
