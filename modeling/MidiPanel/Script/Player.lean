import MidiPanel.Panel
import MidiPanel.Script.Basic

/-!
# Playing scripts

An event acts on the panel in a fixed order: MIDI, message, clearing the spinner, image, power
saving. Only leaving power saving makes a call on the surface, so only that can fail. A player walks
the events in order; an event whose action fails stays the next one to run.
-/

namespace MidiPanel

variable {σ : Type} [Surface σ]

namespace ScriptEvent

/-- The actions that make no call on the surface. -/
def quietActions (e : ScriptEvent) (p : Panel) (now : Tick) : Panel :=
  let p := match e.midi with
    | some (status, data1, data2) =>
      { p with monitor := p.monitor.handle (ShortMessage.mk status data1 data2).event now }
    | none => p
  let p := match e.message with
    | some m => { p with status := p.status.showMessage m.text m.spinner now }
    | none => p
  let p := if e.clearSpinner then { p with status := p.status.dismiss } else p
  let p := match e.image with
    | some id => { p with status := p.status.showImage id now }
    | none => p
  match e.powerSaving with
  | some .enter => { p with status := p.status.enterPowerSaving now }
  | _ => p

/-- Everything that happens at this event. -/
def apply (e : ScriptEvent) (p : Panel) (surface : σ) (now : Tick) : Drawn Panel σ :=
  let p := e.quietActions p now
  match e.powerSaving with
  | some .exit => p.exitPowerSaving surface
  | _ => ⟨p, surface, none⟩

end ScriptEvent

/-- The events that have not run yet. -/
structure Player where
  pending : List ScriptEvent
  deriving DecidableEq

/-- What an advance leaves behind, and how many events ran in it. -/
structure Advanced (σ : Type) where
  player : Player
  panel : Panel
  surface : σ
  fault : Option Fault
  ran : Nat

namespace Player

/-- A player at the start of a script. -/
def ofScript (s : Script) : Player := ⟨s.events⟩

def isFinished (player : Player) : Bool := player.pending.isEmpty

/-- Runs events stamped at or before `elapsedMs`, up to the first that fails. -/
def advanceFrom (elapsedMs : UInt32) (now : Tick) (p : Panel) (surface : σ) (ran : Nat) :
    List ScriptEvent → Advanced σ
  | [] => ⟨⟨[]⟩, p, surface, none, ran⟩
  | e :: events =>
    if elapsedMs < e.atMs then ⟨⟨e :: events⟩, p, surface, none, ran⟩
    else
      let drawn := e.apply p surface now
      match drawn.fault with
      | none => advanceFrom elapsedMs now drawn.state drawn.surface (ran + 1) events
      | some fault => ⟨⟨e :: events⟩, drawn.state, drawn.surface, some fault, ran⟩

/-- Runs every event that is due. -/
def advance (player : Player) (elapsedMs : UInt32) (p : Panel) (surface : σ) (now : Tick) :
    Advanced σ :=
  advanceFrom elapsedMs now p surface 0 player.pending

end Player
end MidiPanel
