import MidiPanel.Panel
import MidiPanel.Proofs.Surface.Traced

/-!
# Runs of the front panel

A run is a list of operations on a panel and a surface: messages, overlays, updates, frames and
queries, in any order and at any ticks. After each operation an observer sees what it has told, its
fault, the overlay with its message, and the surface with all calls that were made on it.
-/

namespace MidiPanel

/-- What a front panel can be asked to do. -/
inductive Operation where
  | receive (packed : UInt32) (now : Tick)
  | showMessage (text : String) (spinner : Bool) (now : Tick)
  | dismiss
  | showImage (id : ImageId) (now : Tick)
  | enterPowerSaving (now : Tick)
  | exitPowerSaving
  | update (now : Tick)
  | refresh (now : Tick)
  | query (now : Tick)
  deriving DecidableEq

/-- What can be observed behind an operation. -/
structure Observation (σ : Type) where
  fault : Option Fault
  readings : Option (Vector Reading 16)
  mode : Overlay.Mode
  message : MessageBuffer
  frame : Option (Fin 14)
  image : Option ImageId
  surface : Traced σ

namespace Panel

variable {σ : Type} [Surface σ]

/-- Performs an operation. -/
def operate (p : Panel) (surface : σ) : Operation → Drawn Panel σ
  | .receive packed now => ⟨p.receive packed now, surface, none⟩
  | .showMessage text spinner now =>
    ⟨{ p with status := p.status.showMessage text spinner now }, surface, none⟩
  | .dismiss => ⟨{ p with status := p.status.dismiss }, surface, none⟩
  | .showImage id now => ⟨{ p with status := p.status.showImage id now }, surface, none⟩
  | .enterPowerSaving now => ⟨{ p with status := p.status.enterPowerSaving now }, surface, none⟩
  | .exitPowerSaving => p.exitPowerSaving surface
  | .update now => p.updateStatus surface now
  | .refresh now => p.refresh surface now
  | .query now => ⟨{ p with monitor := (p.monitor.query now).2 }, surface, none⟩

/-- What an operation tells: a query tells its readings. -/
def told (p : Panel) : Operation → Option (Vector Reading 16)
  | .query now => some (p.monitor.query now).1
  | _ => none

/-- What can be observed behind an operation that has told these readings. -/
def observe (drawn : Drawn Panel (Traced σ)) (readings : Option (Vector Reading 16)) :
    Observation σ where
  fault := drawn.fault
  readings := readings
  mode := drawn.state.status.overlay.mode
  message := drawn.state.status.message
  frame := drawn.state.status.spinnerFrame?
  image := drawn.state.status.image?
  surface := drawn.surface

/-- The observations of a run, one for each operation. -/
def observations (p : Panel) (surface : Traced σ) : List Operation → List (Observation σ)
  | [] => []
  | operation :: rest =>
    let drawn := p.operate surface operation
    observe drawn (p.told operation) :: drawn.state.observations drawn.surface rest

end Panel
end MidiPanel
