/-!
# Panels as surfaces

Everything the meter and the overlays draw goes through six calls. A surface answers each call with
its next state or with a fault. A fault may leave marks on a surface, such as a count of tries; the
panels of this library stay as they were. A list of calls runs in order up to the first fault; what
was drawn before it stays.

Text positions are character cells on every kind of panel, rectangle corners are inclusive pixels.

Results:
* `run_append`: running two lists one after the other is running their concatenation.
-/

namespace MidiPanel

/-- Whether a panel shows rows of characters or single pixels. -/
inductive PanelKind where
  | character
  | graphical
  deriving DecidableEq, Inhabited

/-- The name used in settings. -/
def PanelKind.name : PanelKind → String
  | .character => "character"
  | .graphical => "graphical"

/-- Names a full-screen image known to the panel. -/
abbrev ImageId := UInt16

/-- Why a panel refuses something, or why a drawing is given up. -/
inductive Fault where
  | unsupported
  | unknownImage (id : ImageId)
  | imageSize (expected actual : Nat)
  | outOfBounds (x y : Nat)
  | emptyPanel (kind : PanelKind) (width height : Nat)
  | callFailed (call : String)
  /-- No word of 32 bits holds a number that is needed. -/
  | overflow
  deriving DecidableEq

/-- The wording of a fault. -/
def Fault.message : Fault → String
  | .unsupported => "Operation not supported by this display"
  | .unknownImage id => s!"No image registered with id {id.toNat}"
  | .imageSize expected actual =>
    s!"Image size mismatch: expected {expected} bytes, got {actual}"
  | .outOfBounds x y => s!"Position ({x}, {y}) is outside the display"
  | .emptyPanel kind width height =>
    s!"Invalid configuration: {kind.name} panel must be at least 1x1, got {width}x{height}"
  | .callFailed call => s!"Drawing error: {call} failed"
  | .overflow => "Arithmetic overflow"

/-- One call on a panel. -/
inductive Call where
  /-- Text from a character cell on; `clearRest` blanks the rest of its line. -/
  | print (text : String) (column row : Nat) (clearRest : Bool)
  /-- A filled rectangle between two corners, both of them included. -/
  | fillRect (x₁ y₁ x₂ y₂ : Nat)
  | drawImage (id : ImageId)
  | setBacklight (on : Bool)
  /-- Blanks the frame. -/
  | clear
  /-- Shows the frame. -/
  | flush
  deriving DecidableEq

/-- A panel that can be drawn on. -/
class Surface (σ : Type) where
  kind : σ → PanelKind
  /-- Pixels, or columns of characters. -/
  width : σ → Nat
  /-- Pixels, or rows of characters. -/
  height : σ → Nat
  perform : σ → Call → Except Fault σ
  /-- The surface behind a call that it has refused. -/
  afterFault : σ → Call → σ := fun s _ => s

/-- What drawing leaves behind: the state of what drew, the surface, and the fault that ended the
drawing early, if one did. -/
structure Drawn (α σ : Type) where
  state : α
  surface : σ
  fault : Option Fault

namespace Surface

variable {σ : Type} [Surface σ]

/-- Performs calls in order until one fails; the surface as it is then, and the fault. -/
def run (s : σ) : List Call → σ × Option Fault
  | [] => (s, none)
  | call :: calls =>
    match perform s call with
    | .ok s => run s calls
    | .error fault => (afterFault s call, some fault)

theorem run_append (s : σ) (cs ds : List Call) :
    run s (cs ++ ds) = match run s cs with
      | (s, none) => run s ds
      | (s, some fault) => (s, some fault) := by
  induction cs generalizing s with
  | nil => rfl
  | cons c cs ih =>
    simp only [List.cons_append, run]
    cases perform s c with
    | ok s => exact ih s
    | error fault => rfl

end Surface
end MidiPanel
