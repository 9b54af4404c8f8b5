import MidiPanel.Surface.Basic

/-!
# Strokes

What is drawn with computed coordinates is drawn in strokes. A stroke works out some numbers and
makes calls with them. All numbers are kept in words of 32 bits: the first sum, product or
difference that no word holds ends the drawing with an overflow, and what was drawn before it stays.
-/

namespace MidiPanel

/-- A word of 32 bits holds the number. -/
def IsWord (number : Int) : Prop := 0 ≤ number ∧ number < UInt32.size

instance (number : Int) : Decidable (IsWord number) :=
  match number with
  | .ofNat n => decidable_of_iff (n < UInt32.size) <| by
    unfold IsWord
    rw [Int.ofNat_eq_natCast]
    omega
  | .negSucc _ => isFalse fun h => absurd h.1 (by omega)

/-- A step of a drawing: the exact numbers that are worked out, in order, and the calls that are
made behind them. -/
structure Stroke where
  numbers : List Int
  calls : List Call

namespace Stroke

/-- Words hold all numbers of the stroke. -/
def fits (stroke : Stroke) : Bool := stroke.numbers.all (IsWord ·)

/-- Draws strokes in order, up to the first overflow or refused call; the surface as it is then, and
the fault. -/
def draw {σ : Type} [Surface σ] (surface : σ) : List Stroke → σ × Option Fault
  | [] => (surface, none)
  | stroke :: strokes =>
    if stroke.fits then
      match Surface.run surface stroke.calls with
      | (surface, none) => draw surface strokes
      | (surface, some fault) => (surface, some fault)
    else (surface, some .overflow)

end Stroke
end MidiPanel
