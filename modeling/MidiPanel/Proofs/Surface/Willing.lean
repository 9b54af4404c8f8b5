import MidiPanel.Proofs.Surface.Traced
import MidiPanel.Surface.Recorder

/-!
# Surfaces that refuse nothing

A surface is willing if it performs whatever is called from here on. Whether a call is refused may
hang on the calls before it, so that this is said of the state of a surface, and kept by its calls.

Results:
* `Willing.perform`, `Willing.run`: a willing surface stays so.
* `Traced.willing`, `Recorder.willing`: willing surfaces.
-/

namespace MidiPanel

namespace Surface

variable {σ : Type} [Surface σ] {surface : σ}

/-- No calls from here on meet a fault. -/
def Willing (surface : σ) : Prop := ∀ calls, (run surface calls).2 = none

theorem Willing.perform (h : Willing surface) (call : Call) :
    ∃ surface', Surface.perform surface call = .ok surface' ∧ Willing surface' := by
  cases hperform : Surface.perform surface call with
  | ok surface' =>
    refine ⟨surface', rfl, ?_⟩
    intro calls
    have hrun := h (call :: calls)
    unfold Surface.run at hrun
    rw [hperform] at hrun
    exact hrun
  | error fault =>
    have hrun := h [call]
    unfold Surface.run at hrun
    rw [hperform] at hrun
    exact absurd hrun (Option.some_ne_none fault)

theorem Willing.run (h : Willing surface) (calls : List Call) :
    Willing (Surface.run surface calls).1 := by
  induction calls generalizing surface with
  | nil => exact h
  | cons call calls ih =>
    obtain ⟨surface', hperform, hwilling⟩ := h.perform call
    unfold Surface.run
    rw [hperform]
    exact ih hwilling

end Surface

theorem Traced.willing {σ : Type} [Surface σ] {t : Traced σ} (h : Surface.Willing t.surface) :
    Surface.Willing t := by
  intro calls
  rw [Traced.run_fault]
  exact h calls

/-- A recorder that was told to refuse nothing. -/
theorem Recorder.willing {r : Recorder} (h : r.refused = []) : Surface.Willing r := by
  intro calls
  induction calls generalizing r with
  | nil => rfl
  | cons call calls ih =>
    have hperform : Surface.perform r call = .ok { r with calls := r.calls.push call } := by
      show r.perform call = _
      unfold Recorder.perform
      rw [h]
      rfl
    unfold Surface.run
    rw [hperform]
    exact ih h

end MidiPanel
