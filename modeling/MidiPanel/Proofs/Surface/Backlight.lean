import MidiPanel.Proofs.Surface.Traced
import MidiPanel.Surface.CellPanel
import MidiPanel.Surface.PixelPanel

/-!
# Backlights

A surface is backlit if it has a light that its own call sets and that nothing else touches, neither
another call nor a refused one; the panels of this library are. On a surface that keeps its calls,
what has been done to the light can be told from the calls.

Results:
* `Backlit.run`: drawing leaves the light alone.
* `Traced.backlightCalls_run`: drawing adds no call on the light.
-/

namespace MidiPanel

/-- Whether a call is one on the light. -/
def Call.isBacklight : Call → Bool
  | .setBacklight _ => true
  | _ => false

/-- The light behind a call that has been performed. -/
def Call.lightAfter (light : Bool) : Call → Bool
  | .setBacklight on => on
  | _ => light

theorem Call.lightAfter_of_not_isBacklight {call : Call} (h : call.isBacklight = false)
    (light : Bool) : call.lightAfter light = light := by
  cases call with
  | setBacklight on => cases h
  | _ => rfl

/-- Surfaces with a light that only its own call changes, and that only when it is performed. -/
class Backlit (σ : Type) [Surface σ] where
  backlight : σ → Bool
  backlight_of_ok {surface surface' : σ} {call : Call}
    (h : Surface.perform surface call = .ok surface') :
    backlight surface' = call.lightAfter (backlight surface)
  backlight_of_error {surface : σ} {call : Call} {fault : Fault}
    (h : Surface.perform surface call = .error fault) :
    backlight (Surface.afterFault surface call) = backlight surface

namespace Backlit

variable {σ : Type} [Surface σ] [Backlit σ]

theorem run {calls : List Call} (h : ∀ call ∈ calls, call.isBacklight = false) (surface : σ) :
    backlight (Surface.run surface calls).1 = backlight surface := by
  induction calls generalizing surface with
  | nil => rfl
  | cons call calls ih =>
    unfold Surface.run
    cases hcall : Surface.perform surface call with
    | ok surface' =>
      have hlight : backlight surface' = backlight surface := by
        rw [backlight_of_ok hcall]
        exact Call.lightAfter_of_not_isBacklight (h call List.mem_cons_self) _
      dsimp only
      rw [ih (fun call hmem => h call (List.mem_cons_of_mem _ hmem)), hlight]
    | error fault => exact backlight_of_error hcall

end Backlit

/-! ## The panels -/

instance CellPanel.backlit : Backlit CellPanel where
  backlight := CellPanel.backlight
  backlight_of_ok := by
    intro panel panel' call h
    replace h : panel.perform call = .ok panel' := h
    cases call with
    | print text column row clearRest =>
      simp only [CellPanel.perform] at h
      split at h
      · cases h
        rfl
      · cases h
    | fillRect | drawImage => cases h
    | setBacklight | clear | flush =>
      cases h
      rfl
  backlight_of_error := by
    intro panel call fault h
    rfl

instance PixelPanel.backlit : Backlit PixelPanel where
  backlight := PixelPanel.backlight
  backlight_of_ok := by
    intro panel panel' call h
    replace h : panel.perform call = .ok panel' := h
    cases call with
    | fillRect x₁ y₁ x₂ y₂ =>
      simp only [PixelPanel.perform] at h
      split at h
      · cases h
      · cases h
        rfl
    | drawImage id =>
      simp only [PixelPanel.perform] at h
      split at h
      · cases h
        rfl
      · cases h
    | print | setBacklight | clear | flush =>
      cases h
      rfl
  backlight_of_error := by
    intro panel call fault h
    rfl

/-! ## Calls on the light -/

namespace Traced

variable {σ : Type}

/-- The calls on the light that have reached a surface, the latest first. -/
def backlightCalls (t : Traced σ) : List Call := t.calls.filter Call.isBacklight

variable [Surface σ]

theorem backlightCalls_run {calls : List Call} (h : ∀ call ∈ calls, call.isBacklight = false)
    (t : Traced σ) : (Surface.run t calls).1.backlightCalls = t.backlightCalls := by
  obtain ⟨made, rest, rfl, hmade, -⟩ := run_calls t calls
  have hnone : made.reverse.filter Call.isBacklight = [] := by
    rw [List.filter_eq_nil_iff]
    intro call hcall
    rw [h call (List.mem_append_left _ (List.mem_reverse.mp hcall))]
    exact Bool.false_ne_true
  unfold backlightCalls
  rw [hmade, List.filter_append, hnone, List.nil_append]

theorem backlightCalls_of_ok {t t' : Traced σ} {on : Bool}
    (h : Surface.perform t (.setBacklight on) = .ok t') :
    t'.backlightCalls = .setBacklight on :: t.backlightCalls := by
  cases hperform : Surface.perform t.surface (.setBacklight on) with
  | ok surface =>
    rw [perform_of_ok hperform] at h
    cases h
    rfl
  | error fault =>
    rw [perform_of_error hperform] at h
    cases h

end Traced
end MidiPanel
