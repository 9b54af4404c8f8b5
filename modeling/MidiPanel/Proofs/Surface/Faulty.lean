import MidiPanel.Proofs.Surface.Framed

/-!
# Surfaces that fail at times

A faulty surface has a plan: one entry for each call to come, a fault if that call is to be refused
whatever it is. A call that the plan refuses never reaches the surface in it; all others do, and
those behind the end of the plan. Every pattern of failing calls is a plan.

Results:
* `run_surface`: calls that meet no fault have been performed.
* `fixture_run`: no pattern of faults changes what a surface is.
-/

namespace MidiPanel

/-- A surface with the faults that the calls to come will meet. -/
structure Faulty (σ : Type) where
  surface : σ
  plan : List (Option Fault)

namespace Faulty

variable {σ : Type} [Surface σ]

/-- Performs a call on the surface, unless the plan refuses it. -/
def perform (t : Faulty σ) (call : Call) : Except Fault (Faulty σ) :=
  match t.plan with
  | some fault :: _ => .error fault
  | _ => (Surface.perform t.surface call).map fun surface => ⟨surface, t.plan.tail⟩

/-- The surface behind a refused call: untouched if it was the plan that refused it. -/
def afterFault (t : Faulty σ) (call : Call) : Faulty σ :=
  match t.plan with
  | some _ :: plan => ⟨t.surface, plan⟩
  | _ => ⟨Surface.afterFault t.surface call, t.plan.tail⟩

instance : Surface (Faulty σ) where
  kind t := Surface.kind t.surface
  width t := Surface.width t.surface
  height t := Surface.height t.surface
  perform := perform
  afterFault := afterFault

variable {t t' : Faulty σ} {call : Call} {fault : Fault}

theorem surface_of_ok (h : Surface.perform t call = .ok t') :
    Surface.perform t.surface call = .ok t'.surface := by
  replace h : t.perform call = .ok t' := h
  unfold perform at h
  split at h
  · cases h
  · cases hcall : Surface.perform t.surface call with
    | ok surface =>
      rw [hcall] at h
      cases h
      rfl
    | error fault =>
      rw [hcall] at h
      cases h

/-- A call is refused by the plan, or by the surface. -/
theorem surface_of_error (h : Surface.perform t call = .error fault) :
    (Surface.afterFault t call).surface = t.surface ∨
      (Surface.perform t.surface call = .error fault ∧
        (Surface.afterFault t call).surface = Surface.afterFault t.surface call) := by
  replace h : t.perform call = .error fault := h
  show (t.afterFault call).surface = _ ∨ (_ ∧ (t.afterFault call).surface = _)
  unfold perform at h
  unfold afterFault
  split at h
  next => exact .inl rfl
  next =>
    refine .inr ⟨?_, rfl⟩
    cases hcall : Surface.perform t.surface call with
    | ok surface =>
      rw [hcall] at h
      cases h
    | error fault' =>
      rw [hcall] at h
      cases h
      rfl

theorem run_surface {calls : List Call} (h : (Surface.run t calls).2 = none) :
    Surface.run t.surface calls = ((Surface.run t calls).1.surface, none) := by
  induction calls generalizing t with
  | nil => rfl
  | cons call calls ih =>
    unfold Surface.run at h ⊢
    cases hcall : Surface.perform t call with
    | ok t' =>
      rw [hcall] at h
      rw [surface_of_ok hcall]
      exact ih h
    | error fault =>
      rw [hcall] at h
      exact absurd h (Option.some_ne_none fault)

theorem fixture_run [Framed σ] (t : Faulty σ) (calls : List Call) :
    Framed.fixture (Surface.run t calls).1.surface = Framed.fixture t.surface := by
  induction calls generalizing t with
  | nil => rfl
  | cons call calls ih =>
    unfold Surface.run
    cases hcall : Surface.perform t call with
    | ok t' => exact (ih t').trans (Framed.fixture_of_ok (surface_of_ok hcall))
    | error fault =>
      obtain hplan | ⟨hrefused, hafter⟩ := surface_of_error hcall
      · exact congrArg Framed.fixture hplan
      · exact (congrArg Framed.fixture hafter).trans (Framed.fixture_of_error hrefused)

instance backlit [Backlit σ] : Backlit (Faulty σ) where
  backlight t := Backlit.backlight t.surface
  backlight_of_ok h := Backlit.backlight_of_ok (surface_of_ok h)
  backlight_of_error := by
    intro t call fault h
    obtain hplan | ⟨hrefused, hafter⟩ := surface_of_error h
    · exact congrArg Backlit.backlight hplan
    · exact (congrArg Backlit.backlight hafter).trans (Backlit.backlight_of_error hrefused)

end Faulty
end MidiPanel
