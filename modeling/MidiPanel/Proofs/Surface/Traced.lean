import MidiPanel.Surface.Basic

/-!
# Surfaces that keep their calls

A traced surface behaves as the surface in it does and keeps the calls that have reached it, the
latest first. A refused call is kept too, the calls behind it never reach the surface.

Results:
* `run_surface`, `run_fault`: keeping the calls makes no difference to what a surface does.
* `run_calls`: the calls that have been kept are the first of those that were to be made.
* `calls_run`, `exists_of_run_fault`: they are all of them, or end with the one that was refused.
-/

namespace MidiPanel

theorem Surface.run_of_append {σ : Type} [Surface σ] {s : σ} {calls rest : List Call}
    (h : (run s (calls ++ rest)).2 = none) : (run s calls).2 = none := by
  rw [run_append] at h
  split at h
  next _ _ hrun => rw [hrun]
  next => exact absurd h (Option.some_ne_none _)

/-- A run that meets a fault ends with the call that was refused. -/
theorem Surface.exists_of_run_fault {σ : Type} [Surface σ] {s : σ} {calls : List Call}
    {fault : Fault} (h : (run s calls).2 = some fault) :
    ∃ made call rest ground, calls = made ++ call :: rest ∧ run s made = (ground, none) ∧
      perform ground call = .error fault ∧ (run s calls).1 = afterFault ground call := by
  induction calls generalizing s with
  | nil => cases h
  | cons call calls ih =>
    cases hcall : perform s call with
    | ok s' =>
      have hrun (calls : List Call) : run s (call :: calls) = run s' calls := by
        rw [run, hcall]
      rw [hrun] at h ⊢
      obtain ⟨made, refused, rest, ground, rfl, hmade, hrefused, hafter⟩ := ih h
      exact ⟨call :: made, refused, rest, ground, rfl, (hrun made).trans hmade, hrefused, hafter⟩
    | error fault' =>
      have hrun : run s (call :: calls) = (afterFault s call, some fault') := by
        rw [run, hcall]
      rw [hrun] at h ⊢
      cases h
      exact ⟨[], call, calls, s, rfl, rfl, hcall, rfl⟩

/-- A surface with the calls that have reached it, the latest first. -/
structure Traced (σ : Type) where
  surface : σ
  calls : List Call

namespace Traced

variable {σ : Type} [Surface σ]

/-- Performs a call on the surface and keeps it. -/
def perform (t : Traced σ) (call : Call) : Except Fault (Traced σ) :=
  match Surface.perform t.surface call with
  | .ok surface => .ok ⟨surface, call :: t.calls⟩
  | .error fault => .error fault

instance : Surface (Traced σ) where
  kind t := Surface.kind t.surface
  width t := Surface.width t.surface
  height t := Surface.height t.surface
  perform := perform
  afterFault t call := ⟨Surface.afterFault t.surface call, call :: t.calls⟩

theorem perform_of_ok {t : Traced σ} {call : Call} {surface : σ}
    (h : Surface.perform t.surface call = .ok surface) :
    Surface.perform t call = .ok ⟨surface, call :: t.calls⟩ := by
  show t.perform call = _
  unfold perform
  rw [h]

theorem perform_of_error {t : Traced σ} {call : Call} {fault : Fault}
    (h : Surface.perform t.surface call = .error fault) :
    Surface.perform t call = .error fault := by
  show t.perform call = _
  unfold perform
  rw [h]

theorem run_surface (t : Traced σ) (calls : List Call) :
    (Surface.run t calls).1.surface = (Surface.run t.surface calls).1 := by
  induction calls generalizing t with
  | nil => rfl
  | cons call calls ih =>
    unfold Surface.run
    cases h : Surface.perform t.surface call with
    | ok surface =>
      rw [perform_of_ok h]
      exact ih _
    | error fault =>
      rw [perform_of_error h]
      rfl

theorem run_fault (t : Traced σ) (calls : List Call) :
    (Surface.run t calls).2 = (Surface.run t.surface calls).2 := by
  induction calls generalizing t with
  | nil => rfl
  | cons call calls ih =>
    unfold Surface.run
    cases h : Surface.perform t.surface call with
    | ok surface =>
      rw [perform_of_ok h]
      exact ih _
    | error fault =>
      rw [perform_of_error h]

theorem run_plain {t ground : Traced σ} {calls : List Call} {fault : Option Fault}
    (h : Surface.run t calls = (ground, fault)) :
    Surface.run t.surface calls = (ground.surface, fault) := by
  refine Prod.ext ?_ ?_
  · rw [← run_surface, h]
  · rw [← run_fault, h]

theorem run_calls (t : Traced σ) (calls : List Call) :
    ∃ made rest, calls = made ++ rest ∧
      (Surface.run t calls).1.calls = made.reverse ++ t.calls ∧
      ((Surface.run t calls).2 = none → rest = []) := by
  induction calls generalizing t with
  | nil => exact ⟨[], [], rfl, rfl, fun _ => rfl⟩
  | cons call calls ih =>
    unfold Surface.run
    cases h : Surface.perform t.surface call with
    | ok surface =>
      rw [perform_of_ok h]
      obtain ⟨made, rest, hcalls, hmade, hrest⟩ := ih ⟨surface, call :: t.calls⟩
      refine ⟨call :: made, rest, by rw [hcalls, List.cons_append], ?_, hrest⟩
      rw [hmade, List.reverse_cons, List.append_assoc, List.singleton_append]
    | error fault =>
      rw [perform_of_error h]
      exact ⟨[call], calls, rfl, rfl, fun hnone => absurd hnone (Option.some_ne_none _)⟩

theorem mem_of_mem_run {t : Traced σ} {calls : List Call} {call : Call}
    (h : call ∈ (Surface.run t calls).1.calls) : call ∈ calls ∨ call ∈ t.calls := by
  obtain ⟨made, rest, rfl, hmade, -⟩ := run_calls t calls
  rw [hmade, List.mem_append, List.mem_reverse] at h
  exact h.imp (List.mem_append_left rest) id

theorem calls_run {t : Traced σ} {calls : List Call} (h : (Surface.run t calls).2 = none) :
    (Surface.run t calls).1.calls = calls.reverse ++ t.calls := by
  obtain ⟨made, rest, rfl, hmade, hrest⟩ := run_calls t calls
  rw [hmade, hrest h, List.append_nil]

theorem exists_of_run_fault {t : Traced σ} {calls : List Call} {fault : Fault}
    (h : (Surface.run t calls).2 = some fault) :
    ∃ made call rest ground, calls = made ++ call :: rest ∧
      Surface.run t.surface made = (ground, none) ∧
      Surface.perform ground call = .error fault ∧
      (Surface.run t calls).1.calls = call :: made.reverse ++ t.calls := by
  obtain ⟨made, call, rest, ground, hcalls, hmade, hrefused, hafter⟩ :=
    Surface.exists_of_run_fault h
  have hground : ground.calls = made.reverse ++ t.calls := by
    rw [← calls_run (congrArg Prod.snd hmade), hmade]
  refine ⟨made, call, rest, ground.surface, hcalls, run_plain hmade, ?_, ?_⟩
  · cases hcall : Surface.perform ground.surface call with
    | ok surface => cases hrefused.symm.trans (perform_of_ok hcall)
    | error fault' =>
      cases (perform_of_error hcall).symm.trans hrefused
      rfl
  · rw [hafter, List.cons_append, ← hground]
    rfl

end Traced

/-- The calls that have been made on a surface, in order. -/
def Drawn.calls {α σ : Type} (drawn : Drawn α (Traced σ)) : List Call :=
  drawn.surface.calls.reverse

end MidiPanel
