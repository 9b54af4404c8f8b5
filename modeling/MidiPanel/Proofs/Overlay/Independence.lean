import MidiPanel.Proofs.Overlay.Request
import MidiPanel.Surface.Recorder

/-!
# Overlays do not depend on panels

The only call that an answer to a request waits for is one on the light. Everything else that is
asked of a panel is asked once the state is what it will be, so that two panels which agree about
the light leave the overlay machine in one state, whatever they are and whatever else they refuse.

A surface *takes* a call if it would perform it as it is now.

Results:
* `state_update_eq`, `state_exitPowerSaving_eq`: the state, told from the light alone.
* `state_answer_congr`, `Alike.eq`: two panels that agree about the light, request by request.
* `calls_update`: the calls of an update, those on the light first.
* `update_independent`: an update on two panels.
-/

namespace MidiPanel

/-- Whether a surface would perform a call as it is now. -/
def Surface.takes {σ : Type} [Surface σ] (surface : σ) (call : Call) : Bool :=
  (perform surface call).isOk

/-- The setting of the light that a request may ask a panel for. -/
def Request.light? : Request → Option Bool
  | .exitPowerSaving => some true
  | .update _ => some false
  | .raise _ _ | .dismiss => none

/-- Two panels agree about the light, as far as a request asks for it. -/
def Request.Agree {σ τ : Type} [Surface σ] [Surface τ] (request : Request) (surface : σ)
    (panel : τ) : Prop :=
  ∀ on ∈ request.light?,
    Surface.takes surface (.setBacklight on) = Surface.takes panel (.setBacklight on)

namespace Surface

variable {σ : Type} [Surface σ] {surface : σ} {call : Call}

theorem takes_of_ok {surface' : σ} (h : perform surface call = .ok surface') :
    takes surface call = true := by
  unfold takes
  rw [h]
  rfl

theorem takes_of_error {fault : Fault} (h : perform surface call = .error fault) :
    takes surface call = false := by
  unfold takes
  rw [h]
  rfl

end Surface

namespace Status

variable {σ τ : Type} [Surface σ] [Surface τ]

/-! ## States -/

/-- An update stops at the light, or goes through whatever the drawing meets. -/
theorem state_update_eq (s : Status) (surface : σ) (now : Tick) :
    (s.update surface now).state =
      if s.goesDark now && !Surface.takes surface (.setBacklight false) then s
      else s.afterTimers now := by
  unfold update
  cases s.goesDark now with
  | false => rfl
  | true =>
    cases hperform : Surface.perform surface (.setBacklight false) with
    | ok dark =>
      rw [Surface.takes_of_ok hperform]
      rfl
    | error fault =>
      rw [Surface.takes_of_error hperform]
      rfl

theorem state_exitPowerSaving_eq (s : Status) (surface : σ) :
    (s.exitPowerSaving surface).state =
      if Surface.takes surface (.setBacklight true) then s.dismiss else s := by
  obtain ⟨lit, hperform, h⟩ | ⟨fault, hperform, h⟩ := s.exitPowerSaving_cases surface
  · rw [h, Surface.takes_of_ok hperform]
    rfl
  · rw [h, Surface.takes_of_error hperform]
    rfl

/-- One request, answered on two panels. -/
theorem state_answer_congr (s : Status) {surface : σ} {panel : τ} {request : Request}
    (hlight : request.Agree surface panel) :
    (s.answer surface request).state = (s.answer panel request).state := by
  cases request with
  | raise trigger now => rfl
  | dismiss => rfl
  | exitPowerSaving =>
    show (s.exitPowerSaving surface).state = (s.exitPowerSaving panel).state
    rw [state_exitPowerSaving_eq, state_exitPowerSaving_eq, hlight true rfl]
  | update now =>
    show (s.update surface now).state = (s.update panel now).state
    rw [state_update_eq, state_update_eq, hlight false rfl]

/-- Two overlay machines that the same has been asked of, each time on two panels that agree about
the light. -/
inductive Alike (timings : OverlayTimings) : Status → Status → Prop
  | new : Alike timings (.new timings) (.new timings)
  | answer {s t : Status} (h : Alike timings s t) {σ τ : Type} [Surface σ] [Surface τ]
      (surface : σ) (panel : τ) (request : Request) (hlight : request.Agree surface panel) :
      Alike timings (s.answer surface request).state (t.answer panel request).state

/-- No run of requests tells panels from each other that agree about the light. -/
theorem Alike.eq {timings : OverlayTimings} {s t : Status} (h : Alike timings s t) : s = t := by
  induction h with
  | new => rfl
  | answer _ surface panel request hlight ih =>
    rw [ih]
    exact state_answer_congr _ hlight

/-! ## Calls -/

/-- What an update makes: the call on the light, if it goes dark, and none behind it if that is
refused; else a first part of the calls that draw the overlay as the timers leave it. -/
theorem calls_update (s : Status) (surface : σ) (now : Tick) :
    ∃ made, (s.update (⟨surface, []⟩ : Traced σ) now).calls =
        (if s.goesDark now then [.setBacklight false] else []) ++ made ∧
      (∀ call ∈ made, call.isOverlay = true) ∧
      (s.goesDark now = true → Surface.takes surface (.setBacklight false) = false →
        made = []) := by
  -- Drawing starts on a surface that has kept the calls on the light.
  have hdraw (t : Traced σ) : ∃ made, ((s.afterTimers now).draw t).calls = t.calls.reverse ++ made ∧
      ∀ call ∈ made, call.isOverlay = true := by
    obtain ⟨made, rest, hcalls, hmade, -⟩ :=
      t.run_calls ((s.afterTimers now).calls (Surface.kind t) (Surface.height t))
    refine ⟨made, ?_, ?_⟩
    · show (Surface.run t _).1.calls.reverse = _
      rw [hmade, List.reverse_append, List.reverse_reverse]
    · intro call hcall
      have hmem : call ∈ (s.afterTimers now).calls (Surface.kind t) (Surface.height t) := by
        rw [hcalls]
        exact List.mem_append_left rest hcall
      exact isOverlay_calls hmem
  unfold update
  cases hdark : s.goesDark now with
  | false =>
    obtain ⟨made, hcalls, hmade⟩ := hdraw ⟨surface, []⟩
    exact ⟨made, hcalls, hmade, fun htrue => nomatch htrue⟩
  | true =>
    cases hperform : Surface.perform surface (.setBacklight false) with
    | ok dark =>
      obtain ⟨made, hcalls, hmade⟩ := hdraw ⟨dark, [.setBacklight false]⟩
      refine ⟨made, ?_, hmade, fun _ hrefused => ?_⟩
      · rw [Traced.perform_of_ok hperform]
        exact hcalls
      · rw [Surface.takes_of_ok hperform] at hrefused
        cases hrefused
    | error fault =>
      refine ⟨[], ?_, List.forall_mem_nil _, fun _ _ => rfl⟩
      rw [Traced.perform_of_error hperform]
      rfl

/-- Two panels of whatever kind, size, images and faults, which would both turn their light off or
both refuse it, see an update leave the same state. The light is asked for at most once, to go off
and out of the notice of power saving, before anything is drawn; if it is refused, nothing is drawn
and nothing has changed. -/
theorem update_independent (s : Status) (surface : σ) (panel : τ) (now : Tick)
    (hlight : Surface.takes surface (.setBacklight false) =
      Surface.takes panel (.setBacklight false)) :
    (s.update surface now).state = (s.update panel now).state ∧
    ∃ lights made, (s.update (⟨surface, []⟩ : Traced σ) now).calls = lights ++ made ∧
      (∀ call ∈ made, call.isOverlay = true) ∧
      (lights = [] ∨ (s.overlay = .enteringPowerSaving ∧ lights = [.setBacklight false])) ∧
      ∀ fault, lights ≠ [] → Surface.perform surface (.setBacklight false) = .error fault →
        made = [] ∧ (s.update surface now).state = s ∧
          (s.update surface now).fault = some fault := by
  have hstate : (s.answer surface (.update now)).state = (s.answer panel (.update now)).state := by
    apply state_answer_congr
    intro on hon
    cases hon
    exact hlight
  obtain ⟨made, hcalls, hmade, hnone⟩ := s.calls_update surface now
  refine ⟨hstate, _, made, hcalls, hmade, ?_, ?_⟩
  · split
    next hdark => exact .inr ⟨(goesDark_iff.mp hdark).1, rfl⟩
    next => exact .inl rfl
  · intro fault hlights hperform
    have hdark : s.goesDark now = true := by
      revert hlights
      cases s.goesDark now with
      | false => exact fun hlights => absurd rfl hlights
      | true => exact fun _ => rfl
    refine ⟨hnone hdark (Surface.takes_of_error hperform), ?_⟩
    unfold update
    rw [if_pos hdark, hperform]
    exact ⟨rfl, rfl⟩

/-- The notice of power saving is over on a strip of pixels and on four rows of characters that
both refuse the dark, the rows text too. -/
theorem update_independent_refused :
    let s := (Status.new .standard).enterPowerSaving 0
    let strip : Recorder := ⟨.graphical, 128, 32, ["backlight"], #[]⟩
    let rows : Recorder := ⟨.character, 20, 4, ["print", "backlight"], #[]⟩
    Surface.takes strip (.setBacklight false) = Surface.takes rows (.setBacklight false) ∧
      (s.update strip 3000000).state = (s.update rows 3000000).state ∧
      (s.update rows 3000000).state = s ∧
      (s.update (⟨rows, []⟩ : Traced Recorder) 3000000).calls = [.setBacklight false] := by
  intro s strip rows
  have hlight : Surface.takes strip (.setBacklight false) =
      Surface.takes rows (.setBacklight false) := by decide
  obtain ⟨hstate, -⟩ := update_independent s strip rows 3000000 hlight
  exact ⟨hlight, hstate, by decide, by decide⟩

end Status
end MidiPanel
