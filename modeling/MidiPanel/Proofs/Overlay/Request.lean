import MidiPanel.Proofs.Surface.Backlight
import MidiPanel.Overlay.Basic

/-!
# What can be asked of an overlay

A trigger brings an overlay up, a request is anything that can be asked of the overlay machine. A
look at the timers moves a mode to the one behind it, once its display time is over, and does no
more than turn spinner frames before; idleness and power saving have no end. An update either looks
at the timers and draws, or has been refused the dark and changes nothing.

Results:
* `mode_afterTimers`, `since_afterTimers`: what a look at the timers changes.
* `update_cases`, `exitPowerSaving_cases`: what the requests do that make calls.
* `backlight_update`, `backlight_exitPowerSaving`, `backlightCalls_update`: what they do to the light.
* `Reached.ticks`: the timings are never touched.
-/

namespace MidiPanel

/-- What brings an overlay up. -/
inductive Trigger where
  | message (text : String) (spinner : Bool)
  | image (id : ImageId)
  | powerSaving
  deriving DecidableEq

/-- Whether a call is one of those that only overlays make. -/
def Call.isOverlay : Call → Bool
  | .print _ _ _ clearRest => clearRest
  | .drawImage _ => true
  | _ => false

/-- The mode that a trigger brings up. -/
def Trigger.mode : Trigger → Overlay.Mode
  | .message _ spinner => if spinner then .spinner else .message
  | .image _ => .image
  | .powerSaving => .enteringPowerSaving

/-- The mode behind one whose display time is over. -/
def Overlay.Mode.next : Overlay.Mode → Overlay.Mode
  | .enteringPowerSaving | .inPowerSaving => .inPowerSaving
  | _ => .idle

/-- The calls on the light with which a mode ends. -/
def Overlay.Mode.lastCalls : Overlay.Mode → List Call
  | .enteringPowerSaving => [.setBacklight false]
  | _ => []

theorem Overlay.Mode.next_next (mode : Overlay.Mode) : mode.next.next = mode.next := by
  cases mode <;> rfl

theorem Overlay.Mode.lastCalls_next (mode : Overlay.Mode) : mode.next.lastCalls = [] := by
  cases mode <;> rfl

theorem Overlay.mode_eq_inPowerSaving {overlay : Overlay} :
    overlay.mode = .inPowerSaving ↔ overlay = .inPowerSaving := by
  cases overlay <;> simp [Overlay.mode]

/-- What can be asked of the overlay machine. -/
inductive Request where
  | raise (trigger : Trigger) (now : Tick)
  | dismiss
  | exitPowerSaving
  | update (now : Tick)
  deriving DecidableEq

namespace Status

/-- Brings an overlay up. -/
def raise (s : Status) (now : Tick) : Trigger → Status
  | .message text spinner => s.showMessage text spinner now
  | .image id => s.showImage id now
  | .powerSaving => s.enterPowerSaving now

/-- Does what is asked. -/
def answer {σ : Type} [Surface σ] (s : Status) (surface : σ) : Request → Drawn Status σ
  | .raise trigger now => ⟨s.raise now trigger, surface, none⟩
  | .dismiss => ⟨s.dismiss, surface, none⟩
  | .exitPowerSaving => s.exitPowerSaving surface
  | .update now => s.update surface now

@[simp] theorem mode_raise (s : Status) (now : Tick) (trigger : Trigger) :
    (s.raise now trigger).overlay.mode = trigger.mode := by
  rcases trigger with ⟨text, _ | _⟩ | id | _ <;> rfl

@[simp] theorem since_raise (s : Status) (now : Tick) (trigger : Trigger) :
    (s.raise now trigger).since = now := by
  rcases trigger with ⟨text, _ | _⟩ | id | _ <;> rfl

@[simp] theorem displayTicks_raise (s : Status) (now : Tick) (trigger : Trigger) :
    (s.raise now trigger).displayTicks = s.displayTicks := by
  rcases trigger with ⟨text, _ | _⟩ | id | _ <;> rfl

@[simp] theorem frameTicks_raise (s : Status) (now : Tick) (trigger : Trigger) :
    (s.raise now trigger).frameTicks = s.frameTicks := by
  rcases trigger with ⟨text, _ | _⟩ | id | _ <;> rfl

/-! ## Timers -/

theorem mode_afterTimers (s : Status) (now : Tick) :
    (s.afterTimers now).overlay.mode =
      if s.timedOut now then s.overlay.mode.next else s.overlay.mode := by
  unfold afterTimers
  cases hs : s.overlay with
  | idle | inPowerSaving =>
    rw [hs]
    split <;> rfl
  | message | image | enteringPowerSaving =>
    dsimp only
    split
    · rfl
    · rw [hs]
  | spinner frame frameTick =>
    dsimp only
    split
    · rfl
    · split
      · rfl
      · rw [hs]

theorem since_afterTimers {s : Status} {now : Tick} (h : s.timedOut now = false) :
    (s.afterTimers now).since = s.since := by
  unfold afterTimers
  cases s.overlay with
  | spinner frame frameTick =>
    rw [h]
    dsimp only
    rw [if_neg Bool.false_ne_true]
    split <;> rfl
  | _ => simp [h]

/-- The timings are not changed by what they time. -/
theorem ticks_afterTimers (s : Status) (now : Tick) :
    (s.afterTimers now).displayTicks = s.displayTicks ∧
      (s.afterTimers now).frameTicks = s.frameTicks := by
  unfold afterTimers
  cases s.overlay with
  | idle | inPowerSaving => exact ⟨rfl, rfl⟩
  | message | image | enteringPowerSaving =>
    dsimp only
    split <;> exact ⟨rfl, rfl⟩
  | spinner frame frameTick =>
    dsimp only
    split
    · exact ⟨rfl, rfl⟩
    · split <;> exact ⟨rfl, rfl⟩

@[simp] theorem displayTicks_afterTimers (s : Status) (now : Tick) :
    (s.afterTimers now).displayTicks = s.displayTicks := (s.ticks_afterTimers now).1

@[simp] theorem frameTicks_afterTimers (s : Status) (now : Tick) :
    (s.afterTimers now).frameTicks = s.frameTicks := (s.ticks_afterTimers now).2

theorem goesDark_iff {s : Status} {now : Tick} :
    s.goesDark now ↔ s.overlay = .enteringPowerSaving ∧ s.timedOut now := by
  unfold goesDark
  rw [Bool.and_eq_true, decide_eq_true_iff]

/-- Power saving is entered by going dark, and not left by a look at the timers. -/
theorem afterTimers_eq_inPowerSaving_iff {s : Status} {now : Tick} :
    (s.afterTimers now).overlay = .inPowerSaving ↔
      s.overlay = .inPowerSaving ∨ s.goesDark now := by
  rw [← Overlay.mode_eq_inPowerSaving, mode_afterTimers, goesDark_iff]
  cases s.overlay <;> cases s.timedOut now <;> simp [Overlay.mode, Overlay.Mode.next]

/-! ## Updates -/

variable {σ : Type} [Surface σ]

theorem update_cases (s : Status) (surface : σ) (now : Tick) :
    (s.goesDark now = false ∧ s.update surface now = (s.afterTimers now).draw surface) ∨
    (s.goesDark now = true ∧ ∃ dark, Surface.perform surface (.setBacklight false) = .ok dark ∧
      s.update surface now = (s.afterTimers now).draw dark) ∨
    (∃ fault, Surface.perform surface (.setBacklight false) = .error fault ∧
      s.update surface now =
        ⟨s, Surface.afterFault surface (.setBacklight false), some fault⟩) := by
  unfold update
  cases hdark : s.goesDark now with
  | false => exact .inl ⟨rfl, rfl⟩
  | true =>
    cases hperform : Surface.perform surface (.setBacklight false) with
    | ok dark => exact .inr (.inl ⟨rfl, dark, rfl, rfl⟩)
    | error fault => exact .inr (.inr ⟨fault, rfl, rfl⟩)

theorem state_update (s : Status) (surface : σ) (now : Tick) :
    (s.update surface now).state = s.afterTimers now ∨ (s.update surface now).state = s := by
  obtain ⟨-, h⟩ | ⟨-, dark, -, h⟩ | ⟨fault, -, h⟩ := s.update_cases surface now
  · exact .inl (by rw [h]; rfl)
  · exact .inl (by rw [h]; rfl)
  · exact .inr (by rw [h])

theorem exitPowerSaving_cases (s : Status) (surface : σ) :
    (∃ lit, Surface.perform surface (.setBacklight true) = .ok lit ∧
      s.exitPowerSaving surface = ⟨s.dismiss, lit, none⟩) ∨
    (∃ fault, Surface.perform surface (.setBacklight true) = .error fault ∧
      s.exitPowerSaving surface =
        ⟨s, Surface.afterFault surface (.setBacklight true), some fault⟩) := by
  unfold exitPowerSaving
  cases Surface.perform surface (.setBacklight true) with
  | ok lit => exact .inl ⟨lit, rfl, rfl⟩
  | error fault => exact .inr ⟨fault, rfl, rfl⟩

theorem state_exitPowerSaving (s : Status) (surface : σ) :
    (s.exitPowerSaving surface).state = s.dismiss ∨ (s.exitPowerSaving surface).state = s := by
  obtain ⟨lit, -, h⟩ | ⟨fault, -, h⟩ := s.exitPowerSaving_cases surface
  · exact .inl (by rw [h])
  · exact .inr (by rw [h])

/-- Drawing an overlay makes no other calls. -/
theorem isOverlay_calls {s : Status} {kind : PanelKind} {height : Nat} {call : Call}
    (h : call ∈ s.calls kind height) : call.isOverlay = true := by
  unfold calls at h
  split at h
  case h_5 => split at h <;> grind [Call.isOverlay]
  all_goals grind [Call.isOverlay]

/-- Drawing an overlay is no matter of the light. -/
theorem isBacklight_calls {s : Status} {kind : PanelKind} {height : Nat} {call : Call}
    (h : call ∈ s.calls kind height) : call.isBacklight = false := by
  have hoverlay := isOverlay_calls h
  cases call with
  | setBacklight on => cases hoverlay
  | _ => rfl

/-! ## The light -/

/-- An update turns the light off when it goes dark. -/
theorem backlight_update [Backlit σ] (s : Status) (surface : σ) (now : Tick) :
    let drawn := s.update surface now
    (drawn.state = s.afterTimers now ∧
      Backlit.backlight drawn.surface = (Backlit.backlight surface && !s.goesDark now)) ∨
    (drawn.state = s ∧ Backlit.backlight drawn.surface = Backlit.backlight surface ∧
      drawn.fault ≠ none) := by
  intro drawn
  have hdraw (surface : σ) : Backlit.backlight ((s.afterTimers now).draw surface).surface =
      Backlit.backlight surface := Backlit.run (fun call => isBacklight_calls) surface
  obtain ⟨hdark, h⟩ | ⟨hdark, dark, hperform, h⟩ | ⟨fault, hperform, h⟩ :=
    s.update_cases surface now
  · have hdrawn : drawn = (s.afterTimers now).draw surface := h
    refine .inl ⟨by rw [hdrawn]; rfl, ?_⟩
    rw [hdrawn, hdraw, hdark, Bool.not_false, Bool.and_true]
  · have hdrawn : drawn = (s.afterTimers now).draw dark := h
    refine .inl ⟨by rw [hdrawn]; rfl, ?_⟩
    rw [hdrawn, hdraw, Backlit.backlight_of_ok hperform, hdark, Bool.not_true, Bool.and_false]
    rfl
  · have hdrawn : drawn = ⟨s, Surface.afterFault surface (.setBacklight false), some fault⟩ := h
    refine .inr ⟨by rw [hdrawn], ?_, by rw [hdrawn]; exact Option.some_ne_none fault⟩
    rw [hdrawn]
    exact Backlit.backlight_of_error hperform

/-- Leaving power saving turns the light on. -/
theorem backlight_exitPowerSaving [Backlit σ] (s : Status) (surface : σ) :
    let drawn := s.exitPowerSaving surface
    (drawn.state = s.dismiss ∧ Backlit.backlight drawn.surface = true) ∨
    (drawn.state = s ∧ Backlit.backlight drawn.surface = Backlit.backlight surface ∧
      drawn.fault ≠ none) := by
  intro drawn
  obtain ⟨lit, hperform, h⟩ | ⟨fault, hperform, h⟩ := s.exitPowerSaving_cases surface
  · have hdrawn : drawn = ⟨s.dismiss, lit, none⟩ := h
    refine .inl ⟨by rw [hdrawn], ?_⟩
    rw [hdrawn, Backlit.backlight_of_ok hperform]
    rfl
  · have hdrawn : drawn = ⟨s, Surface.afterFault surface (.setBacklight true), some fault⟩ := h
    refine .inr ⟨by rw [hdrawn], ?_, by rw [hdrawn]; exact Option.some_ne_none fault⟩
    rw [hdrawn]
    exact Backlit.backlight_of_error hperform

/-- The calls on the light that an update without a fault has made. -/
theorem backlightCalls_update {s : Status} {t : Traced σ} {now : Tick}
    (h : (s.update t now).fault = none) :
    (s.update t now).state = s.afterTimers now ∧
      (s.update t now).surface.backlightCalls =
        (if s.timedOut now then s.overlay.mode.lastCalls else []) ++ t.backlightCalls := by
  have hdraw (t : Traced σ) : ((s.afterTimers now).draw t).surface.backlightCalls =
      t.backlightCalls := Traced.backlightCalls_run (fun call => isBacklight_calls) t
  have hlast : (if s.timedOut now then s.overlay.mode.lastCalls else []) =
      if s.goesDark now then [.setBacklight false] else [] := by
    unfold goesDark
    cases s.overlay <;> cases s.timedOut now <;> rfl
  rw [hlast]
  obtain ⟨hdark, hupdate⟩ | ⟨hdark, dark, hperform, hupdate⟩ | ⟨fault, -, hupdate⟩ :=
    s.update_cases t now
  · rw [hupdate, hdraw, hdark]
    exact ⟨rfl, rfl⟩
  · rw [hupdate, hdraw, hdark, Traced.backlightCalls_of_ok hperform]
    exact ⟨rfl, rfl⟩
  · rw [hupdate] at h
    exact absurd h (Option.some_ne_none fault)

end Status

/-! ## Reachable states -/

/-- The text that has been shown last, once a request is answered. -/
def Request.lastText (shown : String) : Request → String
  | .raise (.message text _) _ => text
  | _ => shown

namespace Status

variable {σ : Type} [Surface σ]

/-- The states that requests lead to, whatever surfaces they are made on, with the text that has
been shown last. -/
inductive Reached (timings : OverlayTimings) : String → Status → Prop
  | new : Reached timings "" (.new timings)
  | answer {shown : String} {s : Status} (h : Reached timings shown s) {σ : Type} [Surface σ]
      (surface : σ) (request : Request) :
      Reached timings (request.lastText shown) (s.answer surface request).state

/-- The states that requests on one surface lead to, with the surface then. What else happens to
the surface leaves its light alone. -/
inductive ReachedOn [Backlit σ] (timings : OverlayTimings) : Status → σ → Prop
  | new (surface : σ) : ReachedOn timings (.new timings) surface
  | answer {s : Status} {surface : σ} (h : ReachedOn timings s surface) (request : Request) :
      ReachedOn timings (s.answer surface request).state (s.answer surface request).surface
  | other {s : Status} {surface surface' : σ} (h : ReachedOn timings s surface)
      (hlight : Backlit.backlight surface' = Backlit.backlight surface) :
      ReachedOn timings s surface'

theorem ticks_answer (s : Status) (surface : σ) (request : Request) :
    (s.answer surface request).state.displayTicks = s.displayTicks ∧
      (s.answer surface request).state.frameTicks = s.frameTicks := by
  cases request with
  | raise trigger now => exact ⟨displayTicks_raise s now trigger, frameTicks_raise s now trigger⟩
  | dismiss => exact ⟨rfl, rfl⟩
  | exitPowerSaving =>
    show (s.exitPowerSaving surface).state.displayTicks = _ ∧
      (s.exitPowerSaving surface).state.frameTicks = _
    obtain h | h := s.state_exitPowerSaving surface
    · rw [h]
      exact ⟨rfl, rfl⟩
    · rw [h]
      exact ⟨rfl, rfl⟩
  | update now =>
    show (s.update surface now).state.displayTicks = _ ∧ (s.update surface now).state.frameTicks = _
    obtain h | h := s.state_update surface now
    · rw [h]
      exact s.ticks_afterTimers now
    · rw [h]
      exact ⟨rfl, rfl⟩

theorem Reached.ticks {timings : OverlayTimings} {shown : String} {s : Status}
    (h : Reached timings shown s) : s.displayTicks = Tick.ofMillis timings.displayMs ∧
      s.frameTicks = Tick.ofMillis timings.frameMs := by
  induction h with
  | new => exact ⟨rfl, rfl⟩
  | answer _ surface request ih =>
    obtain ⟨hdisplay, hframe⟩ := ticks_answer _ surface request
    exact ⟨hdisplay.trans ih.1, hframe.trans ih.2⟩

theorem Reached.displayTicks {timings : OverlayTimings} {shown : String} {s : Status}
    (h : Reached timings shown s) : s.displayTicks = Tick.ofMillis timings.displayMs := h.ticks.1

end Status
end MidiPanel
