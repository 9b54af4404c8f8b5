import MidiPanel.Overlay.Basic
import MidiPanel.Proofs.Tick

/-!
# Overlays with shifted clocks

Two overlay machines whose clocks differ by a constant shift make the same transitions and draw the
same. The tick since which nothing has been shown need not differ by the shift: no timer looks at
it while the machine is idle.

Results:
* `Status.Shifted.afterTimers`: the timers keep the relation.
* `Status.Shifted.update`, `Status.Shifted.exitPowerSaving`: what is drawn agrees.
-/

namespace MidiPanel

/-- Two drawings with related states that leave the same surface and the same fault behind. -/
structure Drawn.Agree {α σ : Type} (R : α → α → Prop) (drawn drawn' : Drawn α σ) : Prop where
  state : R drawn.state drawn'.state
  surface : drawn'.surface = drawn.surface
  fault : drawn'.fault = drawn.fault

/-- The overlay with the time of its spinner moved. -/
def Overlay.shift (shift : Tick) : Overlay → Overlay
  | .spinner frame frameTick => .spinner frame (frameTick + shift)
  | overlay => overlay

theorem Overlay.mode_shift (overlay : Overlay) (shift : Tick) :
    (overlay.shift shift).mode = overlay.mode := by
  cases overlay <;> rfl

theorem Overlay.shift_eq_iff {overlay overlay' : Overlay} {shift : Tick}
    (h : overlay'.mode ≠ .spinner) : overlay.shift shift = overlay' ↔ overlay = overlay' := by
  cases overlay with
  | spinner frame frameTick =>
    constructor <;> intro heq <;> exact absurd (congrArg mode heq) (Ne.symm h)
  | _ => exact Iff.rfl

namespace Status

/-- Two overlay machines whose clocks differ by a shift. -/
structure Shifted (shift : Tick) (s s' : Status) : Prop where
  overlay : s'.overlay = s.overlay.shift shift
  since : s.overlay = .idle ∨ s'.since = s.since + shift
  message : s'.message = s.message
  displayTicks : s'.displayTicks = s.displayTicks
  frameTicks : s'.frameTicks = s.frameTicks

theorem shifted_new (timings : OverlayTimings) (shift : Tick) :
    Shifted shift (new timings) (new timings) := ⟨rfl, .inl rfl, rfl, rfl, rfl⟩

namespace Shifted

variable {d : Tick} {s s' : Status}

theorem spinnerFrame? (h : Shifted d s s') : s'.spinnerFrame? = s.spinnerFrame? := by
  unfold Status.spinnerFrame?
  rw [h.overlay]
  cases s.overlay <;> rfl

theorem image? (h : Shifted d s s') : s'.image? = s.image? := by
  unfold Status.image?
  rw [h.overlay]
  cases s.overlay <;> rfl

/-! ## Triggers -/

theorem enter (h : Shifted d s s') (overlay : Overlay) (now : Tick) :
    Shifted d (s.enter overlay now) (s'.enter (overlay.shift d) (now + d)) :=
  { h with overlay := rfl, since := .inr rfl }

theorem showMessage (h : Shifted d s s') (text : String) (spinner : Bool) (now : Tick) :
    Shifted d (s.showMessage text spinner now) (s'.showMessage text spinner (now + d)) := by
  cases spinner with
  | false => exact { h with overlay := rfl, since := .inr rfl, message := rfl }
  | true => exact { h with overlay := rfl, since := .inr rfl, message := rfl }

theorem dismiss (h : Shifted d s s') : Shifted d s.dismiss s'.dismiss :=
  { h with overlay := rfl, since := .inl rfl }

theorem showImage (h : Shifted d s s') (id : ImageId) (now : Tick) :
    Shifted d (s.showImage id now) (s'.showImage id (now + d)) := h.enter (.image id) now

theorem enterPowerSaving (h : Shifted d s s') (now : Tick) :
    Shifted d (s.enterPowerSaving now) (s'.enterPowerSaving (now + d)) :=
  { h with overlay := rfl, since := .inr rfl, message := rfl }

/-! ## Timers -/

theorem timedOut (h : Shifted d s s') (hs : s.overlay ≠ .idle) (now : Tick) :
    s'.timedOut (now + d) = s.timedOut now := by
  unfold Status.timedOut
  rw [h.displayTicks, h.since.resolve_left hs, Tick.elapsed_add]

theorem goesDark (h : Shifted d s s') (now : Tick) : s'.goesDark (now + d) = s.goesDark now := by
  unfold Status.goesDark
  by_cases hs : s.overlay = .enteringPowerSaving
  · have hidle : s.overlay ≠ .idle := by rw [hs]; exact Overlay.noConfusion
    rw [h.timedOut hidle, h.overlay, hs]
    rfl
  · have hs' : s'.overlay ≠ .enteringPowerSaving := by
      rw [h.overlay, Ne, Overlay.shift_eq_iff (by decide)]
      exact hs
    rw [decide_eq_false hs, decide_eq_false hs']
    rfl

theorem afterTimers (h : Shifted d s s') (now : Tick) :
    Shifted d (s.afterTimers now) (s'.afterTimers (now + d)) := by
  have htimedOut (hidle : s.overlay ≠ .idle) : s'.timedOut (now + d) = s.timedOut now :=
    h.timedOut hidle now
  unfold Status.afterTimers
  rw [h.overlay]
  cases hs : s.overlay with
  | idle | inPowerSaving => exact h
  | message | image =>
    show Shifted d (if s.timedOut now then _ else s) (if s'.timedOut (now + d) then _ else s')
    rw [htimedOut (by rw [hs]; exact Overlay.noConfusion)]
    split
    · exact h.enter .idle now
    · exact h
  | enteringPowerSaving =>
    show Shifted d (if s.timedOut now then _ else s) (if s'.timedOut (now + d) then _ else s')
    rw [htimedOut (by rw [hs]; exact Overlay.noConfusion)]
    split
    · exact h.enter .inPowerSaving now
    · exact h
  | spinner frame frameTick =>
    have hidle : s.overlay ≠ .idle := by rw [hs]; exact Overlay.noConfusion
    simp only [Overlay.shift, htimedOut hidle, h.frameTicks, Tick.elapsed_add]
    split
    · exact h.enter .idle now
    · split
      · exact { h with
          overlay := rfl
          since := .inr (h.since.resolve_left hidle)
          message := by rw [h.message]
          frameTicks := rfl }
      · exact h

/-! ## Drawing -/

theorem calls (h : Shifted d s s') (kind : PanelKind) (height : Nat) :
    s'.calls kind height = s.calls kind height := by
  unfold Status.calls
  rw [h.overlay, h.message]
  cases s.overlay <;> cases kind <;> rfl

variable {σ : Type} [Surface σ]

theorem draw (h : Shifted d s s') (surface : σ) :
    Drawn.Agree (Shifted d) (s.draw surface) (s'.draw surface) := by
  unfold Status.draw
  rw [h.calls]
  exact ⟨h, rfl, rfl⟩

theorem update (h : Shifted d s s') (surface : σ) (now : Tick) :
    Drawn.Agree (Shifted d) (s.update surface now) (s'.update surface (now + d)) := by
  unfold Status.update
  rw [h.goesDark]
  split
  · cases Surface.perform surface (.setBacklight false) with
    | ok surface => exact (h.afterTimers now).draw surface
    | error fault => exact ⟨h, rfl, rfl⟩
  · exact (h.afterTimers now).draw surface

theorem exitPowerSaving (h : Shifted d s s') (surface : σ) :
    Drawn.Agree (Shifted d) (s.exitPowerSaving surface) (s'.exitPowerSaving surface) := by
  unfold Status.exitPowerSaving
  cases Surface.perform surface (.setBacklight true) with
  | ok surface => exact ⟨h.dismiss, rfl, rfl⟩
  | error fault => exact ⟨h, rfl, rfl⟩

end Shifted

end Status
end MidiPanel
