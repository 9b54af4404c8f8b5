import MidiPanel.Proofs.Monitor.TimeShift
import MidiPanel.Proofs.Overlay.TimeShift
import MidiPanel.Proofs.Panel.Operation
import MidiPanel.Surface.Recorder

/-!
# Front panels with shifted clocks

A front panel cannot tell when its counter wraps: a run at ticks that are all moved by the same
shift cannot be told from the run itself, whatever operations it is made of and whatever surface
they draw on. One operation keeps two panels whose clocks differ by the shift in that relation, and
what is observed behind it is the same.

Results:
* `Shifted.operate`, `Shifted.told`: one operation.
* `observations_shift`: a run from a fresh panel.
-/

namespace MidiPanel

/-- The operation at a tick moved by the shift. -/
def Operation.shift (shift : Tick) : Operation → Operation
  | .receive packed now => .receive packed (now + shift)
  | .showMessage text spinner now => .showMessage text spinner (now + shift)
  | .dismiss => .dismiss
  | .showImage id now => .showImage id (now + shift)
  | .enterPowerSaving now => .enterPowerSaving (now + shift)
  | .exitPowerSaving => .exitPowerSaving
  | .update now => .update (now + shift)
  | .refresh now => .refresh (now + shift)
  | .query now => .query (now + shift)

namespace Panel

variable {σ : Type}

/-- Two panels whose clocks differ by a shift. -/
structure Shifted (shift : Tick) (p p' : Panel) : Prop where
  monitor : Monitor.Shifted shift p.monitor p'.monitor
  status : Status.Shifted shift p.status p'.status
  layout : p'.layout = p.layout
  channels : p'.channels = p.channels

theorem shifted_new {timings : EnvelopeTimings} (h : timings.Usable) (overlay : OverlayTimings)
    (layout : MeterLayout) (channels : Nat) (shift : Tick) :
    Shifted shift (new timings overlay layout channels) (new timings overlay layout channels) :=
  ⟨Monitor.shifted_new h shift, Status.shifted_new overlay shift, rfl, rfl⟩

theorem agree_andThen {d : Tick} {drawn drawn' : Drawn Panel σ}
    {next next' : Panel → σ → Drawn Panel σ} (h : Drawn.Agree (Shifted d) drawn drawn')
    (hnext : ∀ p p' surface, Shifted d p p' →
      Drawn.Agree (Shifted d) (next p surface) (next' p' surface)) :
    Drawn.Agree (Shifted d) (andThen drawn next) (andThen drawn' next') := by
  unfold andThen
  rw [h.fault]
  cases drawn.fault with
  | none =>
    rw [h.surface]
    exact hnext _ _ _ h.state
  | some fault => exact h

theorem observe_of_agree {d : Tick} {drawn drawn' : Drawn Panel (Traced σ)}
    (h : Drawn.Agree (Shifted d) drawn drawn') (readings : Option (Vector Reading 16)) :
    observe drawn' readings = observe drawn readings := by
  have hstatus := h.state.status
  unfold observe
  rw [h.fault, h.surface, hstatus.overlay, Overlay.mode_shift, hstatus.message,
    hstatus.spinnerFrame?, hstatus.image?]

variable [Surface σ]

namespace Shifted

variable {d : Tick} {p p' : Panel}

/-! ## Drawing -/

theorem draw (h : Shifted d p p') (surface : σ) (calls : List Call) :
    Drawn.Agree (Shifted d) (p.draw surface calls) (p'.draw surface calls) := ⟨h, rfl, rfl⟩

theorem drawLevels (h : Shifted d p p') (surface : σ) (layout : MeterLayout) (channels : Nat)
    (now : Tick) : Drawn.Agree (Shifted d) (p.drawLevels surface layout channels now)
      (p'.drawLevels surface layout channels (now + d)) := by
  obtain ⟨hreadings, hmonitor⟩ := h.monitor.query now
  unfold Panel.drawLevels
  dsimp only
  rw [hreadings]
  exact ⟨{ h with monitor := hmonitor }, rfl, rfl⟩

theorem updateStatus (h : Shifted d p p') (surface : σ) (now : Tick) :
    Drawn.Agree (Shifted d) (p.updateStatus surface now) (p'.updateStatus surface (now + d)) :=
  have hstatus := h.status.update surface now
  ⟨{ h with status := hstatus.state }, hstatus.surface, hstatus.fault⟩

theorem exitPowerSaving (h : Shifted d p p') (surface : σ) :
    Drawn.Agree (Shifted d) (p.exitPowerSaving surface) (p'.exitPowerSaving surface) :=
  have hstatus := h.status.exitPowerSaving surface
  ⟨{ h with status := hstatus.state }, hstatus.surface, hstatus.fault⟩

theorem refresh (h : Shifted d p p') (surface : σ) (now : Tick) :
    Drawn.Agree (Shifted d) (p.refresh surface now) (p'.refresh surface (now + d)) := by
  unfold Panel.refresh
  refine agree_andThen (h.draw surface [.clear]) fun p p' surface h => ?_
  refine agree_andThen (h.updateStatus surface now) fun p p' surface h => ?_
  refine agree_andThen ?_ fun p p' surface h => h.draw surface [.flush]
  have hidle : p'.status.overlay = .idle ↔ p.status.overlay = .idle := by
    rw [h.status.overlay]
    exact Overlay.shift_eq_iff (by decide)
  by_cases hs : p.status.overlay = .idle
  · rw [if_pos hs, if_pos (hidle.mpr hs), h.layout, h.channels]
    exact h.drawLevels surface p.layout p.channels now
  · rw [if_neg hs, if_neg (mt hidle.mp hs)]
    exact ⟨h, rfl, rfl⟩

/-! ## Operations -/

theorem operate (h : Shifted d p p') (surface : σ) (operation : Operation) :
    Drawn.Agree (Shifted d) (p.operate surface operation)
      (p'.operate surface (operation.shift d)) := by
  cases operation with
  | receive packed now => exact ⟨{ h with monitor := h.monitor.receive packed now }, rfl, rfl⟩
  | showMessage text spinner now =>
    exact ⟨{ h with status := h.status.showMessage text spinner now }, rfl, rfl⟩
  | dismiss => exact ⟨{ h with status := h.status.dismiss }, rfl, rfl⟩
  | showImage id now => exact ⟨{ h with status := h.status.showImage id now }, rfl, rfl⟩
  | enterPowerSaving now => exact ⟨{ h with status := h.status.enterPowerSaving now }, rfl, rfl⟩
  | exitPowerSaving => exact h.exitPowerSaving surface
  | update now => exact h.updateStatus surface now
  | refresh now => exact h.refresh surface now
  | query now => exact ⟨{ h with monitor := (h.monitor.query now).2 }, rfl, rfl⟩

theorem told (h : Shifted d p p') (operation : Operation) :
    p'.told (operation.shift d) = p.told operation := by
  cases operation with
  | query now => exact congrArg some (h.monitor.query now).1
  | _ => rfl

end Shifted

/-! ## Runs -/

theorem Shifted.observations {d : Tick} {p p' : Panel} (h : Shifted d p p') (surface : Traced σ)
    (operations : List Operation) :
    p'.observations surface (operations.map (·.shift d)) = p.observations surface operations := by
  induction operations generalizing p p' surface with
  | nil => rfl
  | cons operation rest ih =>
    have hdrawn := h.operate surface operation
    rw [List.map_cons]
    unfold Panel.observations
    dsimp only
    rw [h.told, observe_of_agree hdrawn, hdrawn.surface, ih hdrawn.state]

/-- Moving every tick of a run from a fresh panel by the same shift changes nothing that can be
observed: no fault, no reading, neither mode nor message nor spinner frame nor image of the overlay,
no call on the surface, and nothing on the surface itself. -/
theorem observations_shift {timings : EnvelopeTimings} (h : timings.Usable)
    (overlay : OverlayTimings) (layout : MeterLayout) (channels : Nat) (surface : Traced σ)
    (operations : List Operation) (shift : Tick) :
    (new timings overlay layout channels).observations surface (operations.map (·.shift shift)) =
      (new timings overlay layout channels).observations surface operations :=
  (shifted_new h overlay layout channels shift).observations surface operations

/-- The same run from the start of the counter and from twenty ticks before it wraps. -/
theorem observations_shift_standard :
    let surface : Traced Recorder := ⟨⟨.graphical, 128, 32, [], #[]⟩, []⟩
    let panel := Panel.new .standard .standard (.forSurface surface) 16
    let operations : List Operation := [.receive (ShortMessage.noteOn 0 60 127).pack 0,
      .showMessage "Loading" true 10, .refresh 40000, .query 500000, .refresh 3000010]
    EnvelopeTimings.standard.Usable ∧
      panel.observations surface (operations.map (·.shift (-20))) =
        panel.observations surface operations := by
  intro surface panel operations
  exact ⟨EnvelopeTimings.standard_usable,
    observations_shift EnvelopeTimings.standard_usable .standard _ 16 surface operations _⟩

end Panel
end MidiPanel
