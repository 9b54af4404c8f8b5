import MidiPanel.Proofs.Monitor.Run
import MidiPanel.Proofs.Panel.Backlight

/-!
# What a panel is made with

Timings, layout and the number of channels are given to a panel when it is made. Whatever drives it
from then on, on whatever surfaces, it keeps them.

Results:
* `fittings_drive`: no step changes what a panel was made with.
* `Reached.fittings_eq`: a reachable panel has what it was made with.
-/

namespace MidiPanel

/-- What a panel is made with. -/
structure Fittings where
  timings : EnvelopeTimings
  displayTicks : Tick
  frameTicks : Tick
  layout : MeterLayout
  channels : Nat
  deriving DecidableEq

namespace Panel

/-- What the panel was made with, as far as it has kept it. -/
def fittings (p : Panel) : Fittings :=
  ⟨p.monitor.timings, p.status.displayTicks, p.status.frameTicks, p.layout, p.channels⟩

theorem fittings_afterTimers (p : Panel) (now : Tick) :
    { p with status := p.status.afterTimers now }.fittings = p.fittings := by
  simp [fittings]

theorem fittings_composed (p : Panel) (now : Tick) : (p.composed now).fittings = p.fittings := by
  unfold composed fittings
  simp only [Status.displayTicks_afterTimers, Status.frameTicks_afterTimers]
  split <;> rfl

theorem fittings_showMessage (p : Panel) (text : String) (spinner : Bool) (now : Tick) :
    { p with status := p.status.showMessage text spinner now }.fittings = p.fittings := by
  cases spinner <;> rfl

theorem fittings_quietActions (e : ScriptEvent) (p : Panel) (now : Tick) :
    (e.quietActions p now).fittings = p.fittings := by
  obtain ⟨atMs, midi, message, clearSpinner, image, powerSaving⟩ := e
  -- From the last action to the first: each leaves the later ones to the panel behind it.
  have hpowerSaving (p : Panel) :
      (ScriptEvent.quietActions ⟨atMs, none, none, false, none, powerSaving⟩ p now).fittings =
        p.fittings := by
    rcases powerSaving with _ | _ | _ <;> rfl
  have himage (p : Panel) :
      (ScriptEvent.quietActions ⟨atMs, none, none, false, image, powerSaving⟩ p now).fittings =
        p.fittings := by
    cases image with
    | none => exact hpowerSaving p
    | some id => exact hpowerSaving { p with status := p.status.showImage id now }
  have hclear (p : Panel) :
      (ScriptEvent.quietActions ⟨atMs, none, none, clearSpinner, image, powerSaving⟩ p
        now).fittings = p.fittings := by
    cases clearSpinner with
    | false => exact himage p
    | true => exact himage { p with status := p.status.dismiss }
  have hmessage (p : Panel) :
      (ScriptEvent.quietActions ⟨atMs, none, message, clearSpinner, image, powerSaving⟩ p
        now).fittings = p.fittings := by
    cases message with
    | none => exact hclear p
    | some m =>
      exact (hclear { p with status := p.status.showMessage m.text m.spinner now }).trans
        (p.fittings_showMessage m.text m.spinner now)
  cases midi with
  | none => exact hmessage p
  | some bytes =>
    let event := (ShortMessage.mk bytes.1 bytes.2.1 bytes.2.2).event
    refine (hmessage { p with monitor := p.monitor.handle event now }).trans ?_
    simp [fittings]

variable {σ : Type} [Surface σ]

theorem fittings_exitPowerSaving (p : Panel) (surface : σ) :
    (p.exitPowerSaving surface).state.fittings = p.fittings := by
  obtain ⟨lit, -, h⟩ | ⟨fault, -, h⟩ := p.status.exitPowerSaving_cases surface
  · unfold exitPowerSaving
    rw [h]
    rfl
  · unfold exitPowerSaving
    rw [h]

/-- No step changes what a panel was made with. -/
theorem fittings_drive (p : Panel) (surface : σ) (drive : Drive) :
    (p.drive surface drive).state.fittings = p.fittings := by
  cases drive with
  | operation o =>
    cases o with
    | receive packed now =>
      show (Fittings.mk (p.monitor.receive packed now).timings _ _ _ _) = _
      rw [Monitor.receive_timings]
      rfl
    | showMessage text spinner now => exact p.fittings_showMessage text spinner now
    | dismiss | showImage | enterPowerSaving | query => rfl
    | exitPowerSaving => exact p.fittings_exitPowerSaving surface
    | update now =>
      obtain h | h := p.status.state_update surface now
      · exact (congrArg (fun status => { p with status := status }.fittings) h).trans
          (p.fittings_afterTimers now)
      · exact congrArg (fun status => { p with status := status }.fittings) h
    | refresh now =>
      obtain ⟨ground, fault, -, h⟩ | ⟨ground, -, h⟩ := p.refresh_cases surface now
      · exact congrArg (fittings ·.state) h
      · exact (congrArg (fittings ·.state) h).trans (p.fittings_composed now)
  | event e now =>
    show (e.apply p surface now).state.fittings = _
    unfold ScriptEvent.apply
    dsimp only
    split
    · exact (fittings_exitPowerSaving _ surface).trans (fittings_quietActions e p now)
    · exact fittings_quietActions e p now

/-- The panels that steps lead to, whatever surfaces they are made on. -/
inductive Reached (envelope : EnvelopeTimings) (overlay : OverlayTimings) (layout : MeterLayout)
    (channels : Nat) : Panel → Prop
  | new : Reached envelope overlay layout channels (.new envelope overlay layout channels)
  | drive {p : Panel} (h : Reached envelope overlay layout channels p) {σ : Type} [Surface σ]
      (surface : σ) (drive : Drive) :
      Reached envelope overlay layout channels (p.drive surface drive).state

/-- A reachable panel has what it was made with. -/
theorem Reached.fittings_eq {envelope : EnvelopeTimings} {overlay : OverlayTimings}
    {layout : MeterLayout} {channels : Nat} {p : Panel}
    (h : Reached envelope overlay layout channels p) :
    p.fittings = ⟨envelope, Tick.ofMillis overlay.displayMs, Tick.ofMillis overlay.frameMs, layout,
      min (max channels 1) 16⟩ := by
  induction h with
  | new => rfl
  | drive _ surface drive ih => exact (fittings_drive _ surface drive).trans ih

end Panel
end MidiPanel
