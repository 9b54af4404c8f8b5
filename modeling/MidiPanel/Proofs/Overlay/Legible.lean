import MidiPanel.Proofs.Overlay.MessageText
import MidiPanel.Proofs.Overlay.Request
import MidiPanel.Surface.Recorder

/-!
# What an overlay says, and the dark

The message buffer, the spinner frame and the mode are fields of their own; in every state that can
be reached they fit together. The buffer is ASCII whatever has been asked, and in the modes that
show it, it has the text shown last, or the notice of power saving. A refused call leaves the
machine either as it was or behind a look at its timers, so that it breaks none of this.

Power saving has turned the light off, and nothing but a request turns it on again.

Results:
* `Reached.worded`: the buffer in every mode.
* `ReachedOn.dark`: in power saving the light is off.
* `legible_and_dark`: both, in terms of the text that is shown.
-/

namespace MidiPanel

/-- The buffer that a mode shows when `shown` is the text shown last; none, if it shows no text. -/
def Overlay.buffer? (shown : String) : Overlay → Option MessageBuffer
  | .message => some (.setText shown)
  | .spinner frame _ => some (.setSpinnerText shown (spinnerGlyphs.get frame))
  | .enteringPowerSaving | .inPowerSaving => some (.setText "Power saving mode")
  | .idle | .image _ => none

theorem Overlay.buffer?_of_message {overlay : Overlay} (h : overlay.mode = .message)
    (shown : String) : overlay.buffer? shown = some (.setText shown) := by
  cases overlay with
  | message => rfl
  | _ => cases h

theorem Overlay.buffer?_of_powerSaving {overlay : Overlay}
    (h : overlay.mode = .enteringPowerSaving ∨ overlay.mode = .inPowerSaving) (shown : String) :
    overlay.buffer? shown = some (.setText "Power saving mode") := by
  cases overlay with
  | enteringPowerSaving | inPowerSaving => rfl
  | _ => obtain h | h := h <;> cases h

namespace Status

/-- The buffer is text, and that of the mode. -/
structure Worded (shown : String) (s : Status) : Prop where
  isText : s.message.IsText
  buffer : ∀ buffer ∈ s.overlay.buffer? shown, s.message = buffer

namespace Worded

variable {shown : String} {s : Status}

theorem dismiss (h : Worded shown s) : Worded shown s.dismiss :=
  ⟨h.isText, fun _ hnone => nomatch hnone⟩

theorem raise (h : Worded shown s) (now : Tick) (trigger : Trigger) :
    Worded ((Request.raise trigger now).lastText shown) (s.raise now trigger) := by
  rcases trigger with ⟨text, _ | _⟩ | id | _
  · exact ⟨MessageBuffer.isText_setText text, fun _ hsome => Option.some.inj hsome⟩
  · refine ⟨MessageBuffer.isText_setSpinnerText text ?_, fun _ hsome => Option.some.inj hsome⟩
    exact MessageBuffer.spinnerGlyphs_lt 0
  · exact ⟨h.isText, fun _ hnone => nomatch hnone⟩
  · exact ⟨MessageBuffer.isText_setText _, fun _ hsome => Option.some.inj hsome⟩

/-- Leaving the mode for one with the same buffer, or with none. -/
theorem enter (h : Worded shown s) {overlay : Overlay} (now : Tick)
    (hbuffer : overlay.buffer? shown = none ∨
      overlay.buffer? shown = s.overlay.buffer? shown) : Worded shown (s.enter overlay now) := by
  refine ⟨h.isText, ?_⟩
  intro buffer hmem
  replace hmem : buffer ∈ overlay.buffer? shown := hmem
  obtain hnone | hsame := hbuffer
  · rw [hnone] at hmem
    cases hmem
  · rw [hsame] at hmem
    exact h.buffer buffer hmem

theorem afterTimers (h : Worded shown s) (now : Tick) : Worded shown (s.afterTimers now) := by
  unfold Status.afterTimers
  cases hs : s.overlay with
  | idle | inPowerSaving => exact h
  | message | image =>
    dsimp only
    split
    · exact h.enter now (.inl rfl)
    · exact h
  | enteringPowerSaving =>
    dsimp only
    split
    · exact h.enter now (.inr (by rw [hs]; rfl))
    · exact h
  | spinner frame frameTick =>
    dsimp only
    split
    · exact h.enter now (.inl rfl)
    · split
      · have hmessage : s.message = .setSpinnerText shown (spinnerGlyphs.get frame) :=
          h.buffer _ (by rw [hs]; rfl)
        have hnext : s.message.setGlyph spinnerGlyphs[frame + 1] =
            .setSpinnerText shown (spinnerGlyphs.get (frame + 1)) := by
          rw [hmessage, MessageBuffer.setGlyph_setSpinnerText]
          rfl
        refine ⟨?_, fun _ hsome => hnext.trans (Option.some.inj hsome)⟩
        dsimp only
        rw [hnext]
        exact MessageBuffer.isText_setSpinnerText shown (MessageBuffer.spinnerGlyphs_lt _)
      · exact h

theorem answer (h : Worded shown s) {σ : Type} [Surface σ] (surface : σ) (request : Request) :
    Worded (request.lastText shown) (s.answer surface request).state := by
  cases request with
  | raise trigger now => exact h.raise now trigger
  | dismiss => exact h.dismiss
  | exitPowerSaving =>
    show Worded shown (s.exitPowerSaving surface).state
    obtain hstate | hstate := s.state_exitPowerSaving surface
    · rw [hstate]
      exact h.dismiss
    · rw [hstate]
      exact h
  | update now =>
    show Worded shown (s.update surface now).state
    obtain hstate | hstate := s.state_update surface now
    · rw [hstate]
      exact h.afterTimers now
    · rw [hstate]
      exact h

end Worded

theorem Reached.worded {timings : OverlayTimings} {shown : String} {s : Status}
    (h : Reached timings shown s) : Worded shown s := by
  induction h with
  | new => exact ⟨MessageBuffer.isText_empty, fun _ hnone => nomatch hnone⟩
  | answer _ surface request ih => exact ih.answer surface request

/-! ## Legibility -/

/-- The text of the message, in every mode, when `shown` is the text shown last. -/
structure Legible (shown : String) (s : Status) : Prop where
  whole : s.message.text =
    String.ofList (s.message.cells.map fun code => Char.ofNat code.toNat)
  ascii : ∀ c ∈ s.message.text.toList, c.toNat < 128
  size : s.message.text.utf8ByteSize ≤ 20
  spinner : ∀ frame ∈ s.spinnerFrame?,
    frame.val < 14 ∧ s.message.text = MessageBuffer.spinnerLine shown frame
  message : s.overlay.mode = .message → s.message.text = MessageBuffer.messageLine shown
  powerSaving : s.overlay.mode = .enteringPowerSaving ∨ s.overlay.mode = .inPowerSaving →
    s.message.text = "Power saving mode"

theorem Worded.legible {shown : String} {s : Status} (h : Worded shown s) : Legible shown s where
  whole := h.isText.text_eq
  ascii := fun c hc => h.isText.toNat_lt hc
  size := h.isText.utf8ByteSize_le
  spinner := by
    intro frame hframe
    refine ⟨frame.isLt, ?_⟩
    unfold spinnerFrame? at hframe
    split at hframe
    next frame' frameTick hs =>
      obtain rfl : frame' = frame := Option.some.inj hframe
      rw [h.buffer (.setSpinnerText shown (spinnerGlyphs.get frame')) (by rw [hs]; rfl)]
      exact MessageBuffer.text_setSpinnerText shown frame'
    next => cases hframe
  message := by
    intro hmode
    rw [h.buffer _ (Overlay.buffer?_of_message hmode shown)]
    exact MessageBuffer.text_setText shown
  powerSaving := by
    intro hmode
    rw [h.buffer _ (Overlay.buffer?_of_powerSaving hmode shown), MessageBuffer.text_setText]
    decide +kernel

/-! ## The dark -/

variable {σ : Type} [Surface σ] [Backlit σ]

/-- A request keeps the light off in power saving. -/
theorem dark_answer {s : Status} {surface : σ}
    (h : s.overlay = .inPowerSaving → Backlit.backlight surface = false) (request : Request)
    (hs : (s.answer surface request).state.overlay = .inPowerSaving) :
    Backlit.backlight (s.answer surface request).surface = false := by
  cases request with
  | raise trigger now =>
    have hmode : trigger.mode = .inPowerSaving := by
      rw [← s.mode_raise now trigger]
      exact Overlay.mode_eq_inPowerSaving.mpr hs
    rcases trigger with ⟨text, _ | _⟩ | id | _ <;> cases hmode
  | dismiss => cases hs
  | exitPowerSaving =>
    replace hs : (s.exitPowerSaving surface).state.overlay = .inPowerSaving := hs
    obtain ⟨hstate, -⟩ | ⟨hstate, hlight, -⟩ := s.backlight_exitPowerSaving surface
    · rw [hstate] at hs
      cases hs
    · rw [hstate] at hs
      exact hlight.trans (h hs)
  | update now =>
    replace hs : (s.update surface now).state.overlay = .inPowerSaving := hs
    show Backlit.backlight (s.update surface now).surface = false
    obtain ⟨hstate, hlight⟩ | ⟨hstate, hlight, -⟩ := s.backlight_update surface now
    · rw [hstate, afterTimers_eq_inPowerSaving_iff] at hs
      rw [hlight]
      obtain hsaving | hdark := hs
      · rw [h hsaving, Bool.false_and]
      · rw [hdark, Bool.not_true, Bool.and_false]
    · rw [hstate] at hs
      rw [hlight]
      exact h hs

theorem ReachedOn.dark {timings : OverlayTimings} {s : Status} {surface : σ}
    (h : ReachedOn timings s surface) (hs : s.overlay = .inPowerSaving) :
    Backlit.backlight surface = false := by
  induction h with
  | new => cases hs
  | answer _ request ih => exact dark_answer ih request hs
  | other _ hlight ih => exact hlight.trans (ih hs)

/-- Whatever is asked of an overlay machine, at whatever ticks, on whatever surfaces and with
whatever faults: the message is the whole buffer, ASCII, of twenty bytes at most; a spinner message
has the first 18 characters of the text shown last, padded, a space, and the glyph of its frame; a
plain message has the first twenty; both modes of power saving have their notice. If all of it was
asked on one surface whose light nothing else changes, power saving means that the light is off. -/
theorem legible_and_dark (timings : OverlayTimings) :
    (∀ (shown : String) (s : Status), Reached timings shown s → Legible shown s) ∧
    (∀ (σ : Type) [Surface σ] [Backlit σ] (s : Status) (surface : σ),
      ReachedOn timings s surface → s.overlay.mode = .inPowerSaving →
        Backlit.backlight surface = false) := by
  refine ⟨fun shown s h => h.worded.legible, ?_⟩
  intro σ _ _ s surface h hmode
  exact h.dark (Overlay.mode_eq_inPowerSaving.mp hmode)

/-- A spinner that turns although it cannot be drawn, and a panel that has gone dark. -/
theorem legible_and_dark_refused :
    let refusing : Recorder := ⟨.character, 20, 2, ["print"], #[]⟩
    let spinning := ((new .standard).raise 0 (.message "Größe" true)).update refusing 90000
    let panel : CellPanel := ⟨20, 2, .replicate 2 (.replicate 20 CellPanel.space), true⟩
    let dark := ((new .standard).raise 0 .powerSaving).update panel 3000000
    (Reached .standard "Größe" spinning.state ∧ spinning.fault ≠ none ∧
      spinning.state.message.text = "Gr??e              _") ∧
    (ReachedOn .standard dark.state dark.surface ∧ dark.state.overlay.mode = .inPowerSaving ∧
      Backlit.backlight dark.surface = false) := by
  intro refusing spinning panel dark
  obtain ⟨hlegible, hdark⟩ := legible_and_dark .standard
  have hspinning : Reached .standard "Größe" spinning.state :=
    (Reached.new.answer refusing (.raise (.message "Größe" true) 0)).answer refusing
      (.update 90000)
  have hframe : spinning.state.spinnerFrame? = some 1 := by decide +kernel
  have hline := ((hlegible _ _ hspinning).spinner 1 hframe).2
  have hentered : ReachedOn .standard dark.state dark.surface :=
    ((ReachedOn.new panel).answer (.raise .powerSaving 0)).answer (.update 3000000)
  have hmode : dark.state.overlay.mode = .inPowerSaving := by decide +kernel
  exact ⟨⟨hspinning, by decide +kernel, hline.trans (by decide +kernel)⟩,
    hentered, hmode, hdark _ _ _ hentered hmode⟩

end Status
end MidiPanel
