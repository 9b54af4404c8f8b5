import MidiPanel.Proofs.Monitor.Range
import MidiPanel.Proofs.Panel.Reached
import MidiPanel.Proofs.Surface.Faulty

/-!
# Frames made again

A frame that fails may already have moved the panel on: overlays have ended, the spinner has turned,
peaks have snapped. Made again at the same tick it moves nothing a second time. A peak that has just
snapped stands at the level that is read again, a spinner that has just turned waits for its next
turn, an overlay that has gone is gone. So a frame that failed, wherever it did, can be made good by
making it again.

Results:
* `query_query`, `afterTimers_afterTimers`, `composed_composed`: what is done twice is done once.
* `refresh_again`: a frame made again behind any pattern of faults.
-/

namespace MidiPanel

open Single

/-! ## Peaks -/

namespace Peak

theorem meet_meet {timings : EnvelopeTimings} (h : timings.Usable) (p : Peak) (level : Single)
    (now : Tick) :
    (p.meet timings level now).2.meet timings level now = p.meet timings level now := by
  unfold meet
  dsimp only
  by_cases hsnap : p.fallen timings now ≤ level
  · have hlevel : level ≤ level := le_self_of_le hsnap
    rw [if_pos hsnap]
    dsimp only
    rw [fallen_at_time h ⟨level, now⟩, if_pos hlevel]
  · rw [if_neg hsnap]
    dsimp only
    rw [if_neg hsnap]

end Peak

namespace Monitor

/-- A query that is made again tells the same and changes nothing. -/
theorem query_query {m : Monitor} (h : m.timings.Usable) (now : Tick) :
    (m.query now).2.query now = m.query now := by
  have hmeet (channel : Channel) :
      ((m.query now).2.peaks[channel]).meet m.timings (m.loudness channel now) now =
        (m.peaks[channel]).meet m.timings (m.loudness channel now) now := by
    have hpeak : (m.query now).2.peaks[channel] =
        ((m.peaks[channel]).meet m.timings (m.loudness channel now) now).2 := by
      simp [query]
    rw [hpeak, Peak.meet_meet h]
  have hmet : (Vector.ofFn fun channel : Channel =>
      ((m.query now).2.peaks[channel]).meet m.timings (m.loudness channel now) now) =
      Vector.ofFn fun channel : Channel =>
        (m.peaks[channel]).meet m.timings (m.loudness channel now) now :=
    congrArg Vector.ofFn (funext hmeet)
  exact congrArg (fun met : Vector (Reading × Peak) 16 =>
    (met.map Prod.fst, { m with peaks := met.map Prod.snd })) hmet

end Monitor

/-! ## Overlays -/

namespace Status

theorem afterTimers_of_still {s : Status} (h : s.overlay = .idle ∨ s.overlay = .inPowerSaving)
    (now : Tick) : s.afterTimers now = s := by
  unfold afterTimers
  obtain h | h := h <;> rw [h]

/-- A spinner that has just turned waits, unless it turns all the time. -/
theorem afterTimers_of_turned {s : Status} {frame : Fin 14} {now : Tick}
    (hs : s.overlay = .spinner frame now) (hover : s.timedOut now = false)
    (h : s.frameTicks ≠ 0) : s.afterTimers now = s := by
  have hwaits : ¬s.frameTicks ≤ Tick.elapsed now now := by
    rw [Tick.elapsed_self]
    intro hle
    exact h (UInt32.le_zero_iff.mp hle)
  simp [afterTimers, hs, hover, hwaits]

/-- Timers that are looked at again have nothing more to do. -/
theorem afterTimers_afterTimers {s : Status} (h : s.frameTicks ≠ 0) (now : Tick) :
    (s.afterTimers now).afterTimers now = s.afterTimers now := by
  cases hs : s.overlay with
  | idle => rw [afterTimers_of_still (.inl hs), afterTimers_of_still (.inl hs)]
  | inPowerSaving => rw [afterTimers_of_still (.inr hs), afterTimers_of_still (.inr hs)]
  | message | image | enteringPowerSaving =>
    cases hover : s.timedOut now with
    | true => exact afterTimers_of_still (by simp [afterTimers, hs, hover, enter]) now
    | false =>
      have hkept : s.afterTimers now = s := by simp [afterTimers, hs, hover]
      rw [hkept, hkept]
  | spinner frame frameTick =>
    cases hover : s.timedOut now with
    | true => exact afterTimers_of_still (by simp [afterTimers, hs, hover, enter]) now
    | false =>
      by_cases hturn : s.frameTicks ≤ Tick.elapsed now frameTick
      · have hturned : s.afterTimers now = { s with
            overlay := .spinner (frame + 1) now
            message := s.message.setGlyph spinnerGlyphs[frame + 1] } := by
          simp [afterTimers, hs, hover, hturn]
        rw [hturned]
        exact afterTimers_of_turned rfl hover h
      · have hkept : s.afterTimers now = s := by simp [afterTimers, hs, hover, hturn]
        rw [hkept, hkept]

/-- A frame goes dark once. -/
theorem goesDark_afterTimers (s : Status) (now : Tick) :
    (s.afterTimers now).goesDark now = false := by
  rw [Bool.eq_false_iff]
  intro hdark
  obtain ⟨hentering, hover⟩ := goesDark_iff.mp hdark
  have hmode := s.mode_afterTimers now
  rw [hentering] at hmode
  cases hs : s.timedOut now with
  | true =>
    rw [if_pos hs] at hmode
    cases hnext : s.overlay <;> rw [hnext] at hmode <;> cases hmode
  | false =>
    have hkept : (s.afterTimers now).timedOut now = s.timedOut now := by
      unfold timedOut
      rw [since_afterTimers hs, displayTicks_afterTimers]
    exact absurd (hs.symm.trans (hkept.symm.trans hover)) Bool.false_ne_true

/-- An update that is made again only draws. -/
theorem update_of_updated {σ : Type} [Surface σ] {s : Status} {surface : σ} {now : Tick}
    (h : s.frameTicks ≠ 0) (hfault : (s.update surface now).fault = none) (surface' : σ) :
    (s.update surface now).state.update surface' now =
      (s.update surface now).state.draw surface' := by
  have hstate : (s.update surface now).state = s.afterTimers now := by
    obtain ⟨-, hupdate⟩ | ⟨-, dark, -, hupdate⟩ | ⟨fault, -, hupdate⟩ :=
      s.update_cases surface now
    · exact congrArg Drawn.state hupdate
    · exact congrArg Drawn.state hupdate
    · rw [hupdate] at hfault
      cases hfault
  rw [hstate, update, goesDark_afterTimers, afterTimers_afterTimers h]
  rfl

end Status

/-! ## Frames -/

namespace Panel

variable {p : Panel} {now : Tick}

theorem composed_composed (henvelope : p.monitor.timings.Usable)
    (hframe : p.status.frameTicks ≠ 0) :
    (p.composed now).composed now = p.composed now := by
  unfold composed
  dsimp only
  rw [Status.afterTimers_afterTimers hframe]
  by_cases hidle : (p.status.afterTimers now).overlay = .idle
  · rw [if_pos hidle, if_pos hidle, Monitor.query_query henvelope]
  · rw [if_neg hidle, if_neg hidle]

theorem openingCalls_composed (p : Panel) (now : Tick) :
    (p.composed now).openingCalls now = [.clear] := by
  have hawake : (p.composed now).status.goesDark now = false := p.status.goesDark_afterTimers now
  unfold openingCalls
  rw [hawake]
  rfl

theorem meterStrokes_composed (henvelope : p.monitor.timings.Usable)
    (hidle : (p.status.afterTimers now).overlay = .idle) (kind : PanelKind) (width : Nat) :
    (p.composed now).meterStrokes kind width now = p.meterStrokes kind width now := by
  unfold meterStrokes composed
  dsimp only
  rw [if_pos hidle, Monitor.query_query henvelope]

theorem bodyCalls_composed (henvelope : p.monitor.timings.Usable) (hframe : p.status.frameTicks ≠ 0)
    (kind : PanelKind) (width height : Nat) :
    (p.composed now).bodyCalls kind width height now = p.bodyCalls kind width height now := by
  have hstatus : (p.composed now).status.afterTimers now = p.status.afterTimers now :=
    Status.afterTimers_afterTimers hframe now
  unfold bodyCalls
  dsimp only
  rw [hstatus]
  exact ite_congr rfl (fun hidle => by rw [meterStrokes_composed henvelope hidle]) fun _ => rfl

theorem bodyFault_composed (henvelope : p.monitor.timings.Usable) (hframe : p.status.frameTicks ≠ 0)
    (kind : PanelKind) (width : Nat) :
    (p.composed now).bodyFault kind width now = p.bodyFault kind width now := by
  have hstatus : (p.composed now).status.afterTimers now = p.status.afterTimers now :=
    Status.afterTimers_afterTimers hframe now
  unfold bodyFault
  rw [hstatus]
  exact ite_congr rfl (fun hidle => by rw [meterStrokes_composed henvelope hidle]) fun _ => rfl

section

variable {σ : Type} [Surface σ]

/-- A frame that is refused in its opening leaves the panel as it was. -/
theorem state_of_refused_opening {surface : σ} {call : Call}
    (hrefused : (Surface.run surface (p.refresh (⟨surface, []⟩ : Traced σ) now).calls).2 ≠ none)
    (hlast : (p.refresh (⟨surface, []⟩ : Traced σ) now).calls.getLast? = some call)
    (hopening : call.isOpening = true) :
    (p.refresh (⟨surface, []⟩ : Traced σ) now).state = p := by
  obtain ⟨ground, fault, -, hrefresh⟩ | ⟨ground, hblank, hrefresh⟩ :=
    p.refresh_cases (⟨surface, []⟩ : Traced σ) now
  · exact congrArg Drawn.state hrefresh
  · cases hframe : (Surface.run ground (p.frameCalls ground now)).2 with
    | none =>
      refine absurd ?_ hrefused
      rw [calls_refresh hblank hframe, Surface.run_append, Traced.run_plain hblank]
      exact (Traced.run_fault ground _).symm.trans hframe
    | some fault =>
      -- The last call is one of those that draw.
      obtain ⟨made, refused, rest, -, hcalls, -, -, hkept⟩ := Traced.exists_of_run_fault hframe
      have hsame : refused = call := by
        have hlast' := hlast
        rw [hrefresh] at hlast'
        unfold compose Drawn.calls at hlast'
        dsimp only at hlast'
        rw [hkept] at hlast'
        simpa using hlast'
      have hmem : refused ∈ p.frameCalls ground now := by
        rw [hcalls]
        simp
      rw [← hsame, isOpening_of_mem_frameCalls hmem] at hopening
      cases hopening

variable [Backlit σ] [Framed σ]

/-- What a frame leaves behind under a plan of faults: what was there before, or what a frame
without a fault would leave, but for what is shown. -/
theorem refresh_faulty (p : Panel) (t : Faulty σ) (now : Tick) :
    let failed := p.refresh t now
    Framed.fixture failed.surface.surface = Framed.fixture t.surface ∧
    ((failed.state = p ∧
        Backlit.backlight failed.surface.surface = Backlit.backlight t.surface) ∨
      (failed.state = p.composed now ∧
        Backlit.backlight failed.surface.surface =
          (Backlit.backlight t.surface && !p.status.goesDark now) ∧
        ∃ ground, Surface.run t.surface (p.openingCalls now) = (ground, none))) := by
  intro failed
  obtain ⟨ground, fault, hopening, hrefresh⟩ | ⟨ground, hopening, hrefresh⟩ := p.refresh_cases t now
  · have hfailed : failed = ⟨p, ground, some fault⟩ := hrefresh
    have hfixture := Faulty.fixture_run t (p.openingCalls now)
    have hlight : Backlit.backlight ground = Backlit.backlight t := by
      simpa using backlight_opening hopening
    rw [hopening] at hfixture
    rw [hfailed]
    exact ⟨hfixture, .inl ⟨rfl, hlight⟩⟩
  · have hfailed : failed = p.compose ground now := hrefresh
    have hfixture := Faulty.fixture_run t (p.openingCalls now)
    have hplain := Faulty.run_surface (congrArg Prod.snd hopening)
    rw [hopening] at hfixture hplain
    rw [hfailed]
    refine ⟨(Faulty.fixture_run ground _).trans hfixture, .inr ⟨rfl, ?_, ground.surface, hplain⟩⟩
    show Backlit.backlight (Surface.run ground (p.frameCalls ground now)).1 = _
    rw [Backlit.run (fun call => isBacklight_of_mem_frameCalls) ground, backlight_opening hopening]
    simp
    rfl

/-- A frame made again behind any plan of faults, against the one frame that meets none. -/
theorem refresh_again_of (henvelope : p.monitor.timings.Usable) (hframe : p.status.frameTicks ≠ 0)
    (lcd : σ) (plan : List (Option Fault)) :
    let failed := p.refresh (⟨lcd, plan⟩ : Faulty σ) now
    let again := failed.state.refresh failed.surface.surface now
    let once := p.refresh lcd now
    (again.fault = none ↔ once.fault = none) ∧
      (once.fault = none → again.state = once.state ∧
        Framed.frame again.surface = Framed.frame once.surface ∧
        Backlit.backlight again.surface = Backlit.backlight once.surface) := by
  intro failed again once
  obtain ⟨hfixture, ⟨hstate, hlight⟩ | ⟨hstate, hlight, ground, hopening⟩⟩ :=
    p.refresh_faulty ⟨lcd, plan⟩ now
  · have hagain : again = p.refresh failed.surface.surface now :=
      congrArg (·.refresh failed.surface.surface now) hstate
    have hiff : again.fault = none ↔ once.fault = none := by
      rw [hagain]
      exact ⟨fun h => (frame_refresh_congr hfixture h).1,
        fun h => (frame_refresh_congr hfixture.symm h).1⟩
    refine ⟨hiff, ?_⟩
    intro honce
    have hdone := hiff.mpr honce
    rw [hagain] at hdone ⊢
    refine ⟨?_, (frame_refresh_congr hfixture.symm honce).2, ?_⟩
    · rw [state_refresh hdone, state_refresh honce]
    · rw [(refresh_effect hdone).2, (refresh_effect honce).2]
      exact congrArg (· && _) hlight
  · have hagain : again = (p.composed now).refresh failed.surface.surface now :=
      congrArg (·.refresh failed.surface.surface now) hstate
    have hblank : (Surface.run failed.surface.surface (p.openingCalls now)).2 = none := by
      rw [(Framed.run_congr hfixture.symm _).1, hopening]
    have hopening' : Surface.run failed.surface.surface ((p.composed now).openingCalls now) =
        ((Surface.run failed.surface.surface ((p.composed now).openingCalls now)).1, none) := by
      refine Prod.ext rfl ?_
      rw [openingCalls_composed]
      exact Surface.run_of_append hblank
    obtain ⟨hsame, hshown⟩ := refresh_congr hfixture.symm hopening hopening'
      (bodyCalls_composed henvelope hframe) (bodyFault_composed henvelope hframe)
    rw [hagain]
    refine ⟨by rw [hsame], ?_⟩
    intro honce
    have hdone := hsame.trans honce
    refine ⟨?_, hshown honce, ?_⟩
    · rw [state_refresh hdone, state_refresh honce, composed_composed henvelope hframe]
    · have hawake : (p.composed now).status.goesDark now = false :=
        p.status.goesDark_afterTimers now
      rw [(refresh_effect hdone).2, (refresh_effect honce).2, hawake, Bool.not_false, Bool.and_true]
      exact hlight

end

/-- A frame that has failed, under whatever plan of faults, is made good by making it again at the
same tick; one whose last call was refused and belongs to its opening has changed nothing in the
panel. Readings and updates at an unchanged tick are the same when they are made again. -/
theorem refresh_again {envelope : EnvelopeTimings} {overlay : OverlayTimings}
    {layout : MeterLayout} {channels : Nat} (h : p.Reached envelope overlay layout channels)
    (henvelope : envelope.Usable) (hframe : Tick.ofMillis overlay.frameMs ≠ 0) (now : Tick) :
    (∀ (σ : Type) [Surface σ] [Backlit σ] [Framed σ] (lcd : σ) (plan : List (Option Fault)),
      let failed := p.refresh (⟨lcd, plan⟩ : Faulty σ) now
      let again := failed.state.refresh failed.surface.surface now
      let once := p.refresh lcd now
      (again.fault = none ↔ once.fault = none) ∧
        (once.fault = none → again.state = once.state ∧
          Framed.frame again.surface = Framed.frame once.surface ∧
          Backlit.backlight again.surface = Backlit.backlight once.surface)) ∧
    (∀ (σ : Type) [Surface σ] (surface : σ) (call : Call),
      let drawn := p.refresh (⟨surface, []⟩ : Traced σ) now
      (Surface.run surface drawn.calls).2 ≠ none → drawn.calls.getLast? = some call →
        call = .clear ∨ call.isBacklight = true → drawn.state = p) ∧
    (p.monitor.query now).2.query now = p.monitor.query now ∧
    ∀ (σ : Type) [Surface σ] (surface surface' : σ),
      let drawn := p.status.update surface now
      drawn.fault = none → drawn.state.update surface' now = drawn.state.draw surface' := by
  have hfittings := h.fittings_eq
  have hp : p.monitor.timings.Usable := by
    rw [show p.monitor.timings = envelope from congrArg Fittings.timings hfittings]
    exact henvelope
  have hframe' : p.status.frameTicks ≠ 0 := by
    rw [show p.status.frameTicks = _ from congrArg Fittings.frameTicks hfittings]
    exact hframe
  refine ⟨?_, ?_, Monitor.query_query hp now, ?_⟩
  · intro σ _ _ _ lcd plan
    exact refresh_again_of hp hframe' lcd plan
  · intro σ _ surface call drawn hrefused hlast hcall
    refine state_of_refused_opening hrefused hlast ?_
    obtain rfl | hcall := hcall
    · rfl
    · cases call <;> first | rfl | cases hcall
  · intro σ _ surface surface' drawn hfault
    exact Status.update_of_updated hframe' hfault surface'

/-- A panel that falls asleep in a frame whose first line of text is refused. -/
theorem refresh_again_asleep :
    let lcd : CellPanel := ⟨20, 2, .replicate 2 (.replicate 20 CellPanel.space), true⟩
    let p := ((forSurface lcd).drive lcd (.operation (.enterPowerSaving 0))).state
    let failed := p.refresh (⟨lcd, [none, none, some .unsupported]⟩ : Faulty CellPanel) 3000000
    let again := failed.state.refresh failed.surface.surface 3000000
    let once := p.refresh lcd 3000000
    failed.fault = some .unsupported ∧ failed.state ≠ p ∧ again.fault = none ∧
      again.state = once.state ∧ Framed.frame again.surface = Framed.frame once.surface ∧
      Backlit.backlight again.surface = Backlit.backlight once.surface := by
  intro lcd p failed again once
  have hreached : p.Reached .standard .standard (.forSurface lcd) 16 := .drive .new lcd _
  have hframe : Tick.ofMillis OverlayTimings.standard.frameMs ≠ 0 := by decide
  have hfailed : failed.fault = some .unsupported ∧ failed.state ≠ p := by decide +kernel
  have honce : once.fault = none := by decide +kernel
  -- From here on the panel must not be computed.
  clear_value p
  obtain ⟨hiff, hsame⟩ := (refresh_again hreached EnvelopeTimings.standard_usable hframe
    3000000).1 CellPanel lcd [none, none, some .unsupported]
  exact ⟨hfailed.1, hfailed.2, hiff.mpr honce, hsame honce⟩

end Panel
end MidiPanel
