import MidiPanel.Proofs.Overlay.Request
import MidiPanel.Proofs.Surface.Willing
import MidiPanel.Proofs.Tick
import Mathlib.Data.List.Chain

/-!
# How long overlays stay

An overlay that is brought up at some time and then only updated stays for the display time,
whatever the spacing of the updates, ends with the first update behind it, and what comes then
stays for good. The tick at which it came up is kept until then; spinner frames have a timer of
their own.

The counter wraps, so that an update that comes a whole turn late cannot be told from one in time.
As long as no gap exceeds a turn less the display time, the first update behind the deadline is
less than a turn behind the start, and the span that the timer reads is the true one.

Results:
* `updates_of_willing`: updates meet no fault on a surface that refuses nothing.
* `timedOut_reading`: the timer in terms of time.
* `OnSchedule.update`, `OnSchedule.updates`: one update, and a run of them.
* `updates_lifetime`: the life of an overlay from any state that can be reached.
-/

namespace MidiPanel

namespace Tick

theorem toNat_ofMillis {millis : UInt32} (h : millis.toNat ≤ 4294967) :
    (ofMillis millis).toNat = millis.toNat * 1000 := by
  have hwrap : (ofMillis millis).toNat = millis.toNat * 1000 % 2 ^ 32 :=
    UInt32.toNat_mul millis 1000
  rw [hwrap]
  exact Nat.mod_eq_of_lt (by omega)

end Tick

namespace Status

/-- What each of several updates leaves behind. -/
def updates {σ : Type} [Surface σ] (s : Status) (surface : σ) : List Tick → List (Drawn Status σ)
  | [] => []
  | now :: rest =>
    let drawn := s.update surface now
    drawn :: drawn.state.updates drawn.surface rest

/-- On a willing surface an update meets no fault. -/
theorem update_of_willing {σ : Type} [Surface σ] {surface : σ} (h : Surface.Willing surface)
    (s : Status) (now : Tick) :
    (s.update surface now).fault = none ∧ Surface.Willing (s.update surface now).surface := by
  obtain ⟨-, hupdate⟩ | ⟨-, dark, hperform, hupdate⟩ | ⟨fault, hperform, -⟩ :=
    s.update_cases surface now
  · rw [hupdate]
    exact ⟨h _, h.run _⟩
  · obtain ⟨dark', hdark, hwilling⟩ := h.perform (.setBacklight false)
    obtain rfl : dark = dark' := Except.ok.inj (hperform.symm.trans hdark)
    rw [hupdate]
    exact ⟨hwilling _, hwilling.run _⟩
  · obtain ⟨dark, hdark, -⟩ := h.perform (.setBacklight false)
    cases hperform.symm.trans hdark

theorem updates_of_willing {σ : Type} [Surface σ] {surface : σ} (h : Surface.Willing surface)
    (s : Status) (ticks : List Tick) : ∀ drawn ∈ s.updates surface ticks, drawn.fault = none := by
  induction ticks generalizing s surface with
  | nil =>
    intro drawn hmem
    cases hmem
  | cons now rest ih =>
    obtain ⟨hfault, hwilling⟩ := update_of_willing h s now
    intro drawn hmem
    rcases List.mem_cons.mp hmem with rfl | hrest
    · exact hfault
    · exact ih hwilling _ drawn hrest

/-- Less than a turn of the counter behind the start, the display time is over when it is. -/
theorem timedOut_reading {s : Status} {start now : Nat} (hsince : s.since = Tick.reading start)
    (hstart : start ≤ now) (hturn : now < start + 2 ^ 32) :
    s.timedOut (Tick.reading now) = decide (start + s.displayTicks.toNat ≤ now) := by
  unfold timedOut
  rw [hsince, decide_eq_decide]
  exact Tick.le_elapsed_reading_iff hstart hturn

/-- An overlay in this mode that came up at `start` for a time of `stay`, as it is at `now`: with
its tick before the deadline, and behind it in the mode that comes next, with the calls on the
light that belong to it. -/
structure OnSchedule {σ : Type} (raised : Overlay.Mode) (start stay now : Nat) (s : Status)
    (t : Traced σ) : Prop where
  start_le : start ≤ now
  displayTicks : s.displayTicks.toNat = stay
  since : now < start + stay → s.since = Tick.reading start
  mode : s.overlay.mode = if now < start + stay then raised else raised.next
  calls : t.backlightCalls = if now < start + stay then [] else raised.lastCalls

namespace OnSchedule

variable {σ : Type} [Surface σ] {raised : Overlay.Mode} {start stay now : Nat} {s : Status}
  {t : Traced σ}

theorem update (h : OnSchedule raised start stay now s t) {later : Nat} (hle : now ≤ later)
    (hgap : later ≤ now + (2 ^ 32 - stay))
    (hfault : (s.update t (Tick.reading later)).fault = none) :
    OnSchedule raised start stay later (s.update t (Tick.reading later)).state
      (s.update t (Tick.reading later)).surface := by
  obtain ⟨hstate, hcalls⟩ := backlightCalls_update hfault
  have hstart : start ≤ later := Nat.le_trans h.start_le hle
  have hstay : stay < 2 ^ 32 := h.displayTicks ▸ s.displayTicks.toNat_lt
  have htimedOut (hbefore : now < start + stay) :
      s.timedOut (Tick.reading later) = decide (start + stay ≤ later) := by
    rw [timedOut_reading (h.since hbefore) hstart (by omega), h.displayTicks]
  -- Before the deadline, at the first update behind it, and from then on.
  rcases Nat.lt_or_ge later (start + stay) with hlater | hlater
  · have hbefore : now < start + stay := by omega
    have hnot : s.timedOut (Tick.reading later) = false := by
      rw [htimedOut hbefore]
      exact decide_eq_false (by omega)
    refine ⟨hstart, ?_, fun _ => ?_, ?_, ?_⟩
    · rw [hstate, displayTicks_afterTimers, h.displayTicks]
    · rw [hstate, since_afterTimers hnot, h.since hbefore]
    · rw [hstate, mode_afterTimers, hnot, if_neg Bool.false_ne_true, h.mode, if_pos hbefore,
        if_pos hlater]
    · rw [hcalls, hnot, if_neg Bool.false_ne_true, h.calls, if_pos hbefore, if_pos hlater]
      rfl
  · have hover : ¬ later < start + stay := by omega
    refine ⟨hstart, ?_, fun hlt => absurd hlt hover, ?_, ?_⟩
    · rw [hstate, displayTicks_afterTimers, h.displayTicks]
    · rw [hstate, mode_afterTimers, h.mode, if_neg hover]
      by_cases hbefore : now < start + stay
      · rw [htimedOut hbefore, decide_eq_true hlater, if_pos rfl, if_pos hbefore]
      · rw [if_neg hbefore, Overlay.Mode.next_next, ite_self]
    · rw [hcalls, h.mode, h.calls, if_neg hover]
      by_cases hbefore : now < start + stay
      · rw [htimedOut hbefore, decide_eq_true hlater, if_pos rfl, if_pos hbefore, if_pos hbefore,
          List.append_nil]
      · rw [if_neg hbefore, if_neg hbefore, Overlay.Mode.lastCalls_next, ite_self, List.nil_append]

theorem updates (h : OnSchedule raised start stay now s t) {times : List Nat}
    (hgaps : (now :: times).IsChain fun now later => now ≤ later ∧ later ≤ now + (2 ^ 32 - stay))
    (hfault : ∀ drawn ∈ s.updates t (times.map Tick.reading), drawn.fault = none) :
    (s.updates t (times.map Tick.reading)).map
        (fun drawn => (drawn.state.overlay.mode, drawn.surface.backlightCalls)) =
      times.map fun time =>
        if time < start + stay then (raised, []) else (raised.next, raised.lastCalls) := by
  induction times generalizing now s t with
  | nil => rfl
  | cons later times ih =>
    obtain ⟨⟨hle, hgap⟩, hrest⟩ := List.isChain_cons_cons.mp hgaps
    have hnext := h.update hle hgap (hfault _ List.mem_cons_self)
    have htail := ih hnext hrest fun drawn hmem => hfault drawn (List.mem_cons_of_mem _ hmem)
    rw [List.map_cons, List.map_cons]
    unfold Status.updates
    rw [List.map_cons, htail, hnext.mode, hnext.calls]
    split <;> rfl

end OnSchedule

theorem onSchedule_raise {σ : Type} {timings : OverlayTimings} {shown : String} {s : Status}
    (hpos : 1 ≤ timings.displayMs.toNat) (hmax : timings.displayMs.toNat ≤ 4294967)
    (h : Reached timings shown s) (trigger : Trigger) (start : Nat) (surface : σ) :
    OnSchedule trigger.mode start (timings.displayMs.toNat * 1000) start
      (s.raise (Tick.reading start) trigger) (⟨surface, []⟩ : Traced σ) := by
  have hnow : start < start + timings.displayMs.toNat * 1000 := by omega
  refine ⟨Nat.le_refl start, ?_, fun _ => since_raise _ _ _, ?_, ?_⟩
  · rw [displayTicks_raise, h.displayTicks, Tick.toNat_ofMillis hmax]
  · rw [mode_raise, if_pos hnow]
  · rw [if_pos hnow]
    rfl

/-- An overlay is brought up at `start`, in any state that can be reached: over nothing, over
another overlay or over itself. No update meets a fault on a surface that refuses nothing. If none
does, every update before the deadline leaves the mode as it is, every update from the deadline on
finds the mode behind it, and the calls on the light until then are those with which the mode ends:
one that turns the light off for power saving, none for all other overlays. -/
theorem updates_lifetime {timings : OverlayTimings} {shown : String} {s : Status}
    (hpos : 1 ≤ timings.displayMs.toNat) (hmax : timings.displayMs.toNat ≤ 4294967)
    (h : Reached timings shown s) (trigger : Trigger) {σ : Type} [Surface σ] (surface : σ)
    (start : Nat) (times : List Nat)
    (hgaps : (start :: times).IsChain fun now later =>
      now ≤ later ∧ later ≤ now + (2 ^ 32 - timings.displayMs.toNat * 1000)) :
    let updates := (s.raise (Tick.reading start) trigger).updates (⟨surface, []⟩ : Traced σ)
      (times.map Tick.reading)
    (Surface.Willing surface → ∀ drawn ∈ updates, drawn.fault = none) ∧
    ((∀ drawn ∈ updates, drawn.fault = none) →
      updates.map (fun drawn => (drawn.state.overlay.mode, drawn.surface.backlightCalls)) =
        times.map fun time =>
          if time < start + timings.displayMs.toNat * 1000 then (trigger.mode, [])
          else (trigger.mode.next, trigger.mode.lastCalls)) := by
  intro updates
  refine ⟨?_, (onSchedule_raise hpos hmax h trigger start surface).updates hgaps⟩
  intro hwilling
  exact updates_of_willing (Traced.willing hwilling) _ _

/-- Power saving is asked for a second time before it has begun; the counter wraps long after it
has. -/
theorem updates_lifetime_twice :
    let recorder : Recorder := ⟨.graphical, 128, 32, [], #[]⟩
    let s := ((new .standard).answer recorder (.raise .powerSaving 0)).state
    ((s.raise (Tick.reading 2000000) .powerSaving).updates (⟨recorder, []⟩ : Traced Recorder)
        ([3000000, 5000000, 4295000000].map Tick.reading)).map
          (fun drawn => (drawn.state.overlay.mode, drawn.surface.backlightCalls)) =
      [(.enteringPowerSaving, []), (.inPowerSaving, [.setBacklight false]),
        (.inPowerSaving, [.setBacklight false])] := by
  intro recorder s
  have hs : Reached .standard "" s := Reached.new.answer recorder (.raise .powerSaving 0)
  have hgaps : (2000000 :: [3000000, 5000000, 4295000000]).IsChain fun now later =>
      now ≤ later ∧ later ≤ now + (2 ^ 32 - OverlayTimings.standard.displayMs.toNat * 1000) := by
    decide +kernel
  obtain ⟨hfault, hlife⟩ := updates_lifetime (by decide) (by decide) hs .powerSaving recorder
    2000000 [3000000, 5000000, 4295000000] hgaps
  exact (hlife (hfault (Recorder.willing rfl))).trans (by decide +kernel)

end Status
end MidiPanel
