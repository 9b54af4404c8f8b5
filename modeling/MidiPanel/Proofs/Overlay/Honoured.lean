import MidiPanel.Proofs.Overlay.Lifetime
import MidiPanel.Settings.Basic

/-!
# Times as they are set

The time of an overlay is set in milliseconds and kept in ticks, and the product wraps. A time of at
most 4294967 milliseconds is less than a turn of the counter. No span that a timer reads is longer
than the time that has really passed, so that with such a time no overlay ends and no spinner turns
before it should, however the updates are spaced and whatever surfaces they are made on.

**Deviation.** A longer time wraps to a count of ticks that is too small, and all times but zero are
accepted as settings. Of 4294968 milliseconds, which is more than an hour, 704 microseconds are
left, and of 536870912 nothing at all.

Results:
* `Tick.le_of_le_elapsed`: what a timer reads has really passed.
* `Updates.keeps`, `Updates.spaced`, `Updates.turns_eq_nil`: what a run of updates keeps.
* `keepsOverlays_of_le`, `not_keepsOverlays`, `keepsFrames_of_le`, `not_keepsFrames`: which times
  are honoured.
* `honoured_iff`: the exact condition.
* `times_cut_short`: accepted settings with times that are not honoured.
-/

namespace MidiPanel

namespace Tick

/-- A span that a timer reads has really passed. -/
theorem le_of_le_elapsed {span : Tick} {since now : Nat} (hle : since ≤ now)
    (h : span ≤ elapsed (reading now) (reading since)) : since + span.toNat ≤ now := by
  rw [UInt32.le_iff_toNat_le, toNat_elapsed_reading hle] at h
  have hmod : (now - since) % 2 ^ 32 ≤ now - since := Nat.mod_le _ _
  omega

/-- A span of less than a turn is read as it is. -/
theorem elapsed_reading_add (since : Nat) (span : Tick) :
    elapsed (reading (since + span.toNat)) (reading since) = span := by
  apply UInt32.toNat_inj.mp
  rw [toNat_elapsed_reading (Nat.le_add_right _ _), Nat.add_sub_cancel_left]
  exact Nat.mod_eq_of_lt span.toNat_lt

/-- What a time of a turn or more leaves in ticks is too little. -/
theorem toNat_ofMillis_lt {millis : UInt32} (h : 4294967 < millis.toNat) :
    (ofMillis millis).toNat < millis.toNat * 1000 := by
  have hlt : (ofMillis millis).toNat < 2 ^ 32 := (ofMillis millis).toNat_lt
  omega

end Tick

namespace Status

variable {s : Status} {now : Tick}

/-! ## Spinners -/

theorem frame_succ_ne (frame : Fin 14) : frame + 1 ≠ frame := by
  revert frame
  decide

theorem spinnerFrame?_of_spinner {frame : Fin 14} {frameTick : Tick}
    (h : s.overlay = .spinner frame frameTick) : s.spinnerFrame? = some frame := by
  unfold spinnerFrame?
  rw [h]

theorem spinnerFrame?_of_ne_spinner (h : s.overlay.mode ≠ .spinner) : s.spinnerFrame? = none := by
  unfold spinnerFrame?
  cases hs : s.overlay with
  | spinner frame frameTick => simp [hs, Overlay.mode] at h
  | _ => rfl

/-- No update brings a spinner up. -/
theorem mode_update_ne_spinner (h : s.overlay.mode ≠ .spinner) {σ : Type} [Surface σ] (surface : σ)
    (now : Tick) : (s.update surface now).state.overlay.mode ≠ .spinner := by
  obtain hstate | hstate := s.state_update surface now
  · rw [hstate, mode_afterTimers]
    split
    · cases s.overlay.mode <;> simp [Overlay.Mode.next]
    · exact h
  · rw [hstate]
    exact h

/-- A spinner behind an update: gone, turned, or as it was. -/
theorem update_spinner_cases {frame : Fin 14} {frameTick : Tick}
    (h : s.overlay = .spinner frame frameTick) {σ : Type} [Surface σ] (surface : σ) (now : Tick) :
    (s.update surface now).state.overlay.mode ≠ .spinner ∨
    (s.timedOut now = false ∧ s.frameTicks ≤ Tick.elapsed now frameTick ∧
      (s.update surface now).state.overlay = .spinner (frame + 1) now ∧
      (s.update surface now).state.frameTicks = s.frameTicks) ∨
    (s.update surface now).state = s := by
  obtain hstate | hstate := s.state_update surface now
  · rw [hstate]
    unfold afterTimers
    rw [h]
    dsimp only
    cases htimedOut : s.timedOut now with
    | true =>
      left
      simp [enter, Overlay.mode]
    | false =>
      right
      rw [if_neg Bool.false_ne_true]
      split
      next hturn => exact .inl ⟨rfl, hturn, rfl, rfl⟩
      next => exact .inr rfl
  · exact .inr (.inr hstate)

/-! ## Runs of updates -/

/-- Updates one after the other, each at its time and on a surface of its own, with the states that
they leave behind. -/
inductive Updates : Status → List (Nat × Status) → Prop
  | nil (s : Status) : Updates s []
  | cons (s : Status) {σ : Type} [Surface σ] (surface : σ) (time : Nat)
      {rest : List (Nat × Status)} (h : Updates (s.update surface (Tick.reading time)).state rest) :
      Updates s ((time, (s.update surface (Tick.reading time)).state) :: rest)

/-- The times of a run at which a spinner turns to another frame. -/
def turns (s : Status) : List (Nat × Status) → List Nat
  | [] => []
  | (time, s') :: rest =>
    if s'.spinnerFrame? ≠ none ∧ s'.spinnerFrame? ≠ s.spinnerFrame? then time :: s'.turns rest
    else s'.turns rest

/-- Every overlay that is brought up stays as it is until its time is over. -/
def KeepsOverlays (timings : OverlayTimings) : Prop :=
  ∀ (shown : String) (s : Status), Reached timings shown s →
    ∀ (trigger : Trigger) (start : Nat) (run : List (Nat × Status)),
      Updates (s.raise (Tick.reading start) trigger) run →
      (start :: run.map Prod.fst).Pairwise (· ≤ ·) →
      ∀ step ∈ run, step.1 < start + timings.displayMs.toNat * 1000 →
        step.2.overlay.mode = trigger.mode

/-- No spinner turns before the time of a frame is over, since it was shown or since it has turned
last. -/
def KeepsFrames (timings : OverlayTimings) : Prop :=
  ∀ (shown : String) (s : Status), Reached timings shown s →
    ∀ (text : String) (start : Nat) (run : List (Nat × Status)),
      let raised := s.raise (Tick.reading start) (.message text true)
      Updates raised run →
      (start :: run.map Prod.fst).Pairwise (· ≤ ·) →
      (start :: raised.turns run).IsChain fun earlier later =>
        earlier + timings.frameMs.toNat * 1000 ≤ later

section Turns

variable {s' : Status} (time : Nat) (rest : List (Nat × Status))

theorem turns_cons_self (s : Status) : s.turns ((time, s) :: rest) = s.turns rest := by
  simp [turns]

theorem turns_cons_of_ne_spinner (h : s'.overlay.mode ≠ .spinner) :
    s.turns ((time, s') :: rest) = s'.turns rest := by
  simp [turns, spinnerFrame?_of_ne_spinner h]

theorem turns_cons_of_spinner {frame : Fin 14} {frameTick frameTick' : Tick}
    (hs : s.overlay = .spinner frame frameTick)
    (hs' : s'.overlay = .spinner (frame + 1) frameTick') :
    s.turns ((time, s') :: rest) = time :: s'.turns rest := by
  have hturned : some (frame + 1) ≠ some frame :=
    fun h => frame_succ_ne frame (Option.some.inj h)
  rw [turns, spinnerFrame?_of_spinner hs, spinnerFrame?_of_spinner hs',
    if_pos ⟨Option.some_ne_none _, hturned⟩]

end Turns

namespace Updates

variable {run : List (Nat × Status)}

/-- An overlay stays until the ticks of its time have passed. -/
theorem keeps (h : Updates s run) {start : Nat} (hsince : s.since = Tick.reading start)
    (hordered : (start :: run.map Prod.fst).Pairwise (· ≤ ·)) :
    ∀ step ∈ run, step.1 < start + s.displayTicks.toNat →
      step.2.overlay.mode = s.overlay.mode := by
  induction h with
  | nil s =>
    intro step hstep
    cases hstep
  | cons s surface time hrest ih =>
    rw [List.map_cons, List.pairwise_cons, List.pairwise_cons] at hordered
    obtain ⟨hstart, htime, hlater⟩ := hordered
    have hle : start ≤ time := hstart time List.mem_cons_self
    intro step hstep hbefore
    -- a step before the deadline comes behind updates before the deadline only
    have hnow : time < start + s.displayTicks.toNat := by
      rcases List.mem_cons.mp hstep with rfl | hmem
      · exact hbefore
      · exact Nat.lt_of_le_of_lt (htime _ (List.mem_map_of_mem hmem)) hbefore
    have hnot : s.timedOut (Tick.reading time) = false := by
      apply decide_eq_false
      intro hover
      rw [hsince] at hover
      have := Tick.le_of_le_elapsed hle hover
      omega
    have hsame : (s.update surface (Tick.reading time)).state.overlay.mode = s.overlay.mode ∧
        (s.update surface (Tick.reading time)).state.since = Tick.reading start ∧
        (s.update surface (Tick.reading time)).state.displayTicks = s.displayTicks := by
      obtain hstate | hstate := s.state_update surface (Tick.reading time)
      · rw [hstate, mode_afterTimers, hnot, since_afterTimers hnot]
        exact ⟨rfl, hsince, displayTicks_afterTimers _ _⟩
      · rw [hstate]
        exact ⟨rfl, hsince, rfl⟩
    obtain ⟨hmode, hsince', hticks⟩ := hsame
    rcases List.mem_cons.mp hstep with rfl | hmem
    · exact hmode
    · have hordered' := List.pairwise_cons.mpr
        ⟨fun later hmem => hstart later (List.mem_cons_of_mem time hmem), hlater⟩
      rw [ih hsince' hordered' step hmem (by rw [hticks]; exact hbefore), hmode]

/-- Where no spinner is, none turns. -/
theorem turns_of_ne_spinner (h : Updates s run) (hs : s.overlay.mode ≠ .spinner) :
    s.turns run = [] := by
  induction h with
  | nil s => rfl
  | cons s surface time hrest ih =>
    have hstate := mode_update_ne_spinner hs surface (Tick.reading time)
    rw [turns_cons_of_ne_spinner _ _ hstate]
    exact ih hstate

/-- From one turn of a spinner to the next the ticks of a frame pass. -/
theorem spaced (h : Updates s run) {frame : Fin 14} {shown : Nat}
    (hs : s.overlay = .spinner frame (Tick.reading shown))
    (hordered : (shown :: run.map Prod.fst).Pairwise (· ≤ ·)) :
    (shown :: s.turns run).IsChain fun earlier later =>
      earlier + s.frameTicks.toNat ≤ later := by
  induction h generalizing frame shown with
  | nil s => exact List.isChain_singleton _
  | cons s surface time hrest ih =>
    rw [List.map_cons, List.pairwise_cons] at hordered
    obtain ⟨hshown, hlater⟩ := hordered
    have hle : shown ≤ time := hshown time List.mem_cons_self
    obtain hgone | ⟨-, hturn, hturned, hticks⟩ | hstate :=
      update_spinner_cases hs surface (Tick.reading time)
    · rw [turns_cons_of_ne_spinner _ _ hgone, turns_of_ne_spinner hrest hgone]
      exact List.isChain_singleton _
    · have htail := ih hturned hlater
      rw [hticks] at htail
      rw [turns_cons_of_spinner _ _ hs hturned, List.isChain_cons_cons]
      exact ⟨Tick.le_of_le_elapsed hle hturn, htail⟩
    · have hskipped := List.pairwise_cons.mpr
        ⟨fun later hmem => hshown later (List.mem_cons_of_mem time hmem), hlater.of_cons⟩
      rw [hstate] at ih ⊢
      rw [turns_cons_self]
      exact ih hs hskipped

/-- A spinner whose time is over no later than that of its first frame never turns. -/
theorem turns_eq_nil (h : Updates s run) {frame : Fin 14}
    (hs : s.overlay = .spinner frame s.since) (hticks : s.displayTicks ≤ s.frameTicks) :
    s.turns run = [] := by
  induction h with
  | nil s => rfl
  | cons s surface time hrest ih =>
    obtain hgone | ⟨hnot, hturn, -⟩ | hstate :=
      update_spinner_cases hs surface (Tick.reading time)
    · rw [turns_cons_of_ne_spinner _ _ hgone, turns_of_ne_spinner hrest hgone]
    · have hover : s.timedOut (Tick.reading time) = true :=
        decide_eq_true (UInt32.le_trans hticks hturn)
      exact absurd (hnot.symm.trans hover) Bool.false_ne_true
    · rw [hstate] at ih ⊢
      rw [turns_cons_self]
      exact ih hs hticks

end Updates

/-! ## Which times are honoured -/

variable {timings : OverlayTimings}

theorem keepsOverlays_of_le (h : timings.displayMs.toNat ≤ 4294967) : KeepsOverlays timings := by
  intro shown s hs trigger start run hrun hordered step hstep hbefore
  have hticks : (s.raise (Tick.reading start) trigger).displayTicks.toNat =
      timings.displayMs.toNat * 1000 := by
    rw [displayTicks_raise, hs.ticks.1, Tick.toNat_ofMillis h]
  have hmode := hrun.keeps (since_raise _ _ _) hordered step hstep (by omega)
  rw [hmode, mode_raise]

theorem keepsFrames_of_le (h : timings.frameMs.toNat ≤ 4294967) : KeepsFrames timings := by
  intro shown s hs text start run raised hrun hordered
  have hticks : raised.frameTicks.toNat = timings.frameMs.toNat * 1000 := by
    rw [frameTicks_raise, hs.ticks.2, Tick.toNat_ofMillis h]
  rw [← hticks]
  exact hrun.spaced rfl hordered

/-- A spinner that never turns does not turn too early. -/
theorem keepsFrames_of_display_le (h : Tick.ofMillis timings.displayMs ≤
    Tick.ofMillis timings.frameMs) : KeepsFrames timings := by
  intro shown s hs text start run raised hrun hordered
  have hticks : raised.displayTicks ≤ raised.frameTicks := by
    rw [displayTicks_raise, frameTicks_raise, hs.ticks.1, hs.ticks.2]
    exact h
  have hspinner : raised.overlay = .spinner 0 raised.since := rfl
  rw [hrun.turns_eq_nil hspinner hticks]
  exact List.isChain_singleton _

/-- What an update does where it does not turn the light off. -/
theorem state_update_of_not_goesDark (h : s.goesDark now = false) {σ : Type} [Surface σ]
    (surface : σ) : (s.update surface now).state = s.afterTimers now := by
  unfold update
  rw [h]
  rfl

/-- One update of a fresh overlay, as late as the ticks of a time tell. -/
theorem updates_raise_new (timings : OverlayTimings) (trigger : Trigger)
    (hdark : trigger.mode ≠ .enteringPowerSaving) (span : Tick) :
    let raised := (new timings).raise (Tick.reading 0) trigger
    let now := Tick.reading span.toNat
    Updates raised [(span.toNat, raised.afterTimers now)] ∧
      (0 :: [(span.toNat, raised.afterTimers now)].map Prod.fst).Pairwise (· ≤ ·) := by
  intro raised now
  have hnot : raised.goesDark now = false := by
    rw [Bool.eq_false_iff]
    intro hgoes
    have hmode : raised.overlay.mode = .enteringPowerSaving := by
      rw [(goesDark_iff.mp hgoes).1]
      rfl
    rw [mode_raise] at hmode
    exact hdark hmode
  refine ⟨?_, by simp⟩
  have hrun := Updates.cons raised (⟨.graphical, 128, 32, [], #[]⟩ : Recorder) span.toNat (.nil _)
  rwa [state_update_of_not_goesDark hnot] at hrun

/-- A longer time wraps, and the overlay is gone when what is left of it is over. -/
theorem not_keepsOverlays (h : 4294967 < timings.displayMs.toNat) : ¬KeepsOverlays timings := by
  intro hkeeps
  obtain ⟨hrun, hordered⟩ := updates_raise_new timings (.image 0) (by decide)
    (Tick.ofMillis timings.displayMs)
  have helapsed := Tick.elapsed_reading_add 0 (Tick.ofMillis timings.displayMs)
  rw [Nat.zero_add] at helapsed
  have hover : ((new timings).raise (Tick.reading 0) (.image 0)).timedOut
      (Tick.reading (Tick.ofMillis timings.displayMs).toNat) = true :=
    decide_eq_true (UInt32.le_of_eq helapsed.symm)
  have hmode := hkeeps "" (new timings) .new (.image 0) 0 _ hrun hordered _ List.mem_cons_self
    (by have := Tick.toNat_ofMillis_lt h; omega)
  rw [mode_afterTimers, hover] at hmode
  cases hmode

/-- A longer time of a frame wraps, and the spinner turns when what is left of it is over, unless it
is gone by then. -/
theorem not_keepsFrames (h : 4294967 < timings.frameMs.toNat)
    (hlate : Tick.ofMillis timings.frameMs < Tick.ofMillis timings.displayMs) :
    ¬KeepsFrames timings := by
  intro hkeeps
  let raised := (new timings).raise (Tick.reading 0) (.message "" true)
  let now := Tick.reading (Tick.ofMillis timings.frameMs).toNat
  obtain ⟨hrun, hordered⟩ := updates_raise_new timings (.message "" true) (by decide)
    (Tick.ofMillis timings.frameMs)
  have helapsed : Tick.elapsed now (Tick.reading 0) = Tick.ofMillis timings.frameMs := by
    have h := Tick.elapsed_reading_add 0 (Tick.ofMillis timings.frameMs)
    rwa [Nat.zero_add] at h
  have hnot : ¬ raised.displayTicks ≤ Tick.elapsed now (Tick.reading 0) := by
    rw [helapsed]
    exact UInt32.not_le.mpr hlate
  have hturn : raised.frameTicks ≤ Tick.elapsed now (Tick.reading 0) :=
    UInt32.le_of_eq helapsed.symm
  have hturned : (raised.afterTimers now).overlay = .spinner (0 + 1) now := by
    show (if decide (raised.displayTicks ≤ Tick.elapsed now (Tick.reading 0)) then
      raised.enter .idle now else if raised.frameTicks ≤ Tick.elapsed now (Tick.reading 0) then
      _ else raised).overlay = _
    rw [decide_eq_false hnot, if_neg Bool.false_ne_true, if_pos hturn]
  have hchain := hkeeps "" (new timings) .new "" 0 _ hrun hordered
  rw [turns_cons_of_spinner _ _ (show raised.overlay = .spinner 0 _ from rfl) hturned,
    List.isChain_cons_cons] at hchain
  have hspace := hchain.1
  have hlt := Tick.toNat_ofMillis_lt h
  omega

/-- Settings keep overlays for their time exactly if that is less than a turn of the counter, and
turn spinners in their time exactly if that is, or if the ticks that are left of both times let no
spinner turn at all. -/
theorem honoured_iff (settings : Settings) :
    let timings := settings.overlayTimings
    (KeepsOverlays timings ↔ timings.displayMs.toNat ≤ 4294967) ∧
      (KeepsFrames timings ↔ timings.frameMs.toNat ≤ 4294967 ∨
        Tick.ofMillis timings.displayMs ≤ Tick.ofMillis timings.frameMs) := by
  intro timings
  constructor
  · constructor
    · intro hkeeps
      by_contra hlong
      exact not_keepsOverlays (Nat.lt_of_not_le hlong) hkeeps
    · exact keepsOverlays_of_le
  · constructor
    · intro hkeeps
      by_contra hlong
      rw [not_or] at hlong
      exact not_keepsFrames (Nat.lt_of_not_le hlong.1) (UInt32.not_le.mp hlong.2) hkeeps
    · rintro (hshort | hnever)
      · exact keepsFrames_of_le hshort
      · exact keepsFrames_of_display_le hnever

/-- Settings that are accepted, with times of more than an hour: a message is gone, and a spinner
has turned, 704 microseconds behind their start. -/
theorem times_cut_short :
    let messages : Settings := { Settings.unset with overlay := some ⟨some 4294968, none⟩ }
    let spinners : Settings := { Settings.unset with overlay := some ⟨none, some 4294968⟩ }
    let recorder : Recorder := ⟨.graphical, 128, 32, [], #[]⟩
    messages.violation? = none ∧ spinners.violation? = none ∧
      ¬KeepsOverlays messages.overlayTimings ∧ ¬KeepsFrames spinners.overlayTimings ∧
      (((new messages.overlayTimings).showMessage "Hello" false 0).update recorder
        704).state.overlay = .idle ∧
      (((new spinners.overlayTimings).showMessage "Hello" true 0).update recorder
        704).state.spinnerFrame? = some 1 := by
  intro messages spinners recorder
  refine ⟨rfl, rfl, ?_, ?_, by decide +kernel, by decide +kernel⟩
  · exact not_keepsOverlays (by decide)
  · exact not_keepsFrames (by decide) (by decide)

end Status
end MidiPanel
