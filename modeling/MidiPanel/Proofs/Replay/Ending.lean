import MidiPanel.Proofs.Replay.Schedule
import Mathlib.Data.List.TakeWhile
import Mathlib.Data.Nat.Periodic

/-!
# How replays end

A replay that meets no fault is over behind the first frame whose time is at or past the end of the
script. Which one that is depends on the times of frames alone: no event is left at the end of the
script, however often the times have gone back by then.

**Deviation.** The time of a frame is a word. If the first frame at or past the end of the script
is further out than the greatest word, its time is one at the start of the next turn, before the
end of the script: time goes back, and the replay goes on. It may be over in a later turn, and it
may be that no frame of any turn is at or past the end; such a replay never is over.

Results:
* `frameTime_add_turn`: the times of frames come back.
* `step_cases`: what one frame does to the events, whatever its time.
* `run_cases`: how far a run of frames goes.
* `play_over_iff`: when a replay is over, and that it is not always by the frame at its end.
* `play_past_end`: a replay that is over four turns late, and one that never is.
-/

namespace MidiPanel.Replay

/-! ## The times of frames -/

theorem toNat_frameTime_eq_mod (fps frame : Nat) :
    (frameTime fps frame).toNat = frame * 1000 / fps % 2 ^ 32 :=
  UInt32.toNat_ofNat'

theorem frameTime_add_turn {fps : Nat} (hfps : 0 < fps) (frame : Nat) :
    frameTime fps (frame + turn fps) = frameTime fps frame := by
  have hmillis : (frame + turn fps) * 1000 = frame * 1000 + fps * (2 ^ 32 * 1000) := by
    unfold turn UInt32.size
    ring
  rw [← UInt32.toNat_inj, toNat_frameTime_eq_mod, toNat_frameTime_eq_mod, hmillis,
    Nat.add_mul_div_left _ _ hfps, Nat.add_mul_mod_self_left]

/-- A time that no frame of the first turn has is the time of no frame. -/
theorem frameTime_lt_of_turn {fps : Nat} (hfps : 0 < fps) {durationMs : UInt32}
    (h : ∀ frame < turn fps, frameTime fps frame < durationMs) (frame : Nat) :
    frameTime fps frame < durationMs := by
  have hperiod : Function.Periodic (frameTime fps) (turn fps) := frameTime_add_turn hfps
  have hpos : 0 < turn fps := Nat.mul_pos (by decide) hfps
  rw [← hperiod.map_mod_nat frame]
  exact h _ (Nat.mod_lt _ hpos)

/-- The frame is the first one at or past the end. -/
def IsEnd (fps : Nat) (durationMs : UInt32) (frame : Nat) : Prop :=
  durationMs ≤ frameTime fps frame ∧ ∀ earlier < frame, frameTime fps earlier < durationMs

theorem IsEnd.le {fps frame frame' : Nat} {durationMs : UInt32} (h : IsEnd fps durationMs frame)
    (hreached : durationMs ≤ frameTime fps frame') : frame ≤ frame' := by
  by_contra hlt
  exact absurd (h.2 frame' (Nat.not_le.mp hlt)) (UInt32.not_lt.mpr hreached)

/-- Up to the frame at the end the quotients of frame numbers stay below the end. -/
theorem quotient_lt_of_lt_lastFrame {fps frame : Nat} (hfps : 0 < fps) {durationMs : UInt32}
    (h : frame < lastFrame fps durationMs) : frame * 1000 / fps < durationMs.toNat := by
  rw [Nat.div_lt_iff_lt_mul hfps]
  unfold lastFrame at h
  omega

theorem quotient_succ_le {fps : Nat} (hfps : 0 < fps) (frame : Nat) :
    (frame + 1) * 1000 / fps ≤ frame * 1000 / fps + 1000 := by
  have hmul : (frame + 1) * 1000 ≤ frame * 1000 + fps * 1000 := by
    rw [Nat.add_mul]
    exact Nat.add_le_add_left (Nat.mul_le_mul_right 1000 hfps) _
  calc (frame + 1) * 1000 / fps ≤ (frame * 1000 + fps * 1000) / fps := Nat.div_le_div_right hmul
    _ = frame * 1000 / fps + 1000 := Nat.add_mul_div_left _ _ hfps

theorem quotient_lastFrame_le {fps : Nat} (hfps : 0 < fps) (durationMs : UInt32) :
    lastFrame fps durationMs * 1000 / fps ≤ durationMs.toNat + 999 / fps := by
  have hle : lastFrame fps durationMs * 1000 ≤ 999 + durationMs.toNat * fps := by
    unfold lastFrame
    omega
  calc lastFrame fps durationMs * 1000 / fps ≤ (999 + durationMs.toNat * fps) / fps :=
        Nat.div_le_div_right hle
    _ = 999 / fps + durationMs.toNat := Nat.add_mul_div_right _ _ hfps
    _ = durationMs.toNat + 999 / fps := Nat.add_comm _ _

theorem frameTime_lt_of_lt_lastFrame {fps frame : Nat} (hfps : 0 < fps) {durationMs : UInt32}
    (h : frame < lastFrame fps durationMs) : frameTime fps frame < durationMs := by
  have hlt := quotient_lt_of_lt_lastFrame hfps h
  have hfits : frame * 1000 / fps < UInt32.size := Nat.lt_trans hlt durationMs.toNat_lt
  rwa [UInt32.lt_iff_toNat_lt, toNat_frameTime hfits]

section Fits

variable {fps : Nat} (hfps : 0 < fps) {durationMs : UInt32}
  (hend : lastFrame fps durationMs * 1000 / fps < UInt32.size)

include hfps hend

theorem isEnd_lastFrame : IsEnd fps durationMs (lastFrame fps durationMs) :=
  ⟨(le_frameTime_iff hfps hend durationMs).mpr le_rfl,
    fun _ hearlier => frameTime_lt_of_lt_lastFrame hfps hearlier⟩

omit hfps in
theorem frameTime_mono {earlier frame : Nat} (hearlier : earlier ≤ frame)
    (hframe : frame ≤ lastFrame fps durationMs) : frameTime fps earlier ≤ frameTime fps frame := by
  have quotient_le {i j : Nat} (h : i ≤ j) : i * 1000 / fps ≤ j * 1000 / fps :=
    Nat.div_le_div_right (Nat.mul_le_mul_right 1000 h)
  have hfits : frame * 1000 / fps < UInt32.size := Nat.lt_of_le_of_lt (quotient_le hframe) hend
  have hfits' : earlier * 1000 / fps < UInt32.size :=
    Nat.lt_of_le_of_lt (quotient_le hearlier) hfits
  rw [UInt32.le_iff_toNat_le, toNat_frameTime hfits, toNat_frameTime hfits']
  exact quotient_le hearlier

end Fits

/-- A frame at the end that is further out than the greatest word has a time before the end, and
before that of the frame in front of it. -/
theorem frameTime_lastFrame_wraps {fps : Nat} (hfps : 0 < fps) {durationMs : UInt32}
    (hend : UInt32.size ≤ lastFrame fps durationMs * 1000 / fps) :
    0 < lastFrame fps durationMs ∧
      frameTime fps (lastFrame fps durationMs) <
        frameTime fps (lastFrame fps durationMs - 1) ∧
      frameTime fps (lastFrame fps durationMs) < durationMs := by
  have hpos : 0 < lastFrame fps durationMs := by
    rw [Nat.pos_iff_ne_zero]
    intro hzero
    rw [hzero, Nat.zero_mul, Nat.zero_div] at hend
    exact absurd hend (Nat.not_le.mpr (by decide))
  have hbefore := quotient_lt_of_lt_lastFrame hfps (Nat.sub_lt hpos Nat.one_pos)
  have hstep := quotient_succ_le hfps (lastFrame fps durationMs - 1)
  rw [Nat.sub_add_cancel hpos] at hstep
  have hd : durationMs.toNat < 2 ^ 32 := durationMs.toNat_lt
  have hle := quotient_lastFrame_le hfps durationMs
  have hsmall : 999 / fps ≤ 999 := Nat.div_le_self _ _
  rw [UInt32.lt_iff_toNat_lt, UInt32.lt_iff_toNat_lt,
    toNat_frameTime (Nat.lt_trans hbefore hd), toNat_frameTime_eq_mod]
  rw [show UInt32.size = 2 ^ 32 from rfl] at hend
  omega

/-! ## Frames -/

variable {σ : Type} [Surface σ]

/-- Whatever its time, a frame drives the panel. Without a fault it leaves the events that are not
due by then. -/
theorem step_cases (s : State σ) (time : UInt32) :
    ∃ drives,
      (∃ s', step s time = (s', none) ∧
        s'.player.pending = s.player.pending.dropWhile (·.atMs ≤ time) ∧
        s.panel.run s.surface drives = ⟨s'.panel, s'.surface, none⟩) ∨
      ∃ fault, (step s time).2 = some fault ∧
        (s.panel.run s.surface drives).fault = some fault := by
  refine ⟨(s.player.pending.takeWhile (·.atMs ≤ time)).map (Drive.event · (Tick.ofMillis time)) ++
    [.operation (.refresh (Tick.ofMillis time))], ?_⟩
  obtain ⟨hfault, hstep⟩ := step_eq s time
  cases hdriven : (s.panel.run s.surface
    ((s.player.pending.takeWhile (·.atMs ≤ time)).map (Drive.event · (Tick.ofMillis time)) ++
      [.operation (.refresh (Tick.ofMillis time))])).fault with
  | none => exact .inl ⟨_, hstep hdriven, rfl, congrArg (Drawn.mk _ _) hdriven⟩
  | some fault => exact .inr ⟨fault, hfault.trans hdriven, rfl⟩

omit [Surface σ] in
/-- If no event is later than the end, the time alone says whether a replay is over. -/
theorem isOver_of_dropWhile {s : State σ} {events : List ScriptEvent} {time durationMs : UInt32}
    (hpending : s.player.pending = events.dropWhile (·.atMs ≤ time))
    (hlast : ∀ e ∈ events, e.atMs ≤ durationMs) :
    isOver s time durationMs = decide (durationMs ≤ time) := by
  unfold isOver Player.isFinished
  by_cases hend : durationMs ≤ time
  · have hnone : s.player.pending = [] := by
      rw [hpending, List.dropWhile_eq_nil_iff]
      intro e he
      exact decide_eq_true (UInt32.le_trans (hlast e he) hend)
    rw [hnone, decide_eq_true hend]
    rfl
  · rw [decide_eq_false hend, Bool.false_and]

/-- A run of frames goes on as long as their times are before the end, and is over behind the first
one that is not, unless driving the panel ends in a fault. -/
theorem run_cases (fps : Nat) {durationMs : UInt32} (frames frame : Nat) {s : State σ}
    (hlast : ∀ e ∈ s.player.pending, e.atMs ≤ durationMs) :
    (∃ s', run fps durationMs frames frame s = .goesOn s' ∧
        ∀ i < frames, frameTime fps (frame + i) < durationMs) ∨
      (∃ i s', i < frames ∧ run fps durationMs frames frame s = .over (frame + i) s' ∧
        durationMs ≤ frameTime fps (frame + i) ∧
        ∀ j < i, frameTime fps (frame + j) < durationMs) ∨
      ∃ fault drives, run fps durationMs frames frame s = .failed fault ∧
        (s.panel.run s.surface drives).fault = some fault := by
  induction frames generalizing frame s with
  | zero => exact .inl ⟨s, rfl, fun _ hi => absurd hi (Nat.not_lt_zero _)⟩
  | succ frames ih =>
    obtain ⟨drives, ⟨s', hstep, hpending, hdriven⟩ | ⟨fault, hstep, hdriven⟩⟩ :=
      step_cases s (frameTime fps frame)
    · have hover := isOver_of_dropWhile hpending hlast
      rw [run_succ_of_step hstep]
      by_cases hend : durationMs ≤ frameTime fps frame
      · rw [hover, decide_eq_true hend]
        exact .inr (.inl
          ⟨0, s', Nat.succ_pos _, rfl, hend, fun _ hj => absurd hj (Nat.not_lt_zero _)⟩)
      · have hlt : frameTime fps frame < durationMs := UInt32.not_le.mp hend
        rw [hover, decide_eq_false hend, if_neg Bool.false_ne_true]
        -- the frames from the next one on, numbered from this one
        have shift {n : Nat} (h : ∀ j < n, frameTime fps (frame + 1 + j) < durationMs) :
            ∀ j < n + 1, frameTime fps (frame + j) < durationMs := by
          intro j hj
          cases j with
          | zero => exact hlt
          | succ j =>
            rw [← Nat.add_assoc, Nat.add_right_comm]
            exact h j (Nat.lt_of_succ_lt_succ hj)
        have hlast' : ∀ e ∈ s'.player.pending, e.atMs ≤ durationMs := by
          intro e he
          rw [hpending] at he
          exact hlast e (List.dropWhile_subset _ he)
        obtain ⟨s'', hgoes, hbefore⟩ | ⟨i, s'', hi, hrun, hreached, hbefore⟩ |
          ⟨fault, later, hrun, hfault⟩ := ih (frame + 1) hlast'
        · exact .inl ⟨s'', hgoes, shift hbefore⟩
        · rw [Nat.add_right_comm, Nat.add_assoc] at hrun hreached
          exact .inr (.inl ⟨i + 1, s'', Nat.succ_lt_succ hi, hrun, hreached, shift hbefore⟩)
        · refine .inr (.inr ⟨fault, drives ++ later, hrun, ?_⟩)
          rw [Panel.run_append_of_run hdriven]
          exact hfault
    · exact .inr (.inr ⟨fault, drives, run_succ_of_fault hstep durationMs frames, hdriven⟩)

section Start

variable (fps : Nat) {durationMs : UInt32} {s : State σ}
  (hlast : ∀ e ∈ s.player.pending, e.atMs ≤ durationMs)

include hlast

theorem exists_drives_of_failed {frames : Nat} {fault : Fault}
    (h : run fps durationMs frames 0 s = .failed fault) :
    ∃ drives, (s.panel.run s.surface drives).fault = some fault := by
  obtain ⟨s', hgoes, -⟩ | ⟨i, s', -, hover, -⟩ | ⟨fault', drives, hfailed, hfault⟩ :=
    run_cases fps frames 0 hlast
  · cases hgoes.symm.trans h
  · cases hover.symm.trans h
  · cases hfailed.symm.trans h
    exact ⟨drives, hfault⟩

theorem run_ne_failed (hdriven : ∀ drives, (s.panel.run s.surface drives).fault = none)
    (frames : Nat) (fault : Fault) : run fps durationMs frames 0 s ≠ .failed fault := by
  intro hfailed
  obtain ⟨drives, hfault⟩ := exists_drives_of_failed fps hlast hfailed
  cases (hdriven drives).symm.trans hfault

variable {frames : Nat} (hfault : ∀ fault, run fps durationMs frames 0 s ≠ .failed fault)

include hfault

theorem run_goesOn_iff :
    (∃ s', run fps durationMs frames 0 s = .goesOn s') ↔
      ∀ frame < frames, frameTime fps frame < durationMs := by
  obtain ⟨s', hgoes, hbefore⟩ | ⟨i, s', hi, hrun, hreached, -⟩ | ⟨fault, -, hfailed, -⟩ :=
    run_cases fps frames 0 hlast
  · simp only [Nat.zero_add] at hbefore
    exact iff_of_true ⟨s', hgoes⟩ hbefore
  · rw [Nat.zero_add] at hreached
    refine iff_of_false ?_ fun hbefore => absurd (hbefore i hi) (UInt32.not_lt.mpr hreached)
    rintro ⟨s'', hgoes⟩
    cases hrun.symm.trans hgoes
  · exact absurd hfailed (hfault fault)

theorem run_over_iff (frame : Nat) :
    (∃ s', run fps durationMs frames 0 s = .over frame s') ↔
      frame < frames ∧ IsEnd fps durationMs frame := by
  obtain ⟨s', hgoes, hbefore⟩ | ⟨i, s', hi, hrun, hreached, hbefore⟩ | ⟨fault, -, hfailed, -⟩ :=
    run_cases fps frames 0 hlast
  · refine iff_of_false ?_ ?_
    · rintro ⟨s'', hover⟩
      cases hgoes.symm.trans hover
    · rintro ⟨hframe, hend, -⟩
      have hlt := hbefore frame hframe
      rw [Nat.zero_add] at hlt
      exact absurd hlt (UInt32.not_lt.mpr hend)
  · simp only [Nat.zero_add] at hrun hreached hbefore
    have hfirst : IsEnd fps durationMs i := ⟨hreached, hbefore⟩
    constructor
    · rintro ⟨s'', hover⟩
      cases hrun.symm.trans hover
      exact ⟨hi, hfirst⟩
    · rintro ⟨-, hend⟩
      rw [Nat.le_antisymm (hend.le hreached) (hfirst.le hend.1)]
      exact ⟨s', hrun⟩
  · exact absurd hfailed (hfault fault)

end Start

/-- Replays of every script that can be played, with settings that make sense, on any surface. A
replay that meets no fault is over behind the first frame whose time is at or past the end of the
script, and never if there is none. A fault is one that driving the panel ends in: a call that the
surface has refused, or a meter that does not fit in words on a surface that its calls have led to.
If the frame at the end has a word for its time, that frame is the first one, and up to it time does
not go back; which is so unless the end lies within a frame of the greatest word. Otherwise time
goes back at that frame, and the replay goes on past it. -/
theorem play_over_iff {settings : Settings} (hsettings : settings.violation? = none)
    {text : String} {script : Script} (hscript : Script.parse text = .ok script) (surface : σ) :
    let fps := settings.displayInEffect.fpsInEffect
    let durationMs := script.durationMs
    let last := lastFrame fps durationMs
    let panel := panelFor settings surface
    let played := play settings script surface
    ((∀ fault, played ≠ .failed fault) →
      (∀ frame, (∃ s, played = .over frame s) ↔ IsEnd fps durationMs frame) ∧
      ((∃ s, played = .goesOn s) ↔ ∀ frame, frameTime fps frame < durationMs)) ∧
    (∀ frames,
      let ran := run fps durationMs frames 0 ⟨.ofScript script, panel, surface⟩
      ((∀ fault, ran ≠ .failed fault) →
        ((∃ s, ran = .goesOn s) ↔ ∀ frame < frames, frameTime fps frame < durationMs)) ∧
      (∀ fault, ran = .failed fault → ∃ drives,
        let driven := panel.run surface drives
        driven.fault = some fault ∧
          Surface.Ends panel.layout panel.channels surface driven.surface driven.fault) ∧
      (Surface.Willing surface →
        (∀ calls, Meter.FitsOn (Surface.run surface calls).1 panel.layout panel.channels) →
        ∀ fault, ran ≠ .failed fault)) ∧
    (last * 1000 / fps < UInt32.size → IsEnd fps durationMs last ∧
      ∀ frame ≤ last, ∀ earlier ≤ frame, frameTime fps earlier ≤ frameTime fps frame) ∧
    (durationMs.toNat + 999 / fps < UInt32.size → last * 1000 / fps < UInt32.size) ∧
    (UInt32.size ≤ last * 1000 / fps →
      0 < last ∧ frameTime fps last < frameTime fps (last - 1) ∧
        ∀ frame ≤ last, frameTime fps frame < durationMs) := by
  intro fps durationMs last panel played
  have hfps : 0 < fps := Settings.fpsInEffect_pos hsettings
  let start : State σ := ⟨.ofScript script, panel, surface⟩
  have hlast : ∀ e ∈ start.player.pending, e.atMs ≤ durationMs := fun e he =>
    Script.atMs_le_durationMs (Script.firstDefectOf_of_parse hscript) he
  refine ⟨fun hfault => ⟨fun frame => ?_, ?_⟩, fun frames => ?_, ?_, ?_, ?_⟩
  · refine (run_over_iff fps (s := start) hlast hfault frame).trans ?_
    refine ⟨And.right, fun hend => ⟨?_, hend⟩⟩
    -- an end behind the first turn would have been in it
    by_contra hlate
    have hbefore (earlier : Nat) (h : earlier < turn fps) :
        frameTime fps earlier < durationMs :=
      hend.2 earlier (Nat.lt_of_lt_of_le h (Nat.not_lt.mp hlate))
    exact absurd (frameTime_lt_of_turn hfps hbefore frame) (UInt32.not_lt.mpr hend.1)
  · refine (run_goesOn_iff fps (s := start) hlast hfault).trans ?_
    exact ⟨frameTime_lt_of_turn hfps, fun h frame _ => h frame⟩
  · intro ran
    have hends (drives : List Drive) := panel.ends_run surface drives
    rw [Nat.min_eq_left (show panel.channels ≤ 16 from Nat.min_le_right _ _)] at hends
    refine ⟨run_goesOn_iff fps hlast, fun fault hfailed => ?_, fun hsurface hmeter => ?_⟩
    · obtain ⟨drives, hdriven⟩ := exists_drives_of_failed fps hlast hfailed
      exact ⟨drives, hdriven, hends drives⟩
    · exact run_ne_failed fps hlast
        (fun drives => (hends drives).fault_of_willing hsurface hmeter) frames
  · intro hend
    exact ⟨isEnd_lastFrame hfps hend, fun _ hframe _ hearlier =>
      frameTime_mono hend hearlier hframe⟩
  · intro hend
    exact Nat.lt_of_le_of_lt (quotient_lastFrame_le hfps durationMs) hend
  · intro hend
    obtain ⟨hpos, hback, hbefore⟩ := frameTime_lastFrame_wraps hfps hend
    refine ⟨hpos, hback, fun frame hframe => ?_⟩
    rcases Nat.lt_or_eq_of_le hframe with hlt | rfl
    · exact frameTime_lt_of_lt_lastFrame hfps hlt
    · exact hbefore

/-- One frame a second and an end at the greatest word: the times of frames are multiples of eight,
so that none of them is the end, and the replay never is over. -/
theorem play_over_iff_endless :
    let settings : Settings := { Settings.unset with
      display := some { DisplaySettings.unset with kind := some .character, fps := some 1 } }
    let script : Script := ⟨4294967295, [⟨0, none, none, false, some 1, none⟩]⟩
    let lcd : CellPanel := ⟨20, 2, .replicate 2 (.replicate 20 CellPanel.space), true⟩
    settings.violation? = none ∧
      Script.parse "hold_ms: 4294967295\nevents:\n- at_ms: 0\n  image: 1\n" = .ok script ∧
      CellPanel.new 20 2 = .ok lcd ∧ ∃ s, play settings script lcd = .goesOn s := by
  intro settings script lcd
  have hread : Script.parse "hold_ms: 4294967295\nevents:\n- at_ms: 0\n  image: 1\n" =
      .ok script := eq_ok_of_toOption (by decide +kernel)
  have hsettings : settings.violation? = none := rfl
  have hfits : (panelFor settings lcd).FitsCells lcd :=
    fitsCells_panelFor (by decide) (by decide) (by decide) (by decide)
  have hlast : ∀ e ∈ (Player.ofScript script).pending, e.atMs ≤ script.durationMs := fun e he =>
    Script.atMs_le_durationMs (Script.firstDefectOf_of_parse hread) he
  let start : State CellPanel := ⟨.ofScript script, panelFor settings lcd, lcd⟩
  have hfault : ∀ fault, run 1 script.durationMs (turn 1) 0 start ≠ .failed fault :=
    run_ne_failed 1 hlast hfits.fault_run (turn 1)
  obtain ⟨hplay, -⟩ := play_over_iff hsettings hread lcd
  refine ⟨hsettings, hread, rfl, (hplay hfault).2.mpr fun frame => ?_⟩
  have hmillis := toNat_frameTime_eq_mod 1 frame
  have hend : script.durationMs.toNat = 2 ^ 32 - 1 := by decide +kernel
  show frameTime 1 frame < script.durationMs
  rw [UInt32.lt_iff_toNat_lt, hmillis, hend]
  omega

/-- A replay past its end: time goes back at the frame that should be the last, and it takes the
replay four turns to be over, though nothing that drives its panel ends in a fault. -/
theorem play_past_end :
    let settings : Settings :=
      { Settings.unset with
        overlay := some ⟨some 47244640, none⟩
        display := some { DisplaySettings.unset with
          kind := some .character, width := some 1, height := some 1, fps := some 1 } }
    let script : Script :=
      ⟨3268477050, [⟨0, none, none, false, some 1, none⟩,
        ⟨1026490000, none, none, false, some 1, none⟩]⟩
    let lcd : CellPanel := ⟨1, 1, .replicate 1 (.replicate 1 CellPanel.space), true⟩
    settings.violation? = none ∧
      Script.parse ("hold_ms: 3268477050\nevents:\n- at_ms: 0\n  image: 1\n" ++
        "- at_ms: 1026490000\n  image: 1\n") = .ok script ∧
      CellPanel.new 1 1 = .ok lcd ∧
      (∀ drives, ((panelFor settings lcd).run lcd drives).fault = none) ∧
      lastFrame 1 script.durationMs = 4294968 ∧
      frameTime 1 4294968 < frameTime 1 4294967 ∧
      ∃ s, play settings script lcd = .over 17179869 s := by
  intro settings script lcd
  have hread : Script.parse ("hold_ms: 3268477050\nevents:\n- at_ms: 0\n  image: 1\n" ++
      "- at_ms: 1026490000\n  image: 1\n") = .ok script := eq_ok_of_toOption (by decide +kernel)
  have hfits : (panelFor settings lcd).FitsCells lcd :=
    fitsCells_panelFor (by decide) (by decide) (by decide) (by decide)
  have hduration : script.durationMs = 4294967050 := by decide +kernel
  have hlast : ∀ e ∈ (Player.ofScript script).pending, e.atMs ≤ script.durationMs := fun e he =>
    Script.atMs_le_durationMs (Script.firstDefectOf_of_parse hread) he
  have hend : IsEnd 1 script.durationMs 17179869 := by
    rw [hduration]
    refine ⟨by decide +kernel, fun earlier hearlier => ?_⟩
    have hmillis := toNat_frameTime_eq_mod 1 earlier
    rw [UInt32.lt_iff_toNat_lt, hmillis, show (4294967050 : UInt32).toNat = 4294967050 from rfl]
    -- the turn that the frame falls into
    obtain h | h | h | h : earlier * 1000 / 1 / 2 ^ 32 = 0 ∨ earlier * 1000 / 1 / 2 ^ 32 = 1 ∨
        earlier * 1000 / 1 / 2 ^ 32 = 2 ∨ earlier * 1000 / 1 / 2 ^ 32 = 3 := by omega
    all_goals omega
  let start : State CellPanel := ⟨.ofScript script, panelFor settings lcd, lcd⟩
  have hfault : ∀ fault, run 1 script.durationMs (turn 1) 0 start ≠ .failed fault :=
    run_ne_failed 1 hlast hfits.fault_run (turn 1)
  have hover := (run_over_iff 1 hlast hfault 17179869).mpr ⟨by decide, hend⟩
  exact ⟨rfl, hread, rfl, hfits.fault_run, by rw [hduration]; decide, by decide +kernel, hover⟩

end MidiPanel.Replay
