import MidiPanel.Proofs.Panel.Faults
import MidiPanel.Proofs.Replay.Timing
import MidiPanel.Proofs.Script.Progress

/-!
# The schedule of a replay

A replay drives the panel by a list that can be told from the script and the frame rate alone. Each
frame is its events in the order of the script, then a refresh, all at the tick of the frame. Unless
one of these steps ends in a fault, the replay ends behind the first frame at or past the end of the
script; no event is left then, since each one falls into that frame or an earlier one.

**Deviation.** Accepted settings may ask for gaps between bars that no word of 32 bits holds
together with a bar. A replay that shows such a meter is given up in an overflow, though no call is
refused.

Results:
* `step_eq`: a frame is driven by its events and a refresh.
* `step_stateAt`: what one frame does.
* `run_stateAt`: what a run of frames does.
* `play_schedule`: the whole replay.
* `play_overflows`: accepted settings under which a replay is given up.
-/

namespace MidiPanel

/-- The step is a refresh. -/
def Drive.isRefresh : Drive → Bool
  | .operation (.refresh _) => true
  | _ => false

/-! ## Frames -/

/-- An advance drives the panel by the events that are due, and ends in a fault if one of them
does. -/
theorem Player.advanceFrom_eq {σ : Type} [Surface σ] (elapsedMs : UInt32) (now : Tick) (p : Panel)
    (surface : σ) (ran : Nat) (events : List ScriptEvent) :
    let due := events.takeWhile (·.atMs ≤ elapsedMs)
    let driven := p.run surface (due.map (Drive.event · now))
    let advanced := advanceFrom elapsedMs now p surface ran events
    advanced.fault = driven.fault ∧
      (driven.fault = none → advanced = ⟨⟨events.dropWhile (·.atMs ≤ elapsedMs)⟩, driven.state,
        driven.surface, none, ran + due.length⟩) := by
  induction events generalizing p surface ran with
  | nil => exact ⟨rfl, fun _ => rfl⟩
  | cons e events ih =>
    rcases event_cases e elapsedMs now p surface with
      hearly | ⟨hdue, q, ground, happly⟩ | ⟨hdue, q, ground, fault, happly⟩
    · have hnot : ¬e.atMs ≤ elapsedMs := UInt32.not_le.mpr hearly
      rw [advanceFrom_of_early events ran hearly]
      simp [hnot]
    · rw [advanceFrom_of_apply events ran hdue happly]
      simp only [List.takeWhile_cons, List.dropWhile_cons, hdue, decide_true, if_true,
        List.map_cons, List.length_cons]
      rw [Panel.run_cons_of_drive (show p.drive surface (.event e now) = _ from happly),
        Nat.add_comm (List.length _) 1, ← Nat.add_assoc]
      exact ih q ground (ran + 1)
    · rw [advanceFrom_of_fault events ran hdue happly]
      simp only [List.takeWhile_cons, hdue, decide_true, if_true, List.map_cons]
      rw [Panel.run_cons_of_fault (show p.drive surface (.event e now) = _ from happly)]
      exact ⟨rfl, fun hnone => absurd hnone (Option.some_ne_none fault)⟩

namespace Replay

/-- A frame drives the panel by the events that are due and by a refresh, and ends in a fault if one
of them does. -/
theorem step_eq {σ : Type} [Surface σ] (s : State σ) (time : UInt32) :
    let now := Tick.ofMillis time
    let due := s.player.pending.takeWhile (·.atMs ≤ time)
    let driven := s.panel.run s.surface (due.map (Drive.event · now) ++ [.operation (.refresh now)])
    (step s time).2 = driven.fault ∧
      (driven.fault = none → step s time =
        (⟨⟨s.player.pending.dropWhile (·.atMs ≤ time)⟩, driven.state, driven.surface⟩, none)) := by
  intro now due driven
  obtain ⟨hfault, hadvance⟩ :=
    Player.advanceFrom_eq time now s.panel s.surface 0 s.player.pending
  obtain ⟨q, ground, fault, hevents⟩ : ∃ q ground fault,
    s.panel.run s.surface (due.map (Drive.event · now)) = ⟨q, ground, fault⟩ := ⟨_, _, _, rfl⟩
  rw [hevents] at hfault hadvance
  cases fault with
  | some fault =>
    have hdriven : driven = ⟨q, ground, some fault⟩ := Panel.run_append_of_fault hevents _
    have hstep : (step s time).2 = some fault := by
      unfold step Player.advance
      dsimp only
      rw [hfault]
    rw [hdriven]
    exact ⟨hstep, fun hnone => absurd hnone (Option.some_ne_none fault)⟩
  | none =>
    have hdriven : driven = q.refresh ground now := Panel.run_append_of_run hevents _
    have hstep : step s time = (⟨⟨s.player.pending.dropWhile (·.atMs ≤ time)⟩,
        (q.refresh ground now).state, (q.refresh ground now).surface⟩,
        (q.refresh ground now).fault) := by
      unfold step Player.advance
      dsimp only
      rw [hadvance rfl]
    rw [hdriven, hstep]
    exact ⟨rfl, fun hnone => by rw [hnone]⟩

/-- The steps of a frame: its events, then a refresh. -/
def drivesIn (fps : Nat) (events : List ScriptEvent) (frame : Nat) : List Drive :=
  let now := Tick.ofMillis (frameTime fps frame)
  (dueIn fps events frame).map (Drive.event · now) ++ [.operation (.refresh now)]

/-- The steps of the first `frames` frames. -/
def drivesBefore (fps : Nat) (events : List ScriptEvent) (frames : Nat) : List Drive :=
  (List.range frames).flatMap (drivesIn fps events)

theorem drivesBefore_succ (fps : Nat) (events : List ScriptEvent) (frames : Nat) :
    drivesBefore fps events (frames + 1) =
      drivesBefore fps events frames ++ drivesIn fps events frames := by
  unfold drivesBefore
  rw [List.range_succ, List.flatMap_append, List.flatMap_singleton]

/-- Every frame is refreshed once. -/
theorem countP_isRefresh (fps : Nat) (events : List ScriptEvent) (frames : Nat) :
    (drivesBefore fps events frames).countP Drive.isRefresh = frames := by
  have hevents (due : List ScriptEvent) (now : Tick) :
      (due.map (Drive.event · now)).countP Drive.isRefresh = 0 := by
    rw [List.countP_eq_zero]
    intro drive hdrive
    obtain ⟨e, -, rfl⟩ := List.mem_map.mp hdrive
    exact Bool.false_ne_true
  induction frames with
  | zero => rfl
  | succ frames ih =>
    rw [drivesBefore_succ, List.countP_append, ih, drivesIn, List.countP_append, hevents]
    rfl

variable {σ : Type} [Surface σ]

/-- The replay behind the first `frames` frames: driven by their steps, with the events of later
frames pending. -/
def stateAt (fps : Nat) (events : List ScriptEvent) (p : Panel) (surface : σ) (frames : Nat) :
    State σ :=
  let drawn := p.run surface (drivesBefore fps events frames)
  ⟨⟨pendingIn fps events frames⟩, drawn.state, drawn.surface⟩

/-- A fault in the first frames ends all longer replays. -/
theorem fault_drivesBefore_of_le {fps : Nat} {events : List ScriptEvent} {p : Panel} {surface : σ}
    {frames later : Nat} (hle : frames ≤ later) {fault : Fault}
    (h : (p.run surface (drivesBefore fps events frames)).fault = some fault) :
    (p.run surface (drivesBefore fps events later)).fault = some fault := by
  obtain ⟨more, rfl⟩ := Nat.exists_eq_add_of_le hle
  induction more with
  | zero => exact h
  | succ more ih =>
    rw [← Nat.add_assoc, drivesBefore_succ,
      Panel.run_append_of_fault (congrArg (Drawn.mk _ _) (ih (Nat.le_add_right _ _)))]

/-- A frame that ends in a fault ends the run. -/
theorem run_succ_of_fault {fps frame : Nat} {s : State σ} {fault : Fault}
    (h : (step s (frameTime fps frame)).2 = some fault) (durationMs : UInt32) (frames : Nat) :
    run fps durationMs (frames + 1) frame s = .failed fault := by
  obtain ⟨s', hstep⟩ : ∃ s', step s (frameTime fps frame) = (s', some fault) := ⟨_, Prod.ext rfl h⟩
  unfold run
  dsimp only
  rw [hstep]

/-- Behind a frame without a fault the run is over, or goes on with the next frame. -/
theorem run_succ_of_step {fps frame : Nat} {s s' : State σ}
    (h : step s (frameTime fps frame) = (s', none)) (durationMs : UInt32) (frames : Nat) :
    run fps durationMs (frames + 1) frame s =
      if isOver s' (frameTime fps frame) durationMs then .over frame s'
      else run fps durationMs frames (frame + 1) s' := by
  conv_lhs => unfold run
  dsimp only
  rw [h]

section

variable {fps : Nat} (hfps : 0 < fps) {events : List ScriptEvent}
  (hsorted : events.Pairwise (·.atMs ≤ ·.atMs)) {surface : σ} (p : Panel)

include hfps hsorted

/-- One frame behind others without a fault: its events run and it is refreshed. -/
theorem step_stateAt {frame : Nat} (hframe : frame * 1000 / fps < UInt32.size)
    (hbefore : (p.run surface (drivesBefore fps events frame)).fault = none) :
    let driven := p.run surface (drivesBefore fps events (frame + 1))
    let stepped := step (stateAt fps events p surface frame) (frameTime fps frame)
    stepped.2 = driven.fault ∧
      (driven.fault = none → stepped = (stateAt fps events p surface (frame + 1), none)) := by
  have hdue : (fun e : ScriptEvent => decide (e.atMs ≤ frameTime fps frame)) =
      fun e => decide (frameOf fps e ≤ frame) := by
    funext e
    rw [decide_eq_decide]
    exact le_frameTime_iff hfps hframe e.atMs
  obtain ⟨hevents, hpending⟩ := pendingIn_split fps hsorted frame
  obtain ⟨q, ground, hrun⟩ : ∃ q ground,
    p.run surface (drivesBefore fps events frame) = ⟨q, ground, none⟩ :=
      ⟨_, _, congrArg (Drawn.mk _ _) hbefore⟩
  have hstate : stateAt fps events p surface frame = ⟨⟨pendingIn fps events frame⟩, q, ground⟩ := by
    unfold stateAt
    rw [hrun]
  have hstep := step_eq ⟨⟨pendingIn fps events frame⟩, q, ground⟩ (frameTime fps frame)
  dsimp only at hstep
  rw [hdue, hevents, hpending] at hstep
  rw [hstate]
  unfold stateAt
  rw [drivesBefore_succ, Panel.run_append_of_run hrun]
  exact hstep

/-- A run of frames behind others without a fault. If it meets none either, it goes on up to the
frame at the end and is over behind that one; otherwise it fails. -/
theorem run_stateAt {durationMs : UInt32} (hlast : ∀ e ∈ events, e.atMs ≤ durationMs)
    (hend : lastFrame fps durationMs * 1000 / fps < UInt32.size) (frames frame : Nat)
    (hframe : frame ≤ lastFrame fps durationMs)
    (hbefore : (p.run surface (drivesBefore fps events frame)).fault = none) :
    let last := lastFrame fps durationMs
    let driven := p.run surface (drivesBefore fps events (min (frame + frames) (last + 1)))
    let ran := run fps durationMs frames frame (stateAt fps events p surface frame)
    (driven.fault = none → ran =
      if frame + frames ≤ last then .goesOn (stateAt fps events p surface (frame + frames))
      else .over last (stateAt fps events p surface (last + 1))) ∧
    ∀ fault, driven.fault = some fault → ran = .failed fault := by
  induction frames generalizing frame with
  | zero =>
    intro last driven ran
    have hdriven : driven.fault = none := by
      show (p.run surface (drivesBefore fps events (min (frame + 0) (last + 1)))).fault = none
      rw [Nat.add_zero, Nat.min_eq_left (Nat.le_succ_of_le hframe)]
      exact hbefore
    refine ⟨fun _ => ?_, fun fault hfault => ?_⟩
    · rw [Nat.add_zero, if_pos hframe]
      rfl
    · cases hdriven.symm.trans hfault
  | succ frames ih =>
    intro last driven ran
    have hfits : frame * 1000 / fps < UInt32.size :=
      Nat.lt_of_le_of_lt (Nat.div_le_div_right (Nat.mul_le_mul_right 1000 hframe)) hend
    have hover := le_frameTime_iff hfps hfits durationMs
    obtain ⟨hfault, hstep⟩ := step_stateAt hfps hsorted p hfits hbefore
    cases hnext : (p.run surface (drivesBefore fps events (frame + 1))).fault with
    | some fault =>
      have hdriven : driven.fault = some fault := fault_drivesBefore_of_le (by omega) hnext
      refine ⟨fun hnone => (by cases hnone.symm.trans hdriven), fun fault' hfault' => ?_⟩
      obtain rfl : fault = fault' := Option.some_inj.mp (hdriven.symm.trans hfault')
      exact run_succ_of_fault (hfault.trans hnext) durationMs frames
    | none =>
      have hran : ran = if isOver (stateAt fps events p surface (frame + 1)) (frameTime fps frame)
          durationMs then .over frame (stateAt fps events p surface (frame + 1))
        else run fps durationMs frames (frame + 1) (stateAt fps events p surface (frame + 1)) :=
          run_succ_of_step (hstep hnext) durationMs frames
      rw [hran]
      rcases Nat.lt_or_eq_of_le hframe with hlt | rfl
      · have hgoes : isOver (stateAt fps events p surface (frame + 1)) (frameTime fps frame)
            durationMs = false := by
          unfold isOver
          rw [decide_eq_false (by rw [hover]; omega), Bool.false_and]
        have hrest := ih (frame + 1) hlt hnext
        rw [show frame + 1 + frames = frame + (frames + 1) by omega] at hrest
        rw [hgoes, if_neg Bool.false_ne_true]
        exact hrest
      · have hdone : isOver (stateAt fps events p surface (lastFrame fps durationMs + 1))
            (frameTime fps (lastFrame fps durationMs)) durationMs = true := by
          unfold isOver stateAt Player.isFinished
          rw [decide_eq_true (hover.mpr le_rfl), pendingIn_eq_nil hlast]
          rfl
        have hdriven : driven.fault = none := by
          show (p.run surface (drivesBefore fps events
            (min (last + (frames + 1)) (last + 1)))).fault = none
          rw [Nat.min_eq_right (by omega)]
          exact hnext
        rw [hdone, if_pos rfl, if_neg (by omega)]
        refine ⟨fun _ => rfl, fun fault hfault => ?_⟩
        cases hdriven.symm.trans hfault

end

/-- Nothing ends a replay on a character panel on which the margin and one gap behind the panel fit
in words. -/
theorem fitsCells_panelFor {settings : Settings} {lcd : CellPanel} (hcolumns : 0 < lcd.columns)
    (hrows : lcd.rows ≤ 2 ^ 24)
    (hmargin : (panelFor settings lcd).layout.xOffset < UInt32.size)
    (hgap : lcd.columns + (panelFor settings lcd).layout.barSpacing < UInt32.size) :
    (panelFor settings lcd).FitsCells lcd := by
  have heighths : lcd.rows * 8 < UInt32.size := by
    rw [show UInt32.size = 2 ^ 32 from rfl]
    omega
  exact ⟨hcolumns, hrows, rfl, rfl, Meter.cellsFit_of_gap heighths hgap hcolumns hmargin⟩

/-- A fault in the first frame ends a replay. -/
theorem play_of_fault {settings : Settings} (hsettings : settings.violation? = none)
    {script : Script} {surface : σ} {fault : Fault}
    (h : (step ⟨.ofScript script, panelFor settings surface, surface⟩
      (frameTime settings.displayInEffect.fpsInEffect 0)).2 = some fault) :
    play settings script surface = .failed fault := by
  have hturn : 0 < turn settings.displayInEffect.fpsInEffect :=
    Nat.mul_pos (by decide) (Settings.fpsInEffect_pos hsettings)
  show run _ script.durationMs (turn settings.displayInEffect.fpsInEffect) 0 _ = _
  rw [← Nat.sub_add_cancel hturn]
  exact run_succ_of_fault h _ _

/-- Replays of every script that can be played, with settings that make sense, as long as the time
of the last frame is a word. A replay is driven frame by frame, each event in its own one and before
the refresh. Without a fault it is over behind the first frame at or past the end of the script and
goes on before; all events have run then. With a fault it fails, for a call that the surface has
refused, or for a meter that does not fit in words on a surface that its calls have led to. So
nothing ends it early on a surface that refuses nothing and that the meter fits on. -/
theorem play_schedule {settings : Settings} (hsettings : settings.violation? = none)
    {text : String} {script : Script} (hscript : Script.parse text = .ok script) (surface : σ)
    (hend : lastFrame settings.displayInEffect.fpsInEffect script.durationMs * 1000 /
      settings.displayInEffect.fpsInEffect < UInt32.size) :
    let fps := settings.displayInEffect.fpsInEffect
    let last := lastFrame fps script.durationMs
    let panel := panelFor settings surface
    let driven := panel.run surface (drivesBefore fps script.events (last + 1))
    let behind (frames : Nat) : State σ := stateAt fps script.events panel surface frames
    (driven.fault = none →
      play settings script surface = .over last (behind (last + 1)) ∧
      ∀ frames, run fps script.durationMs frames 0 ⟨.ofScript script, panel, surface⟩ =
        if frames ≤ last then .goesOn (behind frames) else .over last (behind (last + 1))) ∧
    (∀ fault, driven.fault = some fault → play settings script surface = .failed fault) ∧
    Surface.Ends panel.layout panel.channels surface driven.surface driven.fault ∧
    (Surface.Willing surface →
      (∀ calls, Meter.FitsOn (Surface.run surface calls).1 panel.layout panel.channels) →
      driven.fault = none) ∧
    (drivesBefore fps script.events (last + 1)).countP Drive.isRefresh = last + 1 ∧
    (∀ frame ≤ last, (frameTime fps frame).toNat = frame * 1000 / fps) ∧
    (List.range (last + 1)).flatMap (dueIn fps script.events) = script.events ∧
    (behind (last + 1)).player.pending = [] := by
  intro fps last panel driven behind
  have hfps : 0 < fps := Settings.fpsInEffect_pos hsettings
  have hdefect := Script.firstDefectOf_of_parse hscript
  have hsorted := Script.pairwise_atMs hdefect
  have hlast : ∀ e ∈ script.events, e.atMs ≤ script.durationMs :=
    fun e he => Script.atMs_le_durationMs hdefect he
  have hstart : behind 0 = ⟨.ofScript script, panel, surface⟩ := by
    have hall : pendingIn fps script.events 0 = script.events := flatMap_dueIn fps hsorted 0
    show State.mk ⟨pendingIn fps script.events 0⟩ panel surface = _
    rw [hall]
    rfl
  have hnothing : (panel.run surface (drivesBefore fps script.events 0)).fault = none := rfl
  have hrun (frames : Nat) :=
    run_stateAt hfps hsorted panel hlast hend frames 0 (Nat.zero_le _) hnothing
  simp only [Nat.zero_add, show stateAt fps script.events panel surface 0 = _ from hstart] at hrun
  have hturn : min (turn fps) (last + 1) = last + 1 := Nat.min_eq_right (lt_turn hfps hend)
  have hends := panel.ends_run surface (drivesBefore fps script.events (last + 1))
  rw [Nat.min_eq_left (show panel.channels ≤ 16 from Nat.min_le_right _ _)] at hends
  have hnone : pendingIn fps script.events (last + 1) = [] := pendingIn_eq_nil hlast
  refine ⟨fun hfault => ?_, fun fault hfault => ?_, hends, hends.fault_of_willing,
    countP_isRefresh fps script.events (last + 1), ?_, ?_, hnone⟩
  · have hrun (frames : Nat) :
        run fps script.durationMs frames 0 ⟨.ofScript script, panel, surface⟩ =
          if frames ≤ last then .goesOn (behind frames) else .over last (behind (last + 1)) := by
      refine (hrun frames).1 ?_
      -- a fault on the way would be one at the end
      refine Option.eq_none_iff_forall_ne_some.mpr fun fault hbefore => ?_
      cases hfault.symm.trans (fault_drivesBefore_of_le (Nat.min_le_right _ _) hbefore)
    exact ⟨(hrun (turn fps)).trans (if_neg (Nat.not_le.mpr (lt_turn hfps hend))), hrun⟩
  · refine (hrun (turn fps)).2 fault ?_
    rw [hturn]
    exact hfault
  · intro frame hframe
    refine toNat_frameTime (Nat.lt_of_le_of_lt ?_ hend)
    exact Nat.div_le_div_right (Nat.mul_le_mul_right 1000 hframe)
  · have hall := flatMap_dueIn fps hsorted (last + 1)
    rw [hnone, List.append_nil] at hall
    exact hall

/-- Two events at thirty frames a second, and a hold behind them, on a character panel: three
frames. -/
theorem play_schedule_two :
    let settings : Settings := { Settings.unset with
      display := some { DisplaySettings.unset with kind := some .character } }
    let text := "hold_ms: 10\nevents:\n- at_ms: 5\n  image: 1\n- at_ms: 40\n  clear_spinner: true\n"
    let script : Script :=
      ⟨10, [⟨5, none, none, false, some 1, none⟩, ⟨40, none, none, true, none, none⟩]⟩
    let lcd : CellPanel := ⟨20, 2, .replicate 2 (.replicate 20 CellPanel.space), true⟩
    settings.violation? = none ∧ Script.parse text = .ok script ∧ CellPanel.new 20 2 = .ok lcd ∧
      ∃ last, play settings script lcd = .over 2 last ∧ last.player.pending = [] ∧
        (List.range 3).map (dueIn 30 script.events) =
          [[], script.events.take 1, script.events.drop 1] := by
  intro settings text script lcd
  have hread : Script.parse text = .ok script := eq_ok_of_toOption (by decide +kernel)
  have htwo : lastFrame settings.displayInEffect.fpsInEffect script.durationMs = 2 := by
    decide
  have hsettings : settings.violation? = none := rfl
  have hfits : (panelFor settings lcd).FitsCells lcd :=
    fitsCells_panelFor (by decide) (by decide) (by decide) (by decide)
  obtain ⟨hplay, -, -, -, -, -, -, hpending⟩ := play_schedule hsettings hread lcd (by decide)
  have hover := (hplay (hfits.fault_run _)).1
  rw [htwo] at hover hpending
  exact ⟨hsettings, hread, rfl, _, hover, hpending, by decide +kernel⟩

/-- Accepted settings under which a replay is given up in its only frame: no word holds a column of
the character panel together with the gap behind it, where the next bar would be past the right
edge. -/
theorem play_overflows :
    let settings : Settings := { Settings.unset with
      display := some { DisplaySettings.unset with
        kind := some .character, width := some 4, height := some 1, channels := some 1
        barSpacing := some 4294967295, drawBarBases := some false } }
    let script : Script := ⟨0, [⟨0, none, none, true, none, none⟩]⟩
    let recorder : Recorder := ⟨.character, 4, 1, [], #[]⟩
    let lcd : CellPanel := ⟨4, 1, .replicate 1 (.replicate 4 CellPanel.space), true⟩
    settings.violation? = none ∧
      Script.parse "events:\n- at_ms: 0\n  clear_spinner: true\n" = .ok script ∧
      lastFrame settings.displayInEffect.fpsInEffect script.durationMs = 0 ∧
      Surface.Willing recorder ∧ play settings script recorder = .failed .overflow ∧
      CellPanel.new 4 1 = .ok lcd ∧ play settings script lcd = .failed .overflow := by
  intro settings script recorder lcd
  have hread : Script.parse "events:\n- at_ms: 0\n  clear_spinner: true\n" = .ok script :=
    eq_ok_of_toOption (by decide +kernel)
  exact ⟨rfl, hread, by decide, Recorder.willing rfl, play_of_fault rfl (by decide +kernel), rfl,
    play_of_fault rfl (by decide +kernel)⟩

end Replay
end MidiPanel
