import MidiPanel.Proofs.Script.Progress

/-!
# Events run again

An event does its quiet actions before it lights the panel up, so that an event that fails has
already struck its note and put up its overlay, and the player will run it again. Each action writes
the same places whenever it is done and takes what it writes from the event and the tick, not from
what stood there, so that the later run leaves no trace of the earlier one. An event that fails any
number of times and then succeeds has therefore run once, at the tick of its success.

Results:
* `handle_handle`, `quietActions_quietActions`: of the same action at two ticks the later counts.
* `apply_fault_eq_some_iff`: an event fails if and only if it lights up a panel that refuses to.
* `Tried.apply_eq`, `Tried.advance_eq`: tries that failed change nothing for the next run.
* `retried_event`: one event, tried until it succeeds.
-/

namespace MidiPanel

/-! ## Messages -/

namespace ChannelState

variable (c : ChannelState)

theorem noteOn_noteOn (note velocity : DataByte) (earlier later : Tick) :
    (c.noteOn note velocity earlier).noteOn note velocity later = c.noteOn note velocity later := by
  simp [noteOn]

theorem noteOff_noteOff (note : DataByte) (earlier later : Tick) :
    (c.noteOff note earlier).noteOff note later = c.noteOff note later := by
  simp [noteOff]

theorem controlChange_controlChange (controller value : DataByte) :
    (c.controlChange controller value).controlChange controller value =
      c.controlChange controller value := by
  unfold controlChange
  split
  case h_11 => simp [*]
  all_goals rfl

end ChannelState

namespace Monitor

theorem modifyChannel_modifyChannel (m : Monitor) (channel : Channel)
    (f g : ChannelState → ChannelState) :
    (m.modifyChannel channel f).modifyChannel channel g =
      m.modifyChannel channel fun c => g (f c) := by
  simp [modifyChannel]

/-- Of the same event at two ticks the later counts, whatever the event. -/
theorem handle_handle (m : Monitor) (event : Event) (earlier later : Tick) :
    (m.handle event earlier).handle event later = m.handle event later := by
  unfold handle
  cases event with
  | noteOff channel note => simp only [modifyChannel_modifyChannel, ChannelState.noteOff_noteOff]
  | noteOn channel note velocity =>
    simp only [modifyChannel_modifyChannel, ChannelState.noteOn_noteOn]
  | controlChange channel controller value =>
    simp only [modifyChannel_modifyChannel, ChannelState.controlChange_controlChange]
  | systemReset => rfl
  | unhandled => rfl

end Monitor

/-! ## Events -/

namespace ScriptEvent

/-- What an event makes of the monitor. -/
def monitorAction (e : ScriptEvent) (m : Monitor) (now : Tick) : Monitor :=
  e.midi.elim m fun (status, data1, data2) =>
    m.handle (ShortMessage.mk status data1 data2).event now

/-- What an event makes of the overlay before it makes a call. -/
def statusAction (e : ScriptEvent) (s : Status) (now : Tick) : Status :=
  let s := e.message.elim s fun m => s.showMessage m.text m.spinner now
  let s := if e.clearSpinner then s.dismiss else s
  let s := e.image.elim s fun id => s.showImage id now
  if e.powerSaving = some .enter then s.enterPowerSaving now else s

theorem quietActions_eq (e : ScriptEvent) (p : Panel) (now : Tick) :
    e.quietActions p now =
      { p with
        monitor := e.monitorAction p.monitor now
        status := e.statusAction p.status now } := by
  obtain ⟨atMs, midi, message, clearSpinner, image, powerSaving⟩ := e
  cases midi <;> cases message <;> cases clearSpinner <;> cases image <;>
    rcases powerSaving with _ | _ | _ <;> rfl

theorem monitorAction_monitorAction (e : ScriptEvent) (m : Monitor) (earlier later : Tick) :
    e.monitorAction (e.monitorAction m earlier) later = e.monitorAction m later := by
  unfold monitorAction
  cases e.midi with
  | none => rfl
  | some message => exact m.handle_handle _ earlier later

/-- Whichever of overlay, tick and text an event writes, it writes again. -/
theorem statusAction_statusAction (e : ScriptEvent) (s : Status) (earlier later : Tick) :
    e.statusAction (e.statusAction s earlier) later = e.statusAction s later := by
  obtain ⟨atMs, midi, message, clearSpinner, image, powerSaving⟩ := e
  rcases message with _ | ⟨text, _ | _⟩ <;> cases clearSpinner <;> cases image <;>
    rcases powerSaving with _ | _ | _ <;> rfl

theorem quietActions_quietActions (e : ScriptEvent) (p : Panel) (earlier later : Tick) :
    e.quietActions (e.quietActions p earlier) later = e.quietActions p later := by
  simp only [quietActions_eq, monitorAction_monitorAction, statusAction_statusAction]

variable {σ : Type} [Surface σ] {e : ScriptEvent} {p q : Panel} {surface : σ} {now : Tick}

theorem apply_of_exit (h : e.powerSaving = some .exit) (p : Panel) (surface : σ) (now : Tick) :
    e.apply p surface now = (e.quietActions p now).exitPowerSaving surface := by
  unfold apply
  rw [h]

theorem apply_of_not_exit (h : e.powerSaving ≠ some .exit) (p : Panel) (surface : σ) (now : Tick) :
    e.apply p surface now = ⟨e.quietActions p now, surface, none⟩ := by
  unfold apply
  dsimp only
  split
  next hexit => exact absurd hexit h
  next => rfl

/-- An event depends on the panel through its quiet actions only. -/
theorem apply_congr (h : e.quietActions p now = e.quietActions q now) (surface : σ) :
    e.apply p surface now = e.apply q surface now := by
  unfold apply
  rw [h]

/-- The call that lights the panel up is the only one that can fail. -/
theorem apply_fault_eq_some_iff {fault : Fault} :
    (e.apply p surface now).fault = some fault ↔
      e.powerSaving = some .exit ∧
        Surface.perform surface (.setBacklight true) = .error fault := by
  by_cases hexit : e.powerSaving = some .exit
  · rw [apply_of_exit hexit]
    unfold Panel.exitPowerSaving Status.exitPowerSaving
    cases Surface.perform surface (.setBacklight true) <;> simp [hexit]
  · rw [apply_of_not_exit hexit]
    simp [hexit]

/-- A failed event leaves its quiet actions behind. -/
theorem state_apply_of_fault {fault : Fault} (h : (e.apply p surface now).fault = some fault) :
    (e.apply p surface now).state = e.quietActions p now := by
  obtain ⟨hexit, hperform⟩ := apply_fault_eq_some_iff.mp h
  rw [apply_of_exit hexit]
  unfold Panel.exitPowerSaving Status.exitPowerSaving
  rw [hperform]

/-- The panel behind a success is the same on all surfaces. -/
theorem state_apply_of_success {τ : Type} [Surface τ] {other : τ}
    (h : (e.apply p surface now).fault = none) (hother : (e.apply p other now).fault = none) :
    (e.apply p surface now).state = (e.apply p other now).state := by
  by_cases hexit : e.powerSaving = some .exit
  · rw [apply_of_exit hexit] at h hother ⊢
    rw [apply_of_exit hexit]
    unfold Panel.exitPowerSaving Status.exitPowerSaving at h hother ⊢
    cases hperform : Surface.perform surface (.setBacklight true) with
    | error fault => simp [hperform] at h
    | ok lit =>
      cases hperform' : Surface.perform other (.setBacklight true) with
      | error fault => simp [hperform'] at hother
      | ok lit' => rfl
  · rw [apply_of_not_exit hexit, apply_of_not_exit hexit]

/-- The panels that tries of an event lead to from `p` when every one of them fails. Surfaces and
ticks may be any. -/
inductive Tried (e : ScriptEvent) (p : Panel) : Panel → Prop
  | untouched : Tried e p p
  | again {q : Panel} (h : Tried e p q) {σ : Type} [Surface σ] (surface : σ) (now : Tick)
      (fault : Fault) (fails : (e.apply q surface now).fault = some fault) :
      Tried e p (e.apply q surface now).state

namespace Tried

theorem quietActions_eq (h : Tried e p q) (now : Tick) :
    e.quietActions q now = e.quietActions p now := by
  induction h with
  | untouched => rfl
  | again _ surface earlier fault fails ih =>
    rw [state_apply_of_fault fails, quietActions_quietActions]
    exact ih

/-- What failed before makes no difference, neither to panel and surface nor to the fault. -/
theorem apply_eq (h : Tried e p q) (surface : σ) (now : Tick) :
    e.apply q surface now = e.apply p surface now :=
  apply_congr (h.quietActions_eq now) surface

/-- An advance that meets the event again runs as if the event had never been tried. -/
theorem advance_eq (h : Tried e p q) {events : List ScriptEvent} {elapsedMs : UInt32}
    (hdue : e.atMs ≤ elapsedMs) (surface : σ) (now : Tick) :
    (Player.mk (e :: events)).advance elapsedMs q surface now =
      (Player.mk (e :: events)).advance elapsedMs p surface now := by
  unfold Player.advance Player.advanceFrom
  rw [if_neg (UInt32.not_lt.mpr hdue), if_neg (UInt32.not_lt.mpr hdue), h.apply_eq]

end Tried

/-- An advance that fails runs some events to their end and then tries the next one. The advance
that repeats it, at any later time and on any surface, runs on from where those events led to. -/
theorem advance_of_fault {player : Player} {elapsedMs later : UInt32} (hle : elapsedMs ≤ later)
    {fault : Fault} (h : (player.advance elapsedMs p surface now).fault = some fault) :
    let advanced := player.advance elapsedMs p surface now
    let done := player.completed elapsedMs p surface now
    ∃ q ground, p.run surface (done.map (Drive.event · now)) = ⟨q, ground, none⟩ ∧
      player.pending = done ++ advanced.player.pending ∧
      ∀ {τ : Type} [Surface τ] (other : τ) (next : Tick),
        advanced.player.advance later advanced.panel other next =
          advanced.player.advance later q other next := by
  intro advanced done
  obtain ⟨q, ground, rest, hpending, -, hrun, houtcome⟩ :=
    player.advance_outcome elapsedMs p surface now
  obtain ⟨e, events, hrest, hdue, happly⟩ := houtcome.exists_of_fault h
  have htried : Tried e q advanced.panel := by
    have hfails : (e.apply q ground now).fault = some fault := by rw [happly]
    have hagain := Tried.untouched.again ground now fault hfails
    rw [happly] at hagain
    exact hagain
  refine ⟨q, ground, hrun, ?_, ?_⟩
  · rw [hpending, houtcome.pending_eq]
  · intro τ _ other next
    have hplayer : advanced.player = ⟨e :: events⟩ := congrArg Player.mk hrest
    rw [hplayer]
    exact htried.advance_eq (UInt32.le_trans hdue hle) other next

/-- An event that has failed on `p`, any number of times and at any ticks, each time because the
panel refused to light up, and now succeeds. Run on `p` at this tick for the first time it succeeds
as well, does the same to the surface, and leaves the same panel behind: monitor, overlay, message
and timers. On any other surface where the event succeeds, the panel is again the same. -/
theorem retried_event {σ : Type} [Surface σ] {e : ScriptEvent} {p q : Panel} (h : Tried e p q)
    {surface : σ} {now : Tick} (hsuccess : (e.apply q surface now).fault = none) :
    e.apply p surface now = e.apply q surface now ∧
    ∀ {τ : Type} [Surface τ] (other : τ), (e.apply p other now).fault = none →
      (e.apply q surface now).state = (e.apply p other now).state := by
  have heq := h.apply_eq surface now
  refine ⟨heq.symm, ?_⟩
  intro τ _ other hother
  rw [heq] at hsuccess ⊢
  exact state_apply_of_success hsuccess hother

/-- A note, a message and the end of power saving, refused twice and then done. -/
theorem retried_event_twice :
    let event : ScriptEvent :=
      ⟨5, some (0x90, 60, 127), some ⟨"Hello", true⟩, false, none, some .exit⟩
    let refusing : Recorder := ⟨.character, 20, 2, ["backlight"], #[]⟩
    let willing : Recorder := ⟨.character, 20, 2, [], #[]⟩
    let panel := Panel.forSurface willing
    let once := (event.apply panel refusing 7).state
    let twice := (event.apply once refusing 9).state
    once.status.since = 7 ∧ twice.status.since = 9 ∧
      (event.apply twice willing 11).fault = none ∧
      (event.apply twice willing 11).state = (event.apply panel willing 11).state := by
  intro event refusing willing panel once twice
  have htried : Tried event panel twice :=
    (Tried.untouched.again refusing 7 (.callFailed "backlight") rfl).again refusing 9
      (.callFailed "backlight") rfl
  exact ⟨rfl, rfl, rfl, (retried_event htried rfl).2 willing rfl⟩

end ScriptEvent
end MidiPanel
