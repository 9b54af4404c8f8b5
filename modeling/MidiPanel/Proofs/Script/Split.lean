import MidiPanel.Proofs.Script.Progress

/-!
# Events with several actions

An event may carry up to five actions. It is shorthand for as many events at the same time, each of
them with one action, in the order in which the actions are done.

Two players that play a script and its split form advance at different rates, but stay level: the
events that an event is split into are due when it is, and only the last of them can fail, so that
one player has run the event when the other has run all of these. Between two steps the pending
events of one are the split form of those of the other.

Results:
* `run_split`: an event does what the events it is split into do one after the other.
* `alike_advanceFrom`, `alike_perform`, `alike_play`: an advance, a step, a sequence of steps.
* `split_plays_alike`: a script and its split form.
-/

namespace MidiPanel

/-- One thing that happens at an event. -/
inductive Action where
  | midi (status data1 data2 : UInt8)
  | message (message : MessageAction)
  | clearSpinner
  | image (id : ImageId)
  | powerSaving (change : PowerSaving)
  deriving DecidableEq

/-- The event at which this happens and nothing else. -/
def Action.event (atMs : UInt32) : Action → ScriptEvent
  | .midi status data1 data2 => ⟨atMs, some (status, data1, data2), none, false, none, none⟩
  | .message m => ⟨atMs, none, some m, false, none, none⟩
  | .clearSpinner => ⟨atMs, none, none, true, none, none⟩
  | .image id => ⟨atMs, none, none, false, some id, none⟩
  | .powerSaving change => ⟨atMs, none, none, false, none, some change⟩

namespace ScriptEvent

/-- What happens at an event, in the order in which it happens. -/
def actions (e : ScriptEvent) : List Action :=
  (e.midi.map fun (status, data1, data2) => Action.midi status data1 data2).toList ++
    (e.message.map Action.message).toList ++ (if e.clearSpinner then [.clearSpinner] else []) ++
    (e.image.map Action.image).toList ++ (e.powerSaving.map Action.powerSaving).toList

/-- An event of its own for each action, at the same time. -/
def split (e : ScriptEvent) : List ScriptEvent := e.actions.map (·.event e.atMs)

end ScriptEvent

/-- The same script with one action at every event. -/
def Script.split (s : Script) : Script := ⟨s.holdMs, s.events.flatMap ScriptEvent.split⟩

/-- The player that has the split forms of the pending events in front of it. -/
def Player.split (player : Player) : Player := ⟨player.pending.flatMap ScriptEvent.split⟩

/-! ## Split events -/

@[simp] theorem Action.atMs_event (action : Action) (atMs : UInt32) :
    (action.event atMs).atMs = atMs := by
  cases action <;> rfl

@[simp] theorem Action.actions_event (action : Action) (atMs : UInt32) :
    (action.event atMs).actions = [action] := by
  cases action <;> rfl

namespace ScriptEvent

variable {e part : ScriptEvent}

theorem isEmpty_eq_false_iff : e.isEmpty = false ↔ e.actions ≠ [] := by
  obtain ⟨atMs, midi, message, clearSpinner, image, powerSaving⟩ := e
  cases midi <;> cases message <;> cases clearSpinner <;> cases image <;> cases powerSaving <;>
    simp [isEmpty, actions]

/-- Only a message has a status byte. -/
theorem badStatus_eq_none_iff : e.badStatus? = none ↔
    ∀ status data1 data2, Action.midi status data1 data2 ∈ e.actions → ¬ status < 0x80 := by
  obtain ⟨atMs, midi, message, clearSpinner, image, powerSaving⟩ := e
  cases midi with
  | none => simp [badStatus?, actions]
  | some bytes => simp +contextual [badStatus?, actions, iff_def]

theorem split_ne_nil (h : e.isEmpty = false) : e.split ≠ [] := by
  unfold split
  rw [Ne, List.map_eq_nil_iff]
  exact isEmpty_eq_false_iff.mp h

theorem atMs_of_mem_split (h : part ∈ e.split) : part.atMs = e.atMs := by
  obtain ⟨action, -, rfl⟩ := List.mem_map.mp h
  exact action.atMs_event e.atMs

/-- What an event is split into is as good as the event. -/
theorem good_of_mem_split (hstatus : e.badStatus? = none) (h : part ∈ e.split) :
    part.isEmpty = false ∧ part.badStatus? = none := by
  obtain ⟨action, haction, rfl⟩ := List.mem_map.mp h
  rw [isEmpty_eq_false_iff, badStatus_eq_none_iff, Action.actions_event]
  refine ⟨List.cons_ne_nil action [], ?_⟩
  intro status data1 data2 hmem
  obtain rfl := List.mem_singleton.mp hmem
  exact badStatus_eq_none_iff.mp hstatus status data1 data2 haction

variable {σ : Type} [Surface σ]

/-- An event does what the events it is split into do one after the other. -/
theorem run_split (e : ScriptEvent) (p : Panel) (surface : σ) (now : Tick) :
    p.run surface (e.split.map (Drive.event · now)) = e.apply p surface now := by
  obtain ⟨atMs, midi, message, clearSpinner, image, powerSaving⟩ := e
  cases midi <;> cases message <;> cases clearSpinner <;> cases image <;>
    rcases powerSaving with _ | _ | _ <;> rfl

end ScriptEvent

/-! ## Split scripts -/

namespace Script

variable {s : Script}

theorem firstDefectOf_split (h : s.firstDefectOf? = none) : s.split.firstDefectOf? = none := by
  obtain ⟨-, hsorted, hgood⟩ := firstDefect_eq_none_iff.mp h
  refine firstDefect_eq_none_iff.mpr ⟨fun _ _ => UInt32.zero_le, ?_, ?_⟩
  · refine List.pairwise_flatMap.mpr ⟨?_, hsorted.imp ?_⟩
    · intro e _
      refine List.pairwise_of_forall_mem_list fun part hpart part' hpart' => ?_
      rw [ScriptEvent.atMs_of_mem_split hpart, ScriptEvent.atMs_of_mem_split hpart']
      exact UInt32.le_refl _
    · intro e e' hle part hpart part' hpart'
      rwa [ScriptEvent.atMs_of_mem_split hpart, ScriptEvent.atMs_of_mem_split hpart']
  · intro part hpart
    obtain ⟨e, he, hmem⟩ := List.mem_flatMap.mp hpart
    exact ScriptEvent.good_of_mem_split (hgood e he).2 hmem

theorem durationMs_split (h : s.firstDefectOf? = none) : s.split.durationMs = s.durationMs := by
  obtain ⟨-, -, hgood⟩ := firstDefect_eq_none_iff.mp h
  have hlast : s.split.events.getLast?.map ScriptEvent.atMs =
      s.events.getLast?.map ScriptEvent.atMs := by
    show (s.events.flatMap ScriptEvent.split).getLast?.map _ = _
    obtain hnil | ⟨before, last, hevents⟩ := List.eq_nil_or_concat s.events
    · rw [hnil]
      rfl
    · rw [List.concat_eq_append] at hevents
      have hne := ScriptEvent.split_ne_nil (hgood last (by rw [hevents]; simp)).1
      rw [hevents, List.flatMap_append, List.flatMap_singleton,
        List.getLast?_append_of_ne_nil _ hne, List.getLast?_concat,
        List.getLast?_eq_getLast_of_ne_nil hne]
      exact congrArg some (ScriptEvent.atMs_of_mem_split (List.getLast_mem hne))
  unfold durationMs
  rw [hlast]
  rfl

end Script

/-! ## Advances -/

/-- Two advances look the same, whatever they have counted and whatever they have left to do. -/
structure Advanced.Alike {σ : Type} (a b : Advanced σ) : Prop where
  panel : a.panel = b.panel
  surface : a.surface = b.surface
  fault : a.fault = b.fault
  isFinished : a.player.isFinished = b.player.isFinished

namespace Player

variable {σ : Type} [Surface σ]

/-- An advance runs events that are due and goes on behind them, or ends in front of one of them
with the fault that running them meets. -/
theorem advanceFrom_append {elapsedMs : UInt32} {now : Tick} {p q : Panel} {surface ground : σ}
    {due : List ScriptEvent} {fault : Option Fault} (hdue : ∀ e ∈ due, e.atMs ≤ elapsedMs)
    (hrun : p.run surface (due.map (Drive.event · now)) = ⟨q, ground, fault⟩)
    (events : List ScriptEvent) (ran : Nat) :
    (fault = none ∧ advanceFrom elapsedMs now p surface ran (due ++ events) =
      advanceFrom elapsedMs now q ground (ran + due.length) events) ∨
    (fault ≠ none ∧ ∃ e rest ran', advanceFrom elapsedMs now p surface ran (due ++ events) =
      ⟨⟨e :: rest⟩, q, ground, fault, ran'⟩) := by
  induction due generalizing p surface ran with
  | nil =>
    cases hrun
    exact .inl ⟨rfl, rfl⟩
  | cons e due ih =>
    obtain ⟨he, hlater⟩ := List.forall_mem_cons.mp hdue
    rw [List.map_cons] at hrun
    rw [List.cons_append]
    obtain hearly | ⟨-, q', ground', happly⟩ | ⟨-, q', ground', cause, happly⟩ :=
      event_cases e elapsedMs now p surface
    · exact absurd he (UInt32.not_le.mpr hearly)
    · have hdrive : p.drive surface (.event e now) = ⟨q', ground', none⟩ := happly
      rw [Panel.run_cons_of_drive hdrive] at hrun
      rw [advanceFrom_of_apply _ _ he happly, List.length_cons, Nat.add_comm due.length,
        ← Nat.add_assoc]
      exact ih hlater hrun (ran + 1)
    · have hdrive : p.drive surface (.event e now) = ⟨q', ground', some cause⟩ := happly
      rw [Panel.run_cons_of_fault hdrive] at hrun
      cases hrun
      exact .inr ⟨Option.some_ne_none cause, e, due ++ events, ran,
        advanceFrom_of_fault _ _ he happly⟩

/-- Every pending event does something. -/
def Acts (player : Player) : Prop := ∀ e ∈ player.pending, e.isEmpty = false

theorem isFinished_split {player : Player} (h : player.Acts) :
    player.split.isFinished = player.isFinished := by
  obtain ⟨events⟩ := player
  cases events with
  | nil => rfl
  | cons e events =>
    obtain ⟨part, rest, hsplit⟩ :=
      List.exists_cons_of_ne_nil (ScriptEvent.split_ne_nil (h e List.mem_cons_self))
    unfold Player.split isFinished
    rw [List.flatMap_cons, hsplit]
    rfl

/-- One advance: both players do the same. Behind a fault one has more left to do than the other,
without a fault they stay level. -/
theorem alike_advanceFrom (elapsedMs : UInt32) (now : Tick) (p : Panel) (surface : σ)
    (ran ran' : Nat) {events : List ScriptEvent} (h : Acts ⟨events⟩) :
    let whole := advanceFrom elapsedMs now p surface ran events
    let parts := advanceFrom elapsedMs now p surface ran' (events.flatMap ScriptEvent.split)
    whole.Alike parts ∧
      (whole.fault = none → parts.player = whole.player.split ∧ whole.player.Acts) := by
  induction events generalizing p surface ran ran' with
  | nil => exact ⟨⟨rfl, rfl, rfl, rfl⟩, fun _ => ⟨rfl, h⟩⟩
  | cons e events ih =>
    intro whole parts
    obtain ⟨he, hlater⟩ := List.forall_mem_cons.mp h
    obtain ⟨⟨q, ground, fault⟩, happly⟩ : ∃ drawn, e.apply p surface now = drawn := ⟨_, rfl⟩
    by_cases hdue : e.atMs ≤ elapsedMs
    · -- the parts of the event are due as well, and together they do what it does
      have hparts : ∀ part ∈ e.split, part.atMs ≤ elapsedMs := by
        intro part hpart
        rw [ScriptEvent.atMs_of_mem_split hpart]
        exact hdue
      have hrun := (e.run_split p surface now).trans happly
      obtain ⟨rfl, hgoes⟩ | ⟨hfault, part, rest, count, hstops⟩ :=
        advanceFrom_append hparts hrun (events.flatMap ScriptEvent.split) ran'
      · have hwhole : whole = advanceFrom elapsedMs now q ground (ran + 1) events :=
          advanceFrom_of_apply events ran hdue happly
        rw [hwhole, show parts = _ from hgoes]
        exact ih q ground (ran + 1) (ran' + e.split.length) hlater
      · obtain ⟨cause, rfl⟩ := Option.ne_none_iff_exists'.mp hfault
        have hwhole : whole = ⟨⟨e :: events⟩, q, ground, some cause, ran⟩ :=
          advanceFrom_of_fault events ran hdue happly
        rw [hwhole, show parts = _ from hstops]
        exact ⟨⟨rfl, rfl, rfl, rfl⟩, fun hnone => absurd hnone (Option.some_ne_none cause)⟩
    · have hearly : elapsedMs < e.atMs := UInt32.not_le.mp hdue
      have hwhole : whole = ⟨⟨e :: events⟩, p, surface, none, ran⟩ :=
        advanceFrom_of_early events ran hearly
      obtain ⟨part, rest, hsplit⟩ := List.exists_cons_of_ne_nil (ScriptEvent.split_ne_nil he)
      have hpart : part.atMs = e.atMs := ScriptEvent.atMs_of_mem_split (by rw [hsplit]; simp)
      have hpending : (e :: events).flatMap ScriptEvent.split =
          part :: (rest ++ events.flatMap ScriptEvent.split) := by
        rw [List.flatMap_cons, hsplit, List.cons_append]
      have hparts : parts = ⟨Player.split ⟨e :: events⟩, p, surface, none, ran'⟩ := by
        show advanceFrom elapsedMs now p surface ran' _ = _
        unfold Player.split
        rw [hpending]
        exact advanceFrom_of_early _ _ (by rwa [hpart])
      rw [hwhole, hparts]
      exact ⟨⟨rfl, rfl, rfl, (isFinished_split h).symm⟩, fun _ => ⟨rfl, h⟩⟩

/-! ## Playing -/

/-- What is done while a script plays: an advance, or a frame. -/
inductive Step where
  | advance (elapsedMs : UInt32) (now : Tick)
  | refresh (now : Tick)
  deriving DecidableEq

/-- Does a step. A frame runs no event. -/
def perform (player : Player) (p : Panel) (surface : σ) : Step → Advanced σ
  | .advance elapsedMs now => player.advance elapsedMs p surface now
  | .refresh now =>
    let drawn := p.refresh surface now
    ⟨player, drawn.state, drawn.surface, drawn.fault, 0⟩

/-- What each of several steps leaves behind. -/
def play (player : Player) (p : Panel) (surface : σ) : List Step → List (Advanced σ)
  | [] => []
  | step :: rest =>
    let advanced := player.perform p surface step
    advanced :: advanced.player.play advanced.panel advanced.surface rest

theorem alike_perform {player : Player} (h : player.Acts) (p : Panel) (surface : σ) (step : Step) :
    let whole := player.perform p surface step
    let parts := player.split.perform p surface step
    whole.Alike parts ∧
      (whole.fault = none → parts.player = whole.player.split ∧ whole.player.Acts) := by
  intro whole parts
  cases step with
  | advance elapsedMs now => exact alike_advanceFrom elapsedMs now p surface 0 0 h
  | refresh now =>
    exact ⟨⟨rfl, rfl, rfl, (isFinished_split h).symm⟩, fun _ => ⟨rfl, h⟩⟩

/-- If one of the two runs meets no fault, neither does, and they look the same step by step. -/
theorem alike_play {player : Player} (h : player.Acts) (p : Panel) (surface : σ)
    (steps : List Step) :
    let whole := player.play p surface steps
    let parts := player.split.play p surface steps
    (∀ advanced ∈ whole, advanced.fault = none) ∨ (∀ advanced ∈ parts, advanced.fault = none) →
      List.Forall₂ Advanced.Alike whole parts := by
  induction steps generalizing player p surface with
  | nil => exact fun _ => .nil
  | cons step steps ih =>
    intro whole parts hfaults
    obtain ⟨halike, hnext⟩ := alike_perform h p surface step
    have hfault : (player.perform p surface step).fault = none := by
      obtain hwhole | hparts := hfaults
      · exact hwhole _ List.mem_cons_self
      · exact halike.fault.trans (hparts _ List.mem_cons_self)
    obtain ⟨hplayer, hacts⟩ := hnext hfault
    have hparts : parts = player.split.perform p surface step ::
        (player.perform p surface step).player.split.play (player.perform p surface step).panel
          (player.perform p surface step).surface steps := by
      rw [← hplayer, halike.panel, halike.surface]
      rfl
    rw [hparts] at hfaults ⊢
    refine .cons halike (ih hacts _ _ ?_)
    exact hfaults.imp (fun h => (List.forall_mem_cons.mp h).2)
      (fun h => (List.forall_mem_cons.mp h).2)

end Player

/-- A script that can be played, and the same with every event split into its actions. The split
script can be played too and takes as long. Whatever is done with a panel while either of them
plays, advances to any times and frames at any ticks: if one of the two runs meets no fault, neither
does, and behind each step panel, surface, the calls made on it, and whether the script is finished
are the same in both. -/
theorem Script.split_plays_alike {text : String} {s : Script} (hs : parse text = .ok s) :
    s.split.check = .ok s.split ∧ s.split.durationMs = s.durationMs ∧
    ∀ {σ : Type} [Surface σ] (p : Panel) (surface : Traced σ) (steps : List Player.Step),
      let whole := (Player.ofScript s).play p surface steps
      let parts := (Player.ofScript s.split).play p surface steps
      (∀ advanced ∈ whole, advanced.fault = none) ∨ (∀ advanced ∈ parts, advanced.fault = none) →
        List.Forall₂ Advanced.Alike whole parts := by
  have hgood := firstDefectOf_of_parse hs
  refine ⟨check_eq_ok_iff.mpr ⟨rfl, firstDefectOf_split hgood⟩, durationMs_split hgood, ?_⟩
  intro σ _ p surface steps
  exact Player.alike_play (fun e he => ((firstDefect_eq_none_iff.mp hgood).2.2 e he).1) p surface
    steps

/-- An image and power saving at one event, a note and the end of power saving at the next, with the
panel asleep in between: two events are four. -/
theorem Script.split_plays_alike_wake :
    let s : Script := ⟨0, [⟨0, none, none, false, some 1, some .enter⟩,
      ⟨5, some (144, 60, 9), none, false, none, some .exit⟩]⟩
    let recorder : Traced Recorder := ⟨⟨.character, 20, 2, [], #[]⟩, []⟩
    let panel := Panel.forSurface recorder
    let steps : List Player.Step := [.advance 4 0, .refresh 3000000, .advance 20 3005000]
    s.split.events.length = 4 ∧ s.split.check = .ok s.split ∧
      List.Forall₂ Advanced.Alike ((Player.ofScript s).play panel recorder steps)
        ((Player.ofScript s.split).play panel recorder steps) := by
  intro s recorder panel steps
  have hread : Script.parse
      ("events:\n- at_ms: 0\n  image: 1\n  power_saving: enter\n" ++
      "- at_ms: 5\n  midi: [144, 60, 9]\n  power_saving: exit\n") = .ok s :=
    eq_ok_of_toOption (by decide +kernel)
  obtain ⟨hcheck, -, halike⟩ := Script.split_plays_alike hread
  exact ⟨rfl, hcheck, halike panel recorder steps (.inl (by decide +kernel))⟩

end MidiPanel
