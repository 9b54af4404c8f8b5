import MidiPanel.Proofs.Panel.Backlight
import MidiPanel.Proofs.Replay.Timing
import MidiPanel.Surface.Recorder

/-!
# Progress through a script

An advance runs the pending events that are due, one after the other, and stops at the first that
lies in the future or fails. Since the events of a script do not fall back in time, nothing that is
due hides behind an event in the future: an advance that meets no fault runs all that is due, and
whatever the times of the advances, the ticks, the panels and the surfaces, every event runs to its
end once and in its turn.

Results:
* `event_cases`, `advance_outcome`: what one event and what one advance does.
* `advance_advance`: two advances at one tick.
* `Reached.append_pending`: what has run, followed by what is pending, is the script.
* `Reached.append_completed`: an advance without a fault goes on to all that is due.
* `runs_in_order`: histories of advances as a whole.
-/

namespace MidiPanel
namespace Player

variable {σ : Type} [Surface σ] {elapsedMs : UInt32} {now : Tick} {p q : Panel} {surface ground : σ}

/-! ## One advance -/

/-- The events that run to their end in an advance, in the order in which they do. -/
def completedFrom (elapsedMs : UInt32) (now : Tick) (p : Panel) (surface : σ) :
    List ScriptEvent → List ScriptEvent
  | [] => []
  | e :: events =>
    if elapsedMs < e.atMs then []
    else
      let drawn := e.apply p surface now
      if drawn.fault.isNone then
        e :: completedFrom elapsedMs now drawn.state drawn.surface events
      else []

/-- The events of a player that run to their end in an advance. -/
def completed (player : Player) (elapsedMs : UInt32) (p : Panel) (surface : σ) (now : Tick) :
    List ScriptEvent :=
  completedFrom elapsedMs now p surface player.pending

/-- How an advance ends in front of the events `rest`: it waits for an event in the future, or the
first of them fails. -/
inductive Outcome (elapsedMs : UInt32) (now : Tick) (q : Panel) (ground : σ) (ran : Nat)
    (rest : List ScriptEvent) : Advanced σ → Prop
  | waits (future : ∀ e ∈ rest.head?, elapsedMs < e.atMs) :
      Outcome elapsedMs now q ground ran rest ⟨⟨rest⟩, q, ground, none, ran⟩
  | fails (e : ScriptEvent) (later : List ScriptEvent) (hrest : rest = e :: later)
      (due : e.atMs ≤ elapsedMs) (p : Panel) (surface : σ) (fault : Fault)
      (apply : e.apply q ground now = ⟨p, surface, some fault⟩) :
      Outcome elapsedMs now q ground ran rest ⟨⟨rest⟩, p, surface, some fault, ran⟩

section Step

variable {e : ScriptEvent} (events : List ScriptEvent) (ran : Nat)

theorem advanceFrom_of_early (h : elapsedMs < e.atMs) :
    advanceFrom elapsedMs now p surface ran (e :: events) =
      ⟨⟨e :: events⟩, p, surface, none, ran⟩ :=
  if_pos h

theorem advanceFrom_of_apply (hdue : e.atMs ≤ elapsedMs)
    (happly : e.apply p surface now = ⟨q, ground, none⟩) :
    advanceFrom elapsedMs now p surface ran (e :: events) =
      advanceFrom elapsedMs now q ground (ran + 1) events := by
  rw [advanceFrom, if_neg (UInt32.not_lt.mpr hdue), happly]

theorem advanceFrom_of_fault {fault : Fault} (hdue : e.atMs ≤ elapsedMs)
    (happly : e.apply p surface now = ⟨q, ground, some fault⟩) :
    advanceFrom elapsedMs now p surface ran (e :: events) =
      ⟨⟨e :: events⟩, q, ground, some fault, ran⟩ := by
  rw [advanceFrom, if_neg (UInt32.not_lt.mpr hdue), happly]

/-- An event that is looked at lies in the future, runs to its end, or fails. -/
theorem event_cases (e : ScriptEvent) (elapsedMs : UInt32) (now : Tick) (p : Panel) (surface : σ) :
    elapsedMs < e.atMs ∨
    (e.atMs ≤ elapsedMs ∧ ∃ q ground, e.apply p surface now = ⟨q, ground, none⟩) ∨
    (e.atMs ≤ elapsedMs ∧ ∃ q ground fault, e.apply p surface now = ⟨q, ground, some fault⟩) := by
  by_cases hearly : elapsedMs < e.atMs
  · exact .inl hearly
  · have hdue : e.atMs ≤ elapsedMs := UInt32.not_lt.mp hearly
    obtain ⟨⟨q, ground, fault⟩, happly⟩ : ∃ drawn, e.apply p surface now = drawn := ⟨_, rfl⟩
    cases fault with
    | none => exact .inr (.inl ⟨hdue, q, ground, happly⟩)
    | some fault => exact .inr (.inr ⟨hdue, q, ground, fault, happly⟩)

end Step

/-- What the loop of an advance does: the events that run to their end are due and drive the panel
one after the other, and it ends in front of the others. -/
theorem advanceFrom_outcome (elapsedMs : UInt32) (now : Tick) (p : Panel) (surface : σ) (ran : Nat)
    (events : List ScriptEvent) :
    let done := completedFrom elapsedMs now p surface events
    ∃ q ground rest, events = done ++ rest ∧ (∀ e ∈ done, e.atMs ≤ elapsedMs) ∧
      p.run surface (done.map (Drive.event · now)) = ⟨q, ground, none⟩ ∧
      Outcome elapsedMs now q ground (ran + done.length) rest
        (advanceFrom elapsedMs now p surface ran events) := by
  induction events generalizing p surface ran with
  | nil => exact ⟨p, surface, [], rfl, by simp [completedFrom], rfl, .waits (by simp)⟩
  | cons e events ih =>
    intro done
    obtain hearly | ⟨hdue, q, ground, happly⟩ | ⟨hdue, q, ground, fault, happly⟩ :=
      event_cases e elapsedMs now p surface
    · have hdone : done = [] := by simp [done, completedFrom, hearly]
      rw [hdone, advanceFrom_of_early events ran hearly]
      exact ⟨p, surface, e :: events, rfl, by simp, rfl, .waits (by simpa using hearly)⟩
    · have hdone : done = e :: completedFrom elapsedMs now q ground events := by
        simp [done, completedFrom, UInt32.not_lt.mpr hdue, happly]
      have hdrive : p.drive surface (.event e now) = ⟨q, ground, none⟩ := happly
      obtain ⟨last, bottom, rest, hevents, halldue, hrun, houtcome⟩ := ih q ground (ran + 1)
      rw [hdone, advanceFrom_of_apply events ran hdue happly, List.map_cons,
        Panel.run_cons_of_drive hdrive, List.length_cons, Nat.add_comm _ 1, ← Nat.add_assoc]
      refine ⟨last, bottom, rest, congrArg (e :: ·) hevents, ?_, hrun, houtcome⟩
      simpa using ⟨hdue, halldue⟩
    · have hdone : done = [] := by
        simp [done, completedFrom, UInt32.not_lt.mpr hdue, happly]
      rw [hdone, advanceFrom_of_fault events ran hdue happly]
      exact ⟨p, surface, e :: events, rfl, by simp, rfl,
        .fails e events rfl hdue q ground fault happly⟩

theorem advance_outcome (player : Player) (elapsedMs : UInt32) (p : Panel) (surface : σ)
    (now : Tick) :
    let done := player.completed elapsedMs p surface now
    ∃ q ground rest, player.pending = done ++ rest ∧ (∀ e ∈ done, e.atMs ≤ elapsedMs) ∧
      p.run surface (done.map (Drive.event · now)) = ⟨q, ground, none⟩ ∧
      Outcome elapsedMs now q ground done.length rest (player.advance elapsedMs p surface now) := by
  obtain ⟨q, ground, rest, hpending, hdone, hrun, houtcome⟩ :=
    advanceFrom_outcome elapsedMs now p surface 0 player.pending
  rw [Nat.zero_add] at houtcome
  exact ⟨q, ground, rest, hpending, hdone, hrun, houtcome⟩

/-- The count of the events so far is only carried along. -/
theorem advanceFrom_add (elapsedMs : UInt32) (now : Tick) (p : Panel) (surface : σ)
    (before ran : Nat) (events : List ScriptEvent) :
    let advanced := advanceFrom elapsedMs now p surface ran events
    advanceFrom elapsedMs now p surface (before + ran) events =
      { advanced with ran := before + advanced.ran } := by
  induction events generalizing p surface ran with
  | nil => rfl
  | cons e events ih =>
    obtain hearly | ⟨hdue, q, ground, happly⟩ | ⟨hdue, q, ground, fault, happly⟩ :=
      event_cases e elapsedMs now p surface
    · simp only [advanceFrom_of_early _ _ hearly]
    · simp only [advanceFrom_of_apply _ _ hdue happly]
      exact ih q ground (ran + 1)
    · simp only [advanceFrom_of_fault _ _ hdue happly]

/-- An advance goes on where one to an earlier time has ended without a fault. -/
theorem advanceFrom_of_le {earlier later : UInt32} (hle : earlier ≤ later) {rest : List ScriptEvent}
    {ran ran' : Nat} {events : List ScriptEvent}
    (h : advanceFrom earlier now p surface ran events = ⟨⟨rest⟩, q, ground, none, ran'⟩) :
    advanceFrom later now p surface ran events = advanceFrom later now q ground ran' rest := by
  induction events generalizing p surface ran with
  | nil =>
    cases h
    rfl
  | cons e events ih =>
    obtain hearly | ⟨hdue, q', ground', happly⟩ | ⟨hdue, q', ground', fault, happly⟩ :=
      event_cases e earlier now p surface
    · rw [advanceFrom_of_early _ _ hearly] at h
      cases h
      rfl
    · rw [advanceFrom_of_apply _ _ hdue happly] at h
      rw [advanceFrom_of_apply _ _ (UInt32.le_trans hdue hle) happly]
      exact ih h
    · rw [advanceFrom_of_fault _ _ hdue happly] at h
      cases h

/-- An advance runs nothing where all that is pending lies in the future. -/
theorem advance_of_future {player : Player} (h : ∀ e ∈ player.pending, elapsedMs < e.atMs)
    (p : Panel) (surface : σ) (now : Tick) :
    player.advance elapsedMs p surface now = ⟨player, p, surface, none, 0⟩ := by
  obtain ⟨events⟩ := player
  unfold advance
  cases events with
  | nil => rfl
  | cons e events => exact advanceFrom_of_early _ _ (h e List.mem_cons_self)

namespace Outcome

variable {ran : Nat} {rest : List ScriptEvent} {advanced : Advanced σ}
  (h : Outcome elapsedMs now q ground ran rest advanced)

include h

theorem pending_eq : advanced.player.pending = rest := by
  cases h <;> rfl

theorem eq_of_fault (hfault : advanced.fault = none) :
    advanced = ⟨⟨rest⟩, q, ground, none, ran⟩ := by
  cases h with
  | waits => rfl
  | fails => cases hfault

/-- Without a fault, all that is left lies in the future. -/
theorem future (hfault : advanced.fault = none) (hsorted : rest.Pairwise (·.atMs ≤ ·.atMs)) :
    ∀ e ∈ rest, elapsedMs < e.atMs := by
  cases h with
  | fails => cases hfault
  | waits hfuture =>
    cases rest with
    | nil => simp
    | cons e rest =>
      have he : elapsedMs < e.atMs := hfuture e rfl
      intro e' he'
      rcases List.mem_cons.mp he' with rfl | hmem
      · exact he
      · exact UInt32.lt_of_lt_of_le he ((List.pairwise_cons.mp hsorted).1 e' hmem)

/-- With a fault, it was the next event that failed. -/
theorem exists_of_fault {fault : Fault} (hfault : advanced.fault = some fault) :
    ∃ e later, advanced.player.pending = e :: later ∧ e.atMs ≤ elapsedMs ∧
      e.apply q ground now = ⟨advanced.panel, advanced.surface, some fault⟩ := by
  cases h with
  | waits => cases hfault
  | fails e later hrest hdue p surface fault' happly =>
    cases hfault
    exact ⟨e, later, hrest, hdue, happly⟩

end Outcome

/-- At one tick, an advance behind one without a fault is one advance to the later of the times. -/
theorem advance_advance {player : Player} (hsorted : player.pending.Pairwise (·.atMs ≤ ·.atMs))
    (elapsedMs later : UInt32) (p : Panel) (surface : σ) (now : Tick) :
    let first := player.advance elapsedMs p surface now
    let second := first.player.advance later first.panel first.surface now
    first.fault = none →
      player.advance (max elapsedMs later) p surface now =
        { second with ran := first.ran + second.ran } := by
  intro first second hfault
  obtain ⟨q, ground, rest, hpending, -, -, houtcome⟩ :=
    player.advance_outcome elapsedMs p surface now
  rw [hpending] at hsorted
  have hfuture := houtcome.future hfault (List.pairwise_append.mp hsorted).2.1
  have hfirst := houtcome.eq_of_fault hfault
  have hsecond : second = (Player.mk rest).advance later q ground now := by
    show first.player.advance later first.panel first.surface now = _
    rw [show first = _ from hfirst]
  by_cases hle : elapsedMs ≤ later
  · have hmax : max elapsedMs later = later := if_pos hle
    have hgoes := advanceFrom_of_le hle hfirst
    have hcount := advanceFrom_add later now q ground first.ran 0 rest
    rw [hmax, hsecond]
    rw [show first = _ from hfirst] at hcount ⊢
    exact hgoes.trans hcount
  · -- the second time is the earlier one, and nothing that is left is due at it
    have hmax : max elapsedMs later = elapsedMs := if_neg hle
    have hlater : ∀ e ∈ rest, later < e.atMs := by
      intro e he
      exact UInt32.lt_trans (UInt32.not_le.mp hle) (hfuture e he)
    rw [hmax, hsecond, advance_of_future hlater]
    rw [show first = _ from hfirst]
    exact hfirst

/-! ## Histories -/

/-- The players that advances lead to from the start of a script, with the events that have run to
their end. Times, ticks, panels and surfaces may be any, and an advance that fails counts too. -/
inductive Reached (s : Script) : List ScriptEvent → Player → Prop
  | start : Reached s [] (.ofScript s)
  | advance {ran : List ScriptEvent} {player : Player} (h : Reached s ran player) {σ : Type}
      [Surface σ] (elapsedMs : UInt32) (p : Panel) (surface : σ) (now : Tick) :
      Reached s (ran ++ player.completed elapsedMs p surface now)
        (player.advance elapsedMs p surface now).player

namespace Reached

variable {s : Script} {ran : List ScriptEvent} {player : Player} (h : Reached s ran player)

include h

/-- What has run, followed by what is pending, is the script. -/
theorem append_pending : ran ++ player.pending = s.events := by
  induction h with
  | start => rfl
  | advance _ elapsedMs p surface now ih =>
    obtain ⟨q, ground, rest, hpending, -, -, houtcome⟩ :=
      Player.advance_outcome _ elapsedMs p surface now
    rw [houtcome.pending_eq, List.append_assoc, ← hpending]
    exact ih

theorem isFinished_iff : player.isFinished = true ↔ ran = s.events := by
  rw [← h.append_pending]
  simp [isFinished]

/-- An advance without a fault goes on to all that is due, unless more than that has run. -/
theorem append_completed (hsorted : s.events.Pairwise (·.atMs ≤ ·.atMs))
    (hfault : (player.advance elapsedMs p surface now).fault = none) :
    let due := s.events.filter (·.atMs ≤ elapsedMs)
    ran ++ player.completed elapsedMs p surface now =
      if ran.length ≤ due.length then due else ran := by
  intro due
  obtain ⟨q, ground, rest, hpending, hdone, -, houtcome⟩ :=
    player.advance_outcome elapsedMs p surface now
  generalize player.completed elapsedMs p surface now = done at hpending hdone ⊢
  have hevents : s.events = ran ++ (done ++ rest) := by rw [← hpending, h.append_pending]
  rw [hevents] at hsorted
  obtain ⟨-, htail, hacross⟩ := List.pairwise_append.mp hsorted
  have hfuture := houtcome.future hfault (List.pairwise_append.mp htail).2.1
  have hdone' : done.filter (·.atMs ≤ elapsedMs) = done := by simpa using hdone
  have hrest : rest.filter (·.atMs ≤ elapsedMs) = [] := by simpa using hfuture
  have hdue : due = ran.filter (·.atMs ≤ elapsedMs) ++ done := by
    show s.events.filter _ = _
    rw [hevents, List.filter_append, List.filter_append, hdone', hrest, List.append_nil]
  by_cases hlater : ∃ late ∈ ran, elapsedMs < late.atMs
  · -- something later has run, so that nothing was due in this advance
    obtain ⟨late, hlate, hafter⟩ := hlater
    have hnone : done = [] := by
      rw [List.eq_nil_iff_forall_not_mem]
      intro e he
      have hle : late.atMs ≤ e.atMs := hacross late hlate e (List.mem_append_left rest he)
      exact UInt32.not_le.mpr hafter (UInt32.le_trans hle (hdone e he))
    have hshort : (ran.filter (·.atMs ≤ elapsedMs)).length < ran.length := by
      rw [List.length_filter_lt_length_iff_exists]
      exact ⟨late, hlate, by simpa using hafter⟩
    rw [hdue, hnone, List.append_nil, List.append_nil, if_neg (by omega)]
  · have hran : ran.filter (·.atMs ≤ elapsedMs) = ran := by
      rw [List.filter_eq_self]
      intro e he
      rw [decide_eq_true_iff]
      exact UInt32.not_lt.mp fun hafter => hlater ⟨e, he, hafter⟩
    rw [hdue, hran, if_pos (by simp)]

end Reached

/-- Any history of advances through a script that can be played. What has run so far is a first
part of the script, and all of it exactly if the player is finished. The next advance drives the
panel by the events that it completes. Without a fault it goes on to all that is due, unless more
has run, and tells how many it ran; one more at the same tick is the same as one to the later of the
two times. With a fault, the event that failed is the next one to run. -/
theorem runs_in_order {text : String} {s : Script} (hs : Script.parse text = .ok s)
    {ran : List ScriptEvent} {player : Player} (h : Reached s ran player) :
    ran ++ player.pending = s.events ∧ (player.isFinished = true ↔ ran = s.events) ∧
    ∀ {σ : Type} [Surface σ] (elapsedMs : UInt32) (p : Panel) (surface : σ) (now : Tick),
      let advanced := player.advance elapsedMs p surface now
      let done := player.completed elapsedMs p surface now
      let due := s.events.filter (·.atMs ≤ elapsedMs)
      (∃ q ground, p.run surface (done.map (Drive.event · now)) = ⟨q, ground, none⟩ ∧
        (advanced.fault = none →
          advanced.panel = q ∧ advanced.surface = ground ∧ advanced.ran = done.length ∧
          ran ++ done = if ran.length ≤ due.length then due else ran) ∧
        ∀ fault, advanced.fault = some fault →
          ∃ e later, advanced.player.pending = e :: later ∧ e.atMs ≤ elapsedMs ∧
            e.apply q ground now = ⟨advanced.panel, advanced.surface, some fault⟩) ∧
      ∀ later,
        let next := advanced.player.advance later advanced.panel advanced.surface now
        advanced.fault = none → player.advance (max elapsedMs later) p surface now =
          { next with ran := advanced.ran + next.ran } := by
  have hsorted := Script.pairwise_atMs (Script.firstDefectOf_of_parse hs)
  refine ⟨h.append_pending, h.isFinished_iff, ?_⟩
  intro σ _ elapsedMs p surface now advanced done due
  constructor
  · obtain ⟨q, ground, rest, -, -, hrun, houtcome⟩ :=
      player.advance_outcome elapsedMs p surface now
    refine ⟨q, ground, hrun, ?_, ?_⟩
    · intro hfault
      have hadvanced : advanced = _ := houtcome.eq_of_fault hfault
      refine ⟨by rw [hadvanced], by rw [hadvanced], by rw [hadvanced], ?_⟩
      exact h.append_completed hsorted hfault
    · intro fault hfault
      exact houtcome.exists_of_fault hfault
  · intro later
    rw [← h.append_pending] at hsorted
    exact advance_advance (List.pairwise_append.mp hsorted).2.1 elapsedMs later p surface now

/-- Two events at one time, of which the second lights a panel up that refuses to, and a third: the
first of them has run, the second is the next, and on a panel that does not refuse, two advances at
one tick do what a single one does. -/
theorem runs_in_order_refused :
    let script : Script := ⟨0, [⟨5, none, none, false, some 1, none⟩,
      ⟨5, none, none, false, none, some .exit⟩, ⟨40, none, none, true, none, none⟩]⟩
    let refusing : Recorder := ⟨.character, 20, 2, ["backlight"], #[]⟩
    let willing : Recorder := ⟨.character, 20, 2, [], #[]⟩
    let panel := Panel.forSurface willing
    let player := ((ofScript script).advance 40 panel refusing 7).player
    script.events.take 1 ++ player.pending = script.events ∧ player.isFinished = false ∧
      (let first := player.advance 20 panel willing 9
       let second := first.player.advance 40 first.panel first.surface 9
       player.advance (max 20 40) panel willing 9 = { second with ran := 1 + second.ran }) := by
  intro script refusing willing panel player
  have hread : Script.parse
      ("events:\n- at_ms: 5\n  image: 1\n- at_ms: 5\n  power_saving: exit\n" ++
      "- at_ms: 40\n  clear_spinner: true\n") = .ok script :=
    eq_ok_of_toOption (by decide +kernel)
  have hran : (ofScript script).completed 40 panel refusing 7 = script.events.take 1 := rfl
  have hreached : Reached script (script.events.take 1) player :=
    hran ▸ Reached.start.advance 40 panel refusing 7
  obtain ⟨hsplit, hfinished, hnext⟩ := runs_in_order hread hreached
  refine ⟨hsplit, by rw [Bool.eq_false_iff, Ne, hfinished]; decide, ?_⟩
  exact (hnext 20 panel willing 9).2 40 rfl

end Player
end MidiPanel
