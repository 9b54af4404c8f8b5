import MidiPanel.Proofs.Script.Playable
import MidiPanel.Script.Player

/-!
# The first offender of a script

An event may break three rules: its time must not fall back behind that of the event before it, it
must do something, and its message must begin with a status byte. A script is refused for the first
event that breaks one of them. If that event breaks several, the one it is refused for is its time
before the missing action, and that before the status byte.

The search carries the time of the event it has just passed. What it finds is said here about the
list as a whole: `timeBefore` is the time that stands in front of an event in the list.

Results:
* `apply_of_not_acts`: what the second rule keeps out are events that do nothing.
* `defect_eq_some_iff`: the defect that is told of one event.
* `firstDefect_eq_some_iff`: the search, by induction on the events.
* `check_tells_first_offender`: what a script is accepted for, and what it is refused for.
-/

namespace MidiPanel
namespace ScriptEvent

/-- At least one action is there. -/
def Acts (e : ScriptEvent) : Prop :=
  e.midi.isSome ∨ e.message.isSome ∨ e.clearSpinner = true ∨ e.image.isSome ∨ e.powerSaving.isSome

/-- A message, if there is one, begins with a status byte. -/
def HasStatus (e : ScriptEvent) : Prop :=
  ∀ status data1 data2, e.midi = some (status, data1, data2) → 0x80 ≤ status

theorem isEmpty_eq_false_iff_acts {e : ScriptEvent} : e.isEmpty = false ↔ e.Acts := by
  unfold isEmpty Acts
  simp only [Bool.and_eq_false_iff, Option.isNone_eq_false_iff, Bool.not_eq_false']
  tauto

theorem badStatus_eq_some_iff {e : ScriptEvent} {status : UInt8} :
    e.badStatus? = some status ↔
      status < 0x80 ∧ ∃ data1 data2, e.midi = some (status, data1, data2) := by
  unfold badStatus?
  cases e.midi with
  | none => simp
  | some bytes =>
    by_cases hlow : bytes.1 < 0x80 <;> simp [hlow, Prod.ext_iff] <;> grind

theorem badStatus_eq_none_iff_hasStatus {e : ScriptEvent} : e.badStatus? = none ↔ e.HasStatus := by
  rw [Option.eq_none_iff_forall_ne_some]
  constructor
  · intro hnone status data1 data2 hmidi
    refine UInt8.not_lt.mp fun hlow => hnone status ?_
    exact badStatus_eq_some_iff.mpr ⟨hlow, data1, data2, hmidi⟩
  · intro hhigh status hbad
    obtain ⟨hlow, data1, data2, hmidi⟩ := badStatus_eq_some_iff.mp hbad
    exact UInt8.not_lt.mpr (hhigh status data1 data2 hmidi) hlow

/-- An event without an action leaves everything as it is. -/
theorem apply_of_not_acts {σ : Type} [Surface σ] {e : ScriptEvent} (h : ¬ e.Acts) (p : Panel)
    (surface : σ) (now : Tick) : e.apply p surface now = ⟨p, surface, none⟩ := by
  obtain ⟨atMs, midi, message, clearSpinner, image, powerSaving⟩ := e
  simp only [Acts, not_or, Bool.not_eq_true, Option.isSome_eq_false_iff,
    Option.isNone_iff_eq_none] at h
  obtain ⟨rfl, rfl, rfl, rfl, rfl⟩ := h
  rfl

end ScriptEvent

namespace Script

/-! ## One event -/

/-- What an event breaks behind one at `previous`. -/
inductive Breaks (previous : UInt32) (e : ScriptEvent) : Defect → Prop where
  | tooEarly (hearly : e.atMs < previous) : Breaks previous e (.tooEarly e.atMs previous)
  | noAction (hidle : ¬ e.Acts) : Breaks previous e .noAction
  | badStatus {status data1 data2 : UInt8} (hmidi : e.midi = some (status, data1, data2))
      (hlow : status < 0x80) : Breaks previous e (.badStatus status)

/-- The order in which the defects of one event are told. An event has at most one of the last two,
as its message is an action. -/
inductive Defect.Before : Defect → Defect → Prop where
  | time_action (atMs previous : UInt32) : Before (.tooEarly atMs previous) .noAction
  | time_status (atMs previous : UInt32) (status : UInt8) :
      Before (.tooEarly atMs previous) (.badStatus status)
  | action_status (status : UInt8) : Before .noAction (.badStatus status)

/-- The defect told of an event behind one at `previous`: no other that it has comes before. -/
def Tells (previous : UInt32) (e : ScriptEvent) (defect : Defect) : Prop :=
  Breaks previous e defect ∧ ∀ defect', Breaks previous e defect' → ¬ defect'.Before defect

/-- Nothing wrong behind an event at `previous`. -/
def Sound (previous : UInt32) (e : ScriptEvent) : Prop := ∀ defect, ¬ Breaks previous e defect

theorem sound_iff {previous : UInt32} {e : ScriptEvent} :
    Sound previous e ↔ previous ≤ e.atMs ∧ e.Acts ∧ e.HasStatus := by
  constructor
  · intro h
    refine ⟨UInt32.not_lt.mp fun hearly => h _ (.tooEarly hearly),
      not_not.mp fun hidle => h _ (.noAction hidle), fun status data1 data2 hmidi => ?_⟩
    exact UInt8.not_lt.mp fun hlow => h _ (.badStatus hmidi hlow)
  · rintro ⟨hle, hacts, hstatus⟩ defect hbreaks
    cases hbreaks with
    | tooEarly hearly => exact UInt32.not_lt.mpr hle hearly
    | noAction hidle => exact hidle hacts
    | badStatus hmidi hlow => exact UInt8.not_lt.mpr (hstatus _ _ _ hmidi) hlow

theorem defect_eq_none_iff_sound {previous : UInt32} {e : ScriptEvent} :
    defect? previous e = none ↔ Sound previous e := by
  rw [defect_eq_none_iff, sound_iff, ScriptEvent.isEmpty_eq_false_iff_acts,
    ScriptEvent.badStatus_eq_none_iff_hasStatus]

theorem tells_of_defect {previous : UInt32} {e : ScriptEvent} {defect : Defect}
    (h : defect? previous e = some defect) : Tells previous e defect := by
  unfold defect? at h
  split_ifs at h with hearly hempty
  · cases h
    refine ⟨.tooEarly hearly, fun defect' hbreaks hbefore => ?_⟩
    cases hbefore
  · cases h
    have hidle : ¬ e.Acts := by
      rw [← ScriptEvent.isEmpty_eq_false_iff_acts, hempty]
      decide
    refine ⟨.noAction hidle, fun defect' hbreaks hbefore => ?_⟩
    cases hbefore
    cases hbreaks
    contradiction
  · obtain ⟨status, hbad, rfl⟩ := Option.map_eq_some_iff.mp h
    obtain ⟨hlow, data1, data2, hmidi⟩ := ScriptEvent.badStatus_eq_some_iff.mp hbad
    have hacts : e.Acts := ScriptEvent.isEmpty_eq_false_iff_acts.mp (Bool.not_eq_true _ ▸ hempty)
    refine ⟨.badStatus hmidi hlow, fun defect' hbreaks hbefore => ?_⟩
    cases hbreaks with
    | tooEarly hearly' => exact hearly hearly'
    | noAction hidle => exact hidle hacts
    | badStatus => cases hbefore

/-- Of two defects of an event one is told before the other. -/
theorem Breaks.eq_or_before {previous : UInt32} {e : ScriptEvent} {defect defect' : Defect}
    (h : Breaks previous e defect) (h' : Breaks previous e defect') :
    defect = defect' ∨ defect.Before defect' ∨ defect'.Before defect := by
  cases h with
  | tooEarly =>
    cases h' with
    | tooEarly => exact .inl rfl
    | noAction => exact .inr (.inl (.time_action _ _))
    | badStatus => exact .inr (.inl (.time_status _ _ _))
  | noAction =>
    cases h' with
    | tooEarly => exact .inr (.inr (.time_action _ _))
    | noAction => exact .inl rfl
    | badStatus => exact .inr (.inl (.action_status _))
  | badStatus hmidi =>
    cases h' with
    | tooEarly => exact .inr (.inr (.time_status _ _ _))
    | noAction => exact .inr (.inr (.action_status _))
    | badStatus hmidi' =>
      rw [hmidi] at hmidi'
      cases hmidi'
      exact .inl rfl

/-- At most one defect is told of an event. -/
theorem Tells.eq {previous : UInt32} {e : ScriptEvent} {defect defect' : Defect}
    (h : Tells previous e defect) (h' : Tells previous e defect') : defect = defect' := by
  obtain heq | hbefore | hbefore := h.1.eq_or_before h'.1
  · exact heq
  · exact (h'.2 _ h.1 hbefore).elim
  · exact (h.2 _ h'.1 hbefore).elim

theorem defect_eq_some_iff {previous : UInt32} {e : ScriptEvent} {defect : Defect} :
    defect? previous e = some defect ↔ Tells previous e defect := by
  refine ⟨tells_of_defect, fun htells => ?_⟩
  cases hfound : defect? previous e with
  | none => exact (defect_eq_none_iff_sound.mp hfound _ htells.1).elim
  | some defect' => rw [(tells_of_defect hfound).eq htells]

/-! ## A list of events -/

/-- The time in front of an event in a list behind `previous`. -/
def timeBefore (previous : UInt32) (events : List ScriptEvent) (index : Nat) : UInt32 :=
  (previous :: events.map ScriptEvent.atMs)[index]?.getD 0

/-- The event with this number has this defect told of it, and nothing is wrong with those in
front of it. -/
def FirstOffender (previous : UInt32) (events : List ScriptEvent) (index : Nat)
    (defect : Defect) : Prop :=
  (∃ e, events[index]? = some e ∧ Tells (timeBefore previous events index) e defect) ∧
    ∀ k < index, ∀ e, events[k]? = some e → Sound (timeBefore previous events k) e

variable {previous : UInt32} {e : ScriptEvent} {events : List ScriptEvent}

theorem firstOffender_zero {defect : Defect} :
    FirstOffender previous (e :: events) 0 defect ↔ Tells previous e defect := by
  simp [FirstOffender, timeBefore]

/-- An event behind a sound one is the first offender of the events that begin with this one if it
is the first of those that begin behind it. -/
theorem firstOffender_succ {index : Nat} {defect : Defect} :
    FirstOffender previous (e :: events) (index + 1) defect ↔
      Sound previous e ∧ FirstOffender e.atMs events index defect := by
  have htime (k : Nat) :
      timeBefore previous (e :: events) (k + 1) = timeBefore e.atMs events k := rfl
  unfold FirstOffender
  rw [htime, List.getElem?_cons_succ]
  constructor
  · rintro ⟨hat, hfront⟩
    refine ⟨hfront 0 (Nat.succ_pos _) e rfl, hat, fun k hk e' he' => ?_⟩
    exact hfront (k + 1) (Nat.succ_lt_succ hk) e' he'
  · rintro ⟨hsound, hat, hfront⟩
    refine ⟨hat, fun k hk e' he' => ?_⟩
    cases k with
    | zero =>
      cases he'
      exact hsound
    | succ k => exact hfront k (Nat.lt_of_succ_lt_succ hk) e' he'

/-- The search finds the first offender, counted on from `number`. -/
theorem firstDefect_eq_some_iff {number found : Nat} {defect : Defect} :
    firstDefect? number previous events = some (found, defect) ↔
      ∃ index, found = number + index ∧ FirstOffender previous events index defect := by
  induction events generalizing number previous with
  | nil => simp [firstDefect?, FirstOffender]
  | cons e events ih =>
    rw [firstDefect?]
    cases hfound : defect? previous e with
    | some defect' =>
      -- the search ends here, and no event behind an unsound one is the first offender
      have htells := defect_eq_some_iff.mp hfound
      constructor
      · intro h
        cases h
        exact ⟨0, rfl, firstOffender_zero.mpr htells⟩
      · rintro ⟨index, rfl, hoffender⟩
        cases index with
        | zero =>
          rw [htells.eq (firstOffender_zero.mp hoffender)]
          rfl
        | succ index => exact ((firstOffender_succ.mp hoffender).1 _ htells.1).elim
    | none =>
      have hsound := defect_eq_none_iff_sound.mp hfound
      refine ih.trans ⟨?_, ?_⟩
      · rintro ⟨index, rfl, hoffender⟩
        exact ⟨index + 1, by omega, firstOffender_succ.mpr ⟨hsound, hoffender⟩⟩
      · rintro ⟨index, rfl, hoffender⟩
        cases index with
        | zero => exact (hsound _ (firstOffender_zero.mp hoffender).1).elim
        | succ index => exact ⟨index, by omega, (firstOffender_succ.mp hoffender).2⟩

/-! ## A script -/

/-- The three rules for a script as a whole. -/
structure Playable (s : Script) : Prop where
  inOrder : s.events.Pairwise (·.atMs ≤ ·.atMs)
  acts : ∀ e ∈ s.events, e.Acts
  hasStatus : ∀ e ∈ s.events, e.HasStatus

theorem firstDefectOf_eq_none_iff {s : Script} : s.firstDefectOf? = none ↔ s.Playable := by
  have hstart : ∀ e ∈ s.events, 0 ≤ e.atMs := fun e _ => UInt32.le_iff_toNat_le.mpr (Nat.zero_le _)
  rw [firstDefectOf?, firstDefect_eq_none_iff]
  simp only [ScriptEvent.isEmpty_eq_false_iff_acts, ScriptEvent.badStatus_eq_none_iff_hasStatus]
  constructor
  · rintro ⟨-, hsorted, hgood⟩
    exact ⟨hsorted, fun e he => (hgood e he).1, fun e he => (hgood e he).2⟩
  · rintro ⟨hsorted, hacts, hstatus⟩
    exact ⟨hstart, hsorted, fun e he => ⟨hacts e he, hstatus e he⟩⟩

theorem check_eq_error_iff {s : Script} {cause : ScriptError} :
    s.check = .error cause ↔
      ∃ index defect, cause = .invalid index defect ∧
        s.firstDefectOf? = some (index, defect) := by
  unfold check
  cases s.firstDefectOf? with
  | none => simp
  | some found => simp [Prod.ext_iff, eq_comm]

/-- A script is accepted if and only if its times do not fall back, every event does something and
every message begins with a status byte; no event is then later than its end. Any other script is
refused, and what it is refused for is the first event that breaks a rule against the one in front
of it, with the defect of that event that is told first. -/
theorem check_tells_first_offender (s : Script) :
    (s.check = .ok s ↔ s.Playable) ∧
    (¬ s.Playable → ∃ index defect, s.check = .error (.invalid index defect)) ∧
    (∀ index defect,
      s.check = .error (.invalid index defect) ↔ FirstOffender 0 s.events index defect) ∧
    (s.check = .ok s → ∀ e ∈ s.events, e.atMs ≤ s.durationMs) := by
  refine ⟨?_, ?_, ?_, ?_⟩
  · rw [check_eq_ok_iff, firstDefectOf_eq_none_iff, eq_self_iff_true, true_and]
  · intro hbad
    obtain ⟨⟨index, defect⟩, hfound⟩ :=
      Option.ne_none_iff_exists'.mp (mt firstDefectOf_eq_none_iff.mp hbad)
    exact ⟨index, defect, check_eq_error_iff.mpr ⟨index, defect, rfl, hfound⟩⟩
  · intro index defect
    rw [check_eq_error_iff]
    constructor
    · rintro ⟨_, _, ⟨⟩, hfound⟩
      obtain ⟨k, hk, hoffender⟩ := firstDefect_eq_some_iff.mp hfound
      rw [Nat.zero_add] at hk
      exact hk ▸ hoffender
    · intro hoffender
      refine ⟨index, defect, rfl, firstDefect_eq_some_iff.mpr ⟨index, ?_, hoffender⟩⟩
      exact (Nat.zero_add index).symm
  · intro hok e he
    exact atMs_le_durationMs (check_eq_ok_iff.mp hok).2 he

/-- A note at 10 ms and an event at 5 ms that sends no status byte: what is told is the time. With
the second event at 10 ms as well it is the byte, and without that event the script is accepted. -/
theorem check_tells_first_offender_note :
    let note : ScriptEvent := ⟨10, some (0x90, 60, 100), none, false, none, none⟩
    let early : ScriptEvent := ⟨5, some (0x40, 1, 2), none, false, none, none⟩
    let level : ScriptEvent := ⟨10, some (0x40, 1, 2), none, false, none, none⟩
    FirstOffender 0 [note, early] 1 (.tooEarly 5 10) ∧
      FirstOffender 0 [note, level] 1 (.badStatus 0x40) ∧
      (∃ index defect, (⟨0, [note, early]⟩ : Script).check = .error (.invalid index defect)) ∧
      Playable ⟨0, [note]⟩ ∧ ∀ e ∈ [note], e.atMs ≤ (⟨0, [note]⟩ : Script).durationMs := by
  intro note early level
  obtain ⟨-, hrefused, hoffender, -⟩ := check_tells_first_offender ⟨0, [note, early]⟩
  obtain ⟨-, -, hlevel, -⟩ := check_tells_first_offender ⟨0, [note, level]⟩
  obtain ⟨haccepted, -, -, hend⟩ := check_tells_first_offender ⟨0, [note]⟩
  refine ⟨(hoffender 1 _).mp (by rfl), (hlevel 1 _).mp (by rfl), hrefused fun hplayable => ?_,
    haccepted.mp (by rfl), hend (by rfl)⟩
  have hle : note.atMs ≤ early.atMs :=
    List.rel_of_pairwise_cons hplayable.inOrder (List.mem_singleton.mpr rfl)
  exact absurd hle (by decide)

end Script
end MidiPanel
