import MidiPanel.Proofs.Midi.Word
import MidiPanel.Proofs.Monitor.NoteHistory
import Mathlib.Data.List.Induction

/-!
# The state of a channel, told from its history

What a monitor remembers of a channel is the latest of a kind of message since the latest of
another: of a note, the note-on since the notes were cleared and the note-off since then; of a
controller, its value since it was put back. Each kind of message puts back a part of its own. The
controllers that imply all notes off leave the controllers alone, Reset All Controllers reaches the
expression only, and the system reset everything.

Results:
* `after_eq_latestSince`: a view that one step sets, puts back or keeps is the latest setting since
  it was put back.
* `handle_note`, `IsSetting.handle`: what one event makes of a note and of a controller.
* `state_eq_latestSince`: the state of a channel behind every history.
-/

namespace MidiPanel

namespace Event

/-- When and how hard a note-on strikes this note. -/
def strike? (channel : Channel) (key : DataByte) (now : Tick) : Event → Option (Tick × DataByte)
  | .noteOn c n velocity => if c = channel ∧ n = key then some (now, velocity) else none
  | _ => none

/-- When a note-off releases this note. -/
def release? (channel : Channel) (key : DataByte) (now : Tick) (event : Event) : Option Tick :=
  if event.releases channel key then some now else none

/-- The value that a controller of the channel is set to. -/
def setting? (channel : Channel) (controller : Nat) : Event → Option DataByte
  | .controlChange c k value => if c = channel ∧ k.val = controller then some value else none
  | _ => none

/-- A system reset, or one of these controllers on the channel. -/
def resets (channel : Channel) (controllers : List Nat) : Event → Bool
  | .controlChange c k _ => c = channel ∧ k.val ∈ controllers
  | .systemReset => true
  | _ => false

/-- An event without any effect: none at all, or a controller without a meaning here. -/
def isIdle : Event → Bool
  | .controlChange _ k _ => k.val ∉ 7 :: 10 :: 11 :: 121 :: notesOffControllers
  | .unhandled => true
  | _ => false

theorem isSome_strike? (channel : Channel) (key : DataByte) (now : Tick) (event : Event) :
    (event.strike? channel key now).isSome = event.strikes channel key := by
  cases event with
  | noteOn c n velocity =>
    unfold strike? strikes
    dsimp only
    split <;> simp_all
  | noteOff | controlChange | systemReset | unhandled => rfl

end Event

namespace Monitor

/-- What a message tells at its tick. -/
def Input.tells {α : Type} (read : Tick → Event → Option α) : Input → Option α
  | .message word now => read now (ShortMessage.unpack word).event
  | .query _ => none

theorem next_message (m : Monitor) (word : UInt32) (now : Tick) :
    m.next (.message word now) = m.handle (ShortMessage.unpack word).event now := rfl

theorem Input.brings_message (kind : Event → Bool) (word : UInt32) (now : Tick) :
    (Input.message word now).brings kind = kind (ShortMessage.unpack word).event := rfl

theorem Input.tells_message {α : Type} (read : Tick → Event → Option α) (word : UInt32)
    (now : Tick) :
    (Input.message word now).tells read = read now (ShortMessage.unpack word).event := rfl

/-- What the latest input tells that lies behind the latest bound. -/
def latestSince {α : Type} (bound : Input → Bool) (tells : Input → Option α)
    (history : List Input) : Option α :=
  (history.reverse.takeWhile fun input => !bound input).findSome? tells

section Latest

variable {α : Type} {bound : Input → Bool} {tells : Input → Option α}

theorem latestSince_concat (history : List Input) (input : Input) :
    latestSince bound tells (history ++ [input]) =
      if bound input then none else (tells input).or (latestSince bound tells history) := by
  unfold latestSince
  rw [List.reverse_concat, List.takeWhile_cons]
  cases hbound : bound input with
  | true => rfl
  | false =>
    simp only [Bool.not_false, if_true, Bool.false_eq_true, if_false, List.findSome?_cons]
    cases tells input <;> rfl

/-- A view of the monitor that a bound puts back to `initial`, that other inputs set to what they
tell, and that all the rest keeps. -/
theorem after_eq_latestSince {β : Type} (view : Monitor → β) {initial : β} {set : α → β}
    (step : ∀ m input, view (m.next input) =
      if bound input then initial else (tells input).elim (view m) set)
    {m : Monitor} (hm : view m = initial) (history : List Input) :
    view (m.after history) = (latestSince bound tells history).elim initial set := by
  induction history using List.reverseRecOn with
  | nil => exact hm
  | append_singleton history input ih =>
    rw [after_append, after_cons, after_nil, step, ih, latestSince_concat]
    cases bound input with
    | true => rfl
    | false => cases tells input <;> rfl

end Latest

/-! ## Notes -/

theorem handle_note (m : Monitor) (channel : Channel) (key : DataByte) (event : Event)
    (now : Tick) :
    (m.handle event now).note channel key =
      if event.clears channel then .silent
      else match event.strike? channel key now, event.release? channel key now with
        | some (onset, velocity), _ => ⟨some onset, none, velocity⟩
        | none, some release => { m.note channel key with offTime := some release }
        | none, none => m.note channel key := by
  by_cases hclears : event.clears channel
  · rw [if_pos hclears]
    exact handle_note_of_clears hclears now
  · rw [if_neg hclears]
    by_cases hstrikes : event.strikes channel key
    · obtain ⟨velocity, rfl, hnote⟩ := handle_note_of_strikes (m := m) hstrikes now
      rw [hnote]
      simp [Event.strike?]
    · have hstrike : event.strike? channel key now = none := by
        rw [← Option.not_isSome_iff_eq_none, Event.isSome_strike?]
        exact hstrikes
      rw [hstrike]
      unfold Event.release?
      by_cases hreleases : event.releases channel key
      · rw [if_pos hreleases]
        exact handle_note_of_releases hreleases now
      · rw [if_neg hreleases]
        exact handle_note_of_spares hstrikes hreleases hclears now

theorem note_new (timings : EnvelopeTimings) (channel : Channel) (key : DataByte) :
    (new timings).note channel key = .silent := by
  simp [note, new, ChannelState.initial, get_eq_getElem]

/-- The onset and the velocity of a note are those of the latest strike since the notes were
cleared. -/
theorem after_note_strike (timings : EnvelopeTimings) (history : List Input) (channel : Channel)
    (key : DataByte) :
    let note := ((new timings).after history).note channel key
    let strike := latestSince (Input.brings (Event.clears channel))
      (Input.tells (Event.strike? channel key)) history
    note.onTime = strike.map Prod.fst ∧ note.velocity = (strike.map Prod.snd).getD 0 := by
  intro note strike
  have hview : (note.onTime, note.velocity) =
      strike.elim (none, 0) fun (onset, velocity) => (some onset, velocity) := by
    refine after_eq_latestSince
      (fun m => ((m.note channel key).onTime, (m.note channel key).velocity)) ?_ ?_ history
    · intro m input
      cases input with
      | query now => rfl
      | message word now =>
        rw [next_message, Input.brings_message, Input.tells_message, handle_note]
        generalize (ShortMessage.unpack word).event = event
        cases event.clears channel with
        | true => rfl
        | false =>
          cases event.strike? channel key now with
          | some strike => rfl
          | none => cases event.release? channel key now <;> rfl
    · rw [note_new]
      rfl
  cases hstrike : strike with
  | none =>
    rw [hstrike] at hview
    exact Prod.mk.inj hview
  | some s =>
    rw [hstrike] at hview
    exact Prod.mk.inj hview

/-- The release of a note is the latest since it was struck or cleared. -/
theorem after_note_offTime (timings : EnvelopeTimings) (history : List Input) (channel : Channel)
    (key : DataByte) :
    (((new timings).after history).note channel key).offTime =
      latestSince (Input.brings fun event => event.clears channel || event.strikes channel key)
        (Input.tells (Event.release? channel key)) history := by
  have hview : (((new timings).after history).note channel key).offTime =
      (latestSince (Input.brings fun event => event.clears channel || event.strikes channel key)
        (Input.tells (Event.release? channel key)) history).elim none some := by
    refine after_eq_latestSince (fun m => (m.note channel key).offTime) ?_ ?_ history
    · intro m input
      cases input with
      | query now => rfl
      | message word now =>
        rw [next_message, Input.brings_message, Input.tells_message, handle_note]
        generalize (ShortMessage.unpack word).event = event
        rw [show event.strikes channel key = _ from (Event.isSome_strike? channel key now event).symm]
        cases event.clears channel with
        | true => rfl
        | false =>
          cases event.strike? channel key now with
          | some strike => rfl
          | none => cases event.release? channel key now <;> rfl
    · rw [note_new]
      rfl
  rw [hview]
  cases latestSince _ _ history <;> rfl

/-! ## Controllers -/

/-- A part of what a channel remembers that one controller sets and that some others, like the
system reset, put back. -/
structure IsSetting (field : ChannelState → DataByte) (controller : Nat) (restoring : List Nat)
    (start : DataByte) : Prop where
  initial : field .initial = start
  noteOff : ∀ state note now, field (state.noteOff note now) = field state
  noteOn : ∀ state note velocity now, field (state.noteOn note velocity now) = field state
  controlChange : ∀ state k value, field (state.controlChange k value) =
    if k.val ∈ restoring then start else if k.val = controller then value else field state

/-- Volume, pan and expression have a controller each; Reset All Controllers puts back the
expression alone. -/
theorem isSetting_controllers : IsSetting ChannelState.volume 7 [] 100 ∧
    IsSetting ChannelState.pan 10 [] 64 ∧ IsSetting ChannelState.expression 11 [121] 127 := by
  refine ⟨⟨rfl, fun _ _ _ => rfl, fun _ _ _ _ => rfl, fun state k value => ?_⟩,
    ⟨rfl, fun _ _ _ => rfl, fun _ _ _ _ => rfl, fun state k value => ?_⟩,
    ⟨rfl, fun _ _ _ => rfl, fun _ _ _ _ => rfl, fun state k value => ?_⟩⟩
  all_goals
    unfold ChannelState.controlChange
    split <;> simp_all [ChannelState.notesOff]

variable {field : ChannelState → DataByte} {controller : Nat} {restoring : List Nat}
  {start : DataByte}

theorem IsSetting.handle (h : IsSetting field controller restoring start) (m : Monitor)
    (channel : Channel) (event : Event) (now : Tick) :
    field ((m.handle event now).channels.get channel) =
      if event.resets channel restoring then start
      else (event.setting? channel controller).getD (field (m.channels.get channel)) := by
  unfold Event.resets Event.setting?
  cases event with
  | noteOff c n =>
    unfold Monitor.handle
    dsimp only
    rw [modifyChannel_channels]
    split
    next hc =>
      rw [h.noteOff, hc]
      rfl
    next => rfl
  | noteOn c n velocity =>
    unfold Monitor.handle
    dsimp only
    rw [modifyChannel_channels]
    split
    next hc =>
      rw [h.noteOn, hc]
      rfl
    next => rfl
  | controlChange c k value =>
    unfold Monitor.handle
    dsimp only
    rw [modifyChannel_channels]
    by_cases hc : c = channel
    · rw [if_pos hc, h.controlChange, hc]
      by_cases hk : k.val ∈ restoring
      · simp [hk]
      · by_cases hcontroller : k.val = controller
        · simp [hcontroller]
        · simp [hk, hcontroller]
    · simp [hc]
  | systemReset => simp [Monitor.handle, get_eq_getElem, h.initial]
  | unhandled => rfl

theorem IsSetting.after (h : IsSetting field controller restoring start)
    (timings : EnvelopeTimings) (history : List Input) (channel : Channel) :
    field (((new timings).after history).channels.get channel) =
      (latestSince (Input.brings (Event.resets channel restoring))
        (Input.tells fun _ => Event.setting? channel controller) history).getD start := by
  have hview : field (((new timings).after history).channels.get channel) =
      (latestSince (Input.brings (Event.resets channel restoring))
        (Input.tells fun _ => Event.setting? channel controller) history).elim start id := by
    refine after_eq_latestSince (fun m => field (m.channels.get channel)) ?_ ?_ history
    · intro m input
      cases input with
      | query now => rfl
      | message word now =>
        rw [next_message, Input.brings_message, Input.tells_message, h.handle]
        cases Event.setting? channel controller (ShortMessage.unpack word).event <;> rfl
    · simp [new, get_eq_getElem, h.initial]
  rw [hview]
  cases latestSince _ _ history <;> rfl

/-! ## The whole state -/

theorem modifyChannel_of_eq {m : Monitor} {channel : Channel} {f : ChannelState → ChannelState}
    (h : f (m.channels.get channel) = m.channels.get channel) : m.modifyChannel channel f = m := by
  unfold modifyChannel
  rw [get_eq_getElem] at h
  show { m with channels := m.channels.set channel.val (f m.channels[channel.val]) channel.isLt } = m
  rw [h, Vector.set_getElem_self]

theorem handle_of_isIdle {event : Event} (h : event.isIdle) (m : Monitor) (now : Tick) :
    m.handle event now = m := by
  cases event with
  | controlChange c k value =>
    show m.modifyChannel c (·.controlChange k value) = m
    refine modifyChannel_of_eq ?_
    have hk : k.val ∉ 7 :: 10 :: 11 :: 121 :: notesOffControllers := of_decide_eq_true h
    unfold ChannelState.controlChange
    split
    case h_11 => rfl
    all_goals simp_all [notesOffControllers]
  | unhandled => rfl
  | noteOn | noteOff | systemReset => cases h

/-- Of every note, its onset and velocity are those of the latest note-on since the notes of the
channel were cleared, and its release that of the latest note-off since then and since that note-on.
Volume and pan have the latest values since the system reset, expression since that and Reset All
Controllers. What a message is depends on its status byte and on seven bits of each data byte, and
a message of any other kind changes nothing at all. -/
theorem state_eq_latestSince (timings : EnvelopeTimings) (history : List Input) (channel : Channel)
    (key : DataByte) :
    let m := (new timings).after history
    let state := m.channels.get channel
    let note := state.notes.get key
    let strike := latestSince (Input.brings (Event.clears channel))
      (Input.tells (Event.strike? channel key)) history
    (note.onTime = strike.map Prod.fst ∧ note.velocity = (strike.map Prod.snd).getD 0 ∧
      note.offTime =
        latestSince (Input.brings fun event => event.clears channel || event.strikes channel key)
          (Input.tells (Event.release? channel key)) history) ∧
    (state.volume = (latestSince (Input.brings (Event.resets channel []))
        (Input.tells fun _ => Event.setting? channel 7) history).getD 100 ∧
      state.pan = (latestSince (Input.brings (Event.resets channel []))
        (Input.tells fun _ => Event.setting? channel 10) history).getD 64 ∧
      state.expression = (latestSince (Input.brings (Event.resets channel [121]))
        (Input.tells fun _ => Event.setting? channel 11) history).getD 127) ∧
    (∀ word event, (ShortMessage.unpack word).event = event ↔ Word.Means word event) ∧
    (∀ word now, (ShortMessage.unpack word).event.isIdle → m.receive word now = m) := by
  intro m state note strike
  obtain ⟨honset, hvelocity⟩ := after_note_strike timings history channel key
  obtain ⟨hvolume, hpan, hexpression⟩ := isSetting_controllers
  refine ⟨⟨honset, hvelocity, after_note_offTime timings history channel key⟩, ⟨?_, ?_, ?_⟩,
    Word.event_eq_iff, ?_⟩
  · exact hvolume.after timings history channel
  · exact hpan.after timings history channel
  · exact hexpression.after timings history channel
  · intro word now hidle
    exact handle_of_isIdle hidle m now

/-- A note that is struck, read and released, between controllers that set and put back. -/
def phrase : List Input :=
  [.message (ShortMessage.controlChange 0 7 90).pack 0,
    .message (ShortMessage.controlChange 0 11 50).pack 5,
    .message (ShortMessage.noteOn 0 60 100).pack 10, .query 20,
    .message (ShortMessage.controlChange 0 121 0).pack 25,
    .message (ShortMessage.noteOn 0 60 0).pack 30]

theorem state_eq_latestSince_phrase :
    let m := (new .standard).after phrase
    let note := (m.channels.get 0).notes.get 60
    (note.onTime = some 10 ∧ note.velocity = 100 ∧ note.offTime = some 30) ∧
      ((m.channels.get 0).volume = 90 ∧ (m.channels.get 0).expression = 127) ∧
      (ShortMessage.unpack 0x5C0).event.isIdle ∧ m.receive 0x5C0 40 = m := by
  intro m note
  obtain ⟨⟨honset, hvelocity, hrelease⟩, ⟨hvolume, -, hexpression⟩, -, hidle⟩ :=
    state_eq_latestSince .standard phrase 0 60
  have hword : (ShortMessage.unpack 0x5C0).event.isIdle := by decide +kernel
  exact ⟨⟨honset.trans (by decide +kernel), hvelocity.trans (by decide +kernel),
    hrelease.trans (by decide +kernel)⟩,
    ⟨hvolume.trans (by decide +kernel), hexpression.trans (by decide +kernel)⟩, hword,
    hidle _ 40 hword⟩

end Monitor
end MidiPanel
