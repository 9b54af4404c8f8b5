import MidiPanel.Proofs.Monitor.Run

/-!
# What becomes of a note

Three kinds of events concern one note of one channel: a note-on strikes it, a note-off releases it,
and some controllers and the system reset clear every note of the channel. Everything else leaves
the note alone, queries included. What a note remembers is therefore told by the latest of these
events.

Results:
* `handle_note_of_strikes`, `handle_note_of_releases`, `handle_note_of_clears`,
  `handle_note_of_spares`: what one event makes of a note.
* `after_onTime_of_clears`: a clearing silences a note until it is struck again.
* `after_note_of_struck`, `after_note_of_released`: what a note remembers otherwise.
-/

namespace MidiPanel

/-- The controllers that imply all notes off. -/
def notesOffControllers : List Nat := [120, 123, 124, 125, 126, 127]

namespace Event

/-- A note-on of this note. -/
def strikes (channel : Channel) (note : DataByte) : Event → Bool
  | .noteOn c n _ => c = channel ∧ n = note
  | _ => false

/-- A note-off of this note. -/
def releases (channel : Channel) (note : DataByte) : Event → Bool
  | .noteOff c n => c = channel ∧ n = note
  | _ => false

/-- All notes of the channel are forgotten: a system reset, or a controller that implies all notes
off. -/
def clears (channel : Channel) : Event → Bool
  | .controlChange c controller _ =>
    c = channel ∧ controller.val ∈ notesOffControllers
  | .systemReset => true
  | _ => false

end Event

/-- A note-on of velocity zero means a note-off, so that a note-on has a velocity. -/
theorem ShortMessage.velocity_ne_zero {message : ShortMessage} {channel : Channel}
    {key velocity : DataByte} (h : message.event = .noteOn channel key velocity) :
    velocity ≠ 0 := by
  unfold event at h
  dsimp only at h
  split at h
  · cases h
  · split at h
    · cases h
    · split at h
      · cases h
      next hne =>
        cases h
        exact hne
    · cases h
    · cases h

namespace ChannelState

theorem notes_controlChange_of_mem {c : ChannelState} {controller value : DataByte}
    (h : controller.val ∈ notesOffControllers) :
    (c.controlChange controller value).notes = .replicate 128 .silent := by
  simp only [notesOffControllers, List.mem_cons, List.not_mem_nil, or_false] at h
  unfold controlChange
  rcases h with h | h | h | h | h | h <;> rw [h] <;> rfl

theorem notes_controlChange_of_not_mem {c : ChannelState} {controller value : DataByte}
    (h : controller.val ∉ notesOffControllers) :
    (c.controlChange controller value).notes = c.notes := by
  unfold controlChange
  split
  case h_5 heq | h_6 heq | h_7 heq | h_8 heq | h_9 heq | h_10 heq =>
    simp [heq, notesOffControllers] at h
  all_goals rfl

end ChannelState

namespace Monitor

/-- The input is a message whose event is of this kind. -/
def Input.brings (kind : Event → Bool) : Input → Bool
  | .message packed _ => kind (ShortMessage.unpack packed).event
  | .query _ => false

/-- What the monitor knows of one note. -/
def note (m : Monitor) (channel : Channel) (key : DataByte) : NoteState :=
  (m.channels.get channel).notes.get key

variable {m : Monitor} {channel : Channel} {key : DataByte} {event : Event} {now : Tick}

theorem modifyChannel_channels (m : Monitor) (channel other : Channel)
    (f : ChannelState → ChannelState) :
    (m.modifyChannel channel f).channels.get other =
      if channel = other then f (m.channels.get channel) else m.channels.get other := by
  simp [modifyChannel, get_eq_getElem, Vector.getElem_set, Fin.ext_iff]

theorem note_modifyChannel_of_ne {other : Channel} (h : other ≠ channel)
    (f : ChannelState → ChannelState) :
    (m.modifyChannel other f).note channel key = m.note channel key := by
  unfold note
  rw [modifyChannel_channels, if_neg h]

/-! ## One event -/

theorem handle_note_of_strikes (h : event.strikes channel key) (now : Tick) :
    ∃ velocity, event = .noteOn channel key velocity ∧
      (m.handle event now).note channel key = ⟨some now, none, velocity⟩ := by
  cases event with
  | noteOn c n velocity =>
    obtain ⟨rfl, rfl⟩ : c = channel ∧ n = key := by simpa [Event.strikes] using h
    refine ⟨velocity, rfl, ?_⟩
    unfold note handle
    dsimp only
    rw [modifyChannel_channels, if_pos rfl]
    simp [ChannelState.noteOn, get_eq_getElem]
  | noteOff | controlChange | systemReset | unhandled => cases h

theorem handle_note_of_releases (h : event.releases channel key) (now : Tick) :
    (m.handle event now).note channel key =
      { m.note channel key with offTime := some now } := by
  cases event with
  | noteOff c n =>
    obtain ⟨rfl, rfl⟩ : c = channel ∧ n = key := by simpa [Event.releases] using h
    unfold note handle
    dsimp only
    rw [modifyChannel_channels, if_pos rfl]
    simp [ChannelState.noteOff, get_eq_getElem]
  | noteOn | controlChange | systemReset | unhandled => cases h

theorem handle_note_of_clears (h : event.clears channel) (now : Tick) :
    (m.handle event now).note channel key = .silent := by
  cases event with
  | controlChange c controller value =>
    obtain ⟨rfl, hmode⟩ : c = channel ∧ controller.val ∈ notesOffControllers :=
      of_decide_eq_true h
    unfold note handle
    dsimp only
    rw [modifyChannel_channels, if_pos rfl]
    rw [ChannelState.notes_controlChange_of_mem hmode, get_eq_getElem, Vector.getElem_replicate]
  | systemReset => simp [note, handle, ChannelState.initial, get_eq_getElem]
  | noteOn | noteOff | unhandled => cases h

theorem handle_note_of_spares (hs : ¬ event.strikes channel key) (hr : ¬ event.releases channel key)
    (hc : ¬ event.clears channel) (now : Tick) :
    (m.handle event now).note channel key = m.note channel key := by
  cases event with
  | noteOn c n velocity =>
    by_cases hchannel : c = channel
    · subst hchannel
      have hn : n ≠ key := by simpa [Event.strikes] using hs
      unfold note handle
      dsimp only
      rw [modifyChannel_channels, if_pos rfl]
      simp [ChannelState.noteOn, get_eq_getElem, Fin.val_ne_of_ne hn]
    · exact note_modifyChannel_of_ne hchannel _
  | noteOff c n =>
    by_cases hchannel : c = channel
    · subst hchannel
      have hn : n ≠ key := by simpa [Event.releases] using hr
      unfold note handle
      dsimp only
      rw [modifyChannel_channels, if_pos rfl]
      simp [ChannelState.noteOff, get_eq_getElem, Fin.val_ne_of_ne hn]
    · exact note_modifyChannel_of_ne hchannel _
  | controlChange c controller value =>
    by_cases hchannel : c = channel
    · subst hchannel
      have hmode : controller.val ∉ notesOffControllers := fun hmem =>
        hc (decide_eq_true ⟨rfl, hmem⟩)
      unfold note handle
      dsimp only
      rw [modifyChannel_channels, if_pos rfl, ChannelState.notes_controlChange_of_not_mem hmode]
    · exact note_modifyChannel_of_ne hchannel _
  | systemReset => exact absurd rfl hc
  | unhandled => rfl

/-! ## One input -/

variable {input : Input} {history : List Input}

theorem next_note_of_clears (h : input.brings (Event.clears channel)) :
    (m.next input).note channel key = .silent := by
  cases input with
  | message packed now => exact handle_note_of_clears h now
  | query now => cases h

theorem next_note_of_strikes {packed : UInt32}
    (h : (ShortMessage.unpack packed).event.strikes channel key) (now : Tick) :
    ∃ velocity, velocity ≠ 0 ∧
      (m.next (.message packed now)).note channel key = ⟨some now, none, velocity⟩ := by
  obtain ⟨velocity, hevent, hnote⟩ := handle_note_of_strikes (m := m) h now
  exact ⟨velocity, ShortMessage.velocity_ne_zero hevent, hnote⟩

theorem next_note_of_releases {packed : UInt32}
    (h : (ShortMessage.unpack packed).event.releases channel key) (now : Tick) :
    (m.next (.message packed now)).note channel key =
      { m.note channel key with offTime := some now } :=
  handle_note_of_releases h now

theorem next_note_of_spares (hs : ¬ input.brings (Event.strikes channel key))
    (hr : ¬ input.brings (Event.releases channel key))
    (hc : ¬ input.brings (Event.clears channel)) :
    (m.next input).note channel key = m.note channel key := by
  cases input with
  | message packed now => exact handle_note_of_spares hs hr hc now
  | query now => rfl

/-- Short of a note-on and of a clearing, only the time of the note-off can change. -/
theorem next_note_of_unstruck (hs : ¬ input.brings (Event.strikes channel key))
    (hc : ¬ input.brings (Event.clears channel)) :
    ∃ off, (m.next input).note channel key = { m.note channel key with offTime := off } := by
  by_cases hr : input.brings (Event.releases channel key)
  · cases input with
    | message packed now => exact ⟨some now, handle_note_of_releases hr now⟩
    | query now => cases hr
  · exact ⟨(m.note channel key).offTime, next_note_of_spares hs hr hc⟩

/-! ## Histories -/

theorem after_note_of_spares (hs : ∀ input ∈ history, ¬ input.brings (Event.strikes channel key))
    (hr : ∀ input ∈ history, ¬ input.brings (Event.releases channel key))
    (hc : ∀ input ∈ history, ¬ input.brings (Event.clears channel)) :
    (m.after history).note channel key = m.note channel key := by
  refine after_invariant (P := fun m' => m'.note channel key = m.note channel key) ?_ rfl
  intro input hmem m' h
  rw [next_note_of_spares (hs input hmem) (hr input hmem) (hc input hmem), h]

theorem after_note_of_unstruck (hs : ∀ input ∈ history, ¬ input.brings (Event.strikes channel key))
    (hc : ∀ input ∈ history, ¬ input.brings (Event.clears channel)) :
    ∃ off, (m.after history).note channel key = { m.note channel key with offTime := off } := by
  refine after_invariant (P := fun m' => ∃ off, m'.note channel key =
    { m.note channel key with offTime := off }) ?_ ⟨(m.note channel key).offTime, rfl⟩
  rintro input hmem m' ⟨off, h⟩
  obtain ⟨off', h'⟩ := next_note_of_unstruck (m := m') (hs input hmem) (hc input hmem)
  exact ⟨off', by rw [h', h]⟩

/-- A clearing silences the note until it is struck again. -/
theorem after_onTime_of_clears (hs : ∀ input ∈ history, ¬ input.brings (Event.strikes channel key))
    (hc : ∃ input ∈ history, input.brings (Event.clears channel)) :
    ((m.after history).note channel key).onTime = none := by
  obtain ⟨clearing, hmem, hclears⟩ := hc
  obtain ⟨before, rest, rfl⟩ := List.append_of_mem hmem
  rw [after_append, after_cons]
  refine after_invariant (P := fun m' => (m'.note channel key).onTime = none) ?_ ?_
  · intro input hrest m' h
    by_cases hclear : input.brings (Event.clears channel)
    · rw [next_note_of_clears hclear]
      rfl
    · have hin : input ∈ before ++ clearing :: rest :=
        List.mem_append_right before (List.mem_cons_of_mem clearing hrest)
      obtain ⟨off, hoff⟩ := next_note_of_unstruck (m := m') (hs input hin) hclear
      rw [hoff]
      exact h
  · rw [next_note_of_clears hclears]
    rfl

/-! ## From a note-on -/

variable {strike stop : UInt32} {onset release : Tick} {held rest : List Input}

theorem after_note_of_struck (hstrike : (ShortMessage.unpack strike).event.strikes channel key)
    (hs : ∀ input ∈ rest, ¬ input.brings (Event.strikes channel key))
    (hc : ∀ input ∈ rest, ¬ input.brings (Event.clears channel)) :
    ∃ velocity off, velocity ≠ 0 ∧
      (m.after (.message strike onset :: rest)).note channel key = ⟨some onset, off, velocity⟩ := by
  obtain ⟨velocity, hvelocity, hstruck⟩ := next_note_of_strikes (m := m) hstrike onset
  rw [after_cons]
  generalize m.next _ = m₁ at hstruck ⊢
  obtain ⟨off, hnote⟩ := after_note_of_unstruck (m := m₁) hs hc
  rw [hstruck] at hnote
  exact ⟨velocity, off, hvelocity, hnote⟩

theorem after_note_of_released (hstrike : (ShortMessage.unpack strike).event.strikes channel key)
    (hstop : (ShortMessage.unpack stop).event.releases channel key)
    (hs : ∀ input ∈ held ++ rest, ¬ input.brings (Event.strikes channel key))
    (hr : ∀ input ∈ held ++ rest, ¬ input.brings (Event.releases channel key))
    (hc : ∀ input ∈ held ++ rest, ¬ input.brings (Event.clears channel)) :
    ∃ velocity, velocity ≠ 0 ∧
      (m.after (.message strike onset :: (held ++ .message stop release :: rest))).note
        channel key = ⟨some onset, some release, velocity⟩ := by
  obtain ⟨velocity, hvelocity, hstruck⟩ := next_note_of_strikes (m := m) hstrike onset
  rw [after_cons, after_append, after_cons]
  generalize m.next _ = m₁ at hstruck ⊢
  have hheld : (m₁.after held).note channel key = m₁.note channel key :=
    after_note_of_spares (fun input hin => hs input (List.mem_append_left rest hin))
      (fun input hin => hr input (List.mem_append_left rest hin))
      (fun input hin => hc input (List.mem_append_left rest hin))
  generalize m₁.after held = m₂ at hheld ⊢
  have hoff := next_note_of_releases (m := m₂) hstop release
  generalize m₂.next _ = m₃ at hoff ⊢
  have hnote : (m₃.after rest).note channel key = m₃.note channel key :=
    after_note_of_spares (fun input hin => hs input (List.mem_append_right held hin))
      (fun input hin => hr input (List.mem_append_right held hin))
      (fun input hin => hc input (List.mem_append_right held hin))
  rw [hoff, hheld, hstruck] at hnote
  exact ⟨velocity, hvelocity, hnote⟩

/-- A message that releases a note does not strike it. -/
theorem not_brings_of_releases {packed : UInt32}
    (h : (ShortMessage.unpack packed).event.releases channel key) :
    ¬ (Input.message packed now).brings (Event.strikes channel key) := by
  unfold Input.brings
  cases hevent : (ShortMessage.unpack packed).event with
  | noteOff c n => simp [hevent, Event.strikes]
  | noteOn | controlChange | systemReset | unhandled =>
    rw [hevent] at h
    cases h

/-- A clearing is not undone by the note-off behind it. -/
theorem after_onTime_of_clears_released
    (hstop : (ShortMessage.unpack stop).event.releases channel key)
    (hs : ∀ input ∈ held ++ rest, ¬ input.brings (Event.strikes channel key))
    (hc : ∃ input ∈ held ++ rest, input.brings (Event.clears channel)) :
    ((m.after (held ++ .message stop release :: rest)).note channel key).onTime = none := by
  obtain ⟨clearing, hmem, hclears⟩ := hc
  refine after_onTime_of_clears ?_ ⟨clearing, ?_, hclears⟩
  · intro input hin
    rcases List.mem_append.mp hin with hheld | hrest
    · exact hs input (List.mem_append_left rest hheld)
    · rcases List.mem_cons.mp hrest with rfl | hrest
      · exact not_brings_of_releases hstop
      · exact hs input (List.mem_append_right held hrest)
  · rcases List.mem_append.mp hmem with hheld | hrest
    · exact List.mem_append_left _ hheld
    · exact List.mem_append_right held (List.mem_cons_of_mem _ hrest)

end Monitor
end MidiPanel
