import MidiPanel.Proofs.Midi.Word
import MidiPanel.Proofs.Monitor.NoteHistory
import Mathlib.Logic.Function.Basic

/-!
# Channels by themselves

A channel hears its own messages, the system reset and every query; all other messages pass it by.
Its state, its peak and what is read of it depend on what it has heard alone, so that two histories
in which it hears the same are one history to it. Monitors on which all channels agree are equal;
hence the order in which the messages of different channels come between each other counts for
nothing.

Results:
* `agreeOn_next_of_unheard`: what a channel does not hear leaves it alone.
* `AgreeOn.next`: monitors that agree on a channel go on agreeing on it.
* `agreeOn_after_heardOn`, `told_heardOn`: a history is to a channel what it hears of it.
* `channel_isolation`: two histories alike to a channel, and interleavings of sixteen streams.
-/

namespace MidiPanel

namespace Word

/-- The word is a message of the channel. Status bytes from `0x80` to `0xEF` are of the channel in
their low half; the others are of no channel. -/
def IsOf (channel : Channel) (word : UInt32) : Prop :=
  0x80 ≤ status word ∧ status word < 0xF0 ∧ status word % 16 = channel.val

/-- The word is a message of the channel or the system reset. -/
def Concerns (channel : Channel) (word : UInt32) : Prop := status word = 0xFF ∨ IsOf channel word

instance decidableConcerns (channel : Channel) (word : UInt32) :
    Decidable (Concerns channel word) :=
  inferInstanceAs (Decidable (_ ∨ _ ∧ _ ∧ _))

theorem IsOf.eq_of_concerns {channel other : Channel} {word : UInt32} (h : IsOf channel word)
    (hconcerns : Concerns other word) : other = channel := by
  obtain ⟨-, hsystem, hchannel⟩ := h
  rcases hconcerns with hreset | ⟨-, -, hother⟩
  · omega
  · exact Fin.ext (hother.symm.trans hchannel)

end Word

namespace Event

/-- The event is one of the channel or the system reset. -/
def concerns (channel : Channel) : Event → Bool
  | .noteOff c _ | .noteOn c _ _ | .controlChange c _ _ => c = channel
  | .systemReset => true
  | .unhandled => false

end Event

/-- A word that does not concern a channel means nothing to it. -/
theorem Word.Means.concerns {channel : Channel} {word : UInt32} {event : Event}
    (h : Word.Means word event) (hevent : event.concerns channel) :
    Word.Concerns channel word := by
  have of_kind {c : Channel} (kind : Nat) (hlow : 8 ≤ kind) (hhigh : kind < 15)
      (hstatus : Word.status word = 16 * kind + c.val) (hc : decide (c = channel) = true) :
      Word.Concerns channel word := by
    obtain rfl := of_decide_eq_true hc
    exact .inr ⟨by omega, by omega, by omega⟩
  cases h with
  | noteOff c h => exact of_kind 8 (by decide) (by decide) h hevent
  | release c h _ => exact of_kind 9 (by decide) (by decide) h hevent
  | noteOn c h _ => exact of_kind 9 (by decide) (by decide) h hevent
  | controlChange c h => exact of_kind 11 (by decide) (by decide) h hevent
  | systemReset h => exact .inl h
  | unhandled => cases hevent

namespace Monitor

/-- The input is a message of the channel. -/
def Input.IsOf (channel : Channel) : Input → Prop
  | .message word _ => Word.IsOf channel word
  | .query _ => False

/-- What a channel hears of an input: all of a query, and the three bytes of a message that concerns
it. -/
def Input.heardBy (channel : Channel) : Input → Option Input
  | .message word now =>
    if Word.Concerns channel word then some (.message (ShortMessage.unpack word).pack now) else none
  | .query now => some (.query now)

/-- What a channel hears of a history. -/
def heardOn (channel : Channel) (history : List Input) : List Input :=
  history.filterMap (Input.heardBy channel)

/-- What the queries of a history tell of one channel, with their ticks. -/
def told (m : Monitor) (channel : Channel) (history : List Input) : List (Tick × Reading) :=
  (m.readings history).map fun (now, readings) => (now, readings.get channel)

/-- Two monitors that are the same as far as one channel goes. -/
structure AgreeOn (channel : Channel) (m m' : Monitor) : Prop where
  timings : m.timings = m'.timings
  state : m.channels.get channel = m'.channels.get channel
  peak : m.peaks.get channel = m'.peaks.get channel

variable {channel : Channel} {m m' m'' : Monitor} {input heard : Input}

theorem AgreeOn.refl (channel : Channel) (m : Monitor) : AgreeOn channel m m := ⟨rfl, rfl, rfl⟩

theorem AgreeOn.symm (h : AgreeOn channel m m') : AgreeOn channel m' m :=
  ⟨h.timings.symm, h.state.symm, h.peak.symm⟩

theorem AgreeOn.trans (h : AgreeOn channel m m') (h' : AgreeOn channel m' m'') :
    AgreeOn channel m m'' :=
  ⟨h.timings.trans h'.timings, h.state.trans h'.state, h.peak.trans h'.peak⟩

theorem eq_of_agreeOn (h : ∀ channel, AgreeOn channel m m') : m = m' := by
  have hchannels : m.channels = m'.channels := Vector.ext fun i hi => (h ⟨i, hi⟩).state
  have hpeaks : m.peaks = m'.peaks := Vector.ext fun i hi => (h ⟨i, hi⟩).peak
  have htimings : m.timings = m'.timings := (h 0).timings
  cases m
  cases m'
  cases hchannels
  cases hpeaks
  cases htimings
  rfl

/-! ## One input -/

theorem modifyChannel_get_of_ne {other : Channel} (h : other ≠ channel)
    (f : ChannelState → ChannelState) :
    (m.modifyChannel other f).channels.get channel = m.channels.get channel := by
  rw [modifyChannel_channels, if_neg h]

theorem handle_get_of_not_concerns {event : Event} (h : ¬ event.concerns channel) (now : Tick) :
    (m.handle event now).channels.get channel = m.channels.get channel := by
  cases event with
  | noteOff c n => exact modifyChannel_get_of_ne (fun hc => h (decide_eq_true hc)) _
  | noteOn c n velocity => exact modifyChannel_get_of_ne (fun hc => h (decide_eq_true hc)) _
  | controlChange c k value => exact modifyChannel_get_of_ne (fun hc => h (decide_eq_true hc)) _
  | systemReset => exact absurd rfl h
  | unhandled => rfl

theorem agreeOn_next_of_unheard (m : Monitor) (h : input.heardBy channel = none) :
    AgreeOn channel (m.next input) m := by
  cases input with
  | query now => cases h
  | message word now =>
    have hunheard : ¬ Word.Concerns channel word := by
      intro hconcerns
      unfold Input.heardBy at h
      dsimp only at h
      rw [if_pos hconcerns] at h
      cases h
    refine ⟨receive_timings m word now, ?_, congrArg (·.get channel) (receive_peaks m word now)⟩
    exact handle_get_of_not_concerns (mt (Word.means_event word).concerns hunheard) now

/-- What a channel hears does to a monitor what the input does. -/
theorem next_of_heardBy (m : Monitor) (h : input.heardBy channel = some heard) :
    m.next heard = m.next input := by
  cases input with
  | query now =>
    cases h
    rfl
  | message word now =>
    unfold Input.heardBy at h
    dsimp only at h
    split at h
    · cases h
      show m.handle (ShortMessage.unpack (ShortMessage.unpack word).pack).event now =
        m.handle (ShortMessage.unpack word).event now
      rw [ShortMessage.unpack_pack]
    · cases h

theorem AgreeOn.modifyChannel (h : AgreeOn channel m m') (other : Channel)
    (f : ChannelState → ChannelState) :
    (m.modifyChannel other f).channels.get channel =
      (m'.modifyChannel other f).channels.get channel := by
  rw [modifyChannel_channels, modifyChannel_channels]
  split
  next hc => rw [hc, h.state]
  next => exact h.state

theorem AgreeOn.handle (h : AgreeOn channel m m') (event : Event) (now : Tick) :
    AgreeOn channel (m.handle event now) (m'.handle event now) := by
  refine ⟨?_, ?_, ?_⟩
  · rw [handle_timings, handle_timings, h.timings]
  · cases event with
    | noteOff c n => exact h.modifyChannel c _
    | noteOn c n velocity => exact h.modifyChannel c _
    | controlChange c k value => exact h.modifyChannel c _
    | systemReset => rfl
    | unhandled => exact h.state
  · rw [handle_peaks, handle_peaks, h.peak]

theorem AgreeOn.loudness (h : AgreeOn channel m m') (now : Tick) :
    m.loudness channel now = m'.loudness channel now := by
  have henvelope : m.noteEnvelope channel now = m'.noteEnvelope channel now := by
    unfold noteEnvelope
    rw [h.timings]
  have hstate : m.channels[channel] = m'.channels[channel] := h.state
  unfold Monitor.loudness
  rw [henvelope, hstate]

theorem AgreeOn.reading (h : AgreeOn channel m m') (now : Tick) :
    (m.query now).1.get channel = (m'.query now).1.get channel := by
  rw [query_reading, query_reading, h.peak, h.timings, h.loudness]

theorem AgreeOn.query (h : AgreeOn channel m m') (now : Tick) :
    AgreeOn channel (m.query now).2 (m'.query now).2 := by
  refine ⟨h.timings, h.state, ?_⟩
  rw [query_peak, query_peak, h.peak, h.timings, h.loudness]

theorem AgreeOn.next (h : AgreeOn channel m m') (input : Input) :
    AgreeOn channel (m.next input) (m'.next input) := by
  cases input with
  | message word now => exact h.handle _ now
  | query now => exact h.query now

/-! ## Histories -/

theorem agreeOn_after_heardOn (h : AgreeOn channel m m') (history : List Input) :
    AgreeOn channel (m.after history) (m'.after (heardOn channel history)) := by
  induction history generalizing m m' with
  | nil => exact h
  | cons input history ih =>
    unfold heardOn
    cases hheard : input.heardBy channel with
    | none =>
      rw [List.filterMap_cons_none hheard, after_cons]
      exact ih ((agreeOn_next_of_unheard m hheard).trans h)
    | some heard =>
      rw [List.filterMap_cons_some hheard, after_cons, after_cons, next_of_heardBy m' hheard]
      exact ih (h.next input)

theorem told_message (m : Monitor) (channel : Channel) (word : UInt32) (now : Tick)
    (history : List Input) :
    m.told channel (.message word now :: history) =
      (m.next (.message word now)).told channel history := rfl

theorem told_query (m : Monitor) (channel : Channel) (now : Tick) (history : List Input) :
    m.told channel (.query now :: history) =
      (now, (m.query now).1.get channel) :: (m.next (.query now)).told channel history := rfl

theorem told_heardOn (h : AgreeOn channel m m') (history : List Input) :
    m.told channel history = m'.told channel (heardOn channel history) := by
  induction history generalizing m m' with
  | nil => rfl
  | cons input history ih =>
    unfold heardOn
    cases input with
    | query now =>
      have hheard : (Input.query now).heardBy channel = some (.query now) := rfl
      rw [List.filterMap_cons_some hheard, told_query, told_query, h.reading]
      exact congrArg _ (ih (h.next (.query now)))
    | message word now =>
      by_cases hconcerns : Word.Concerns channel word
      · have hheard : (Input.message word now).heardBy channel =
            some (.message (ShortMessage.unpack word).pack now) := if_pos hconcerns
        rw [List.filterMap_cons_some hheard, told_message, told_message, next_of_heardBy m' hheard]
        exact ih (h.next (.message word now))
      · have hheard : (Input.message word now).heardBy channel = none := if_neg hconcerns
        rw [List.filterMap_cons_none hheard, told_message]
        exact ih ((agreeOn_next_of_unheard m hheard).trans h)

/-- Histories in which every channel hears the same make the same of a monitor. -/
theorem after_eq_of_heardOn {history history' : List Input}
    (same : ∀ channel, heardOn channel history = heardOn channel history') (m : Monitor) :
    m.after history = m.after history' := by
  refine eq_of_agreeOn fun channel => ?_
  have hleft := agreeOn_after_heardOn (.refl channel m) history
  have hright := agreeOn_after_heardOn (.refl channel m) history'
  rw [same channel] at hleft
  exact hleft.trans hright.symm

/-! ## Interleavings -/

/-- A history that takes its inputs from sixteen streams, each stream in its order. -/
inductive Interleaves : (Channel → List Input) → List Input → Prop where
  | nil : Interleaves (fun _ => []) []
  | cons {streams : Channel → List Input} {history : List Input} (channel : Channel)
      (input : Input) (h : Interleaves streams history) :
      Interleaves (Function.update streams channel (input :: streams channel)) (input :: history)

theorem Input.IsOf.heardBy_of_ne {other : Channel} (h : input.IsOf channel)
    (hne : other ≠ channel) : input.heardBy other = none := by
  cases input with
  | query now => cases h
  | message word now => exact if_neg (mt (Word.IsOf.eq_of_concerns h) hne)

/-- If every stream is of its channel, a channel hears its stream. -/
theorem Interleaves.heardOn {streams : Channel → List Input} {history : List Input}
    (h : Interleaves streams history)
    (own : ∀ channel, ∀ input ∈ streams channel, input.IsOf channel) (channel : Channel) :
    heardOn channel history = heardOn channel (streams channel) := by
  induction h with
  | nil => rfl
  | @cons streams history c input h ih =>
    have hinput : input.IsOf c := by
      refine own c input ?_
      rw [Function.update_self]
      exact List.mem_cons_self
    have hrest : ∀ channel, ∀ input ∈ streams channel, input.IsOf channel := by
      intro channel later hlater
      refine own channel later ?_
      by_cases hc : channel = c
      · subst hc
        rw [Function.update_self]
        exact List.mem_cons_of_mem input hlater
      · rwa [Function.update_of_ne hc]
    unfold Monitor.heardOn at ih ⊢
    by_cases hc : channel = c
    · subst hc
      rw [Function.update_self, List.filterMap_cons, List.filterMap_cons, ih hrest]
    · rw [Function.update_of_ne hc, List.filterMap_cons_none (hinput.heardBy_of_ne hc)]
      exact ih hrest

/-- Two histories in which a channel hears the same tell the same of it query by query, and leave
the same state and the same peak of it. Between queries, all interleavings of sixteen streams of
messages, each of its own channel, make the same of every monitor. -/
theorem channel_isolation :
    (∀ (timings : EnvelopeTimings) (channel : Channel) (history history' : List Input),
      heardOn channel history = heardOn channel history' →
        let m := (new timings).after history
        let m' := (new timings).after history'
        (new timings).told channel history = (new timings).told channel history' ∧
          m.channels.get channel = m'.channels.get channel ∧
          m.peaks.get channel = m'.peaks.get channel) ∧
    ∀ (m : Monitor) (streams : Channel → List Input),
      (∀ channel, ∀ input ∈ streams channel, input.IsOf channel) →
        ∀ messages messages', Interleaves streams messages → Interleaves streams messages' →
          m.after messages = m.after messages' := by
  constructor
  · intro timings channel history history' same m m'
    have hself := AgreeOn.refl channel (new timings)
    have hleft := agreeOn_after_heardOn hself history
    rw [same] at hleft
    have hagree : AgreeOn channel m m' := hleft.trans (agreeOn_after_heardOn hself history').symm
    refine ⟨?_, hagree.state, hagree.peak⟩
    rw [told_heardOn hself history, same, ← told_heardOn hself history']
  · intro m streams own messages messages' hmessages hmessages'
    refine after_eq_of_heardOn (fun channel => ?_) m
    rw [hmessages.heardOn own, hmessages'.heardOn own]

/-- A note and a drum, in either order, and a channel that hears the note among other messages. -/
theorem channel_isolation_two :
    let note : Input := .message (ShortMessage.noteOn 0 60 100).pack 5
    let drum : Input := .message (ShortMessage.noteOn 9 36 127).pack 7
    let streams := Function.update (Function.update (fun _ => []) 9 [drum]) 0 [note]
    let history := [note, drum, .query 9]
    let history' := [.message (ShortMessage.controlChange 3 120 0).pack 2, note, .query 9]
    heardOn 0 history = heardOn 0 history' ∧
      (new .standard).told 0 history = (new .standard).told 0 history' ∧
      (∀ channel, ∀ input ∈ streams channel, input.IsOf channel) ∧
      Interleaves streams [note, drum] ∧ Interleaves streams [drum, note] ∧
      (new .standard).after [note, drum] = (new .standard).after [drum, note] := by
  intro note drum streams history history'
  have same : heardOn 0 history = heardOn 0 history' := by decide +kernel
  have own : ∀ channel, ∀ input ∈ streams channel, input.IsOf channel := by
    have hnote : note.IsOf 0 := by
      show 0x80 ≤ Word.status _ ∧ _
      decide +kernel
    have hdrum : drum.IsOf 9 := by
      show 0x80 ≤ Word.status _ ∧ _
      decide +kernel
    intro channel input hinput
    have hstreams : streams channel =
        if channel = 0 then [note] else if channel = 9 then [drum] else [] := by
      simp only [streams, Function.update_apply]
    rw [hstreams] at hinput
    split at hinput
    next h0 => rwa [h0, List.mem_singleton.mp hinput]
    next =>
      split at hinput
      next h9 => rwa [h9, List.mem_singleton.mp hinput]
      next => cases hinput
  have hnoteFirst : Interleaves streams [note, drum] := .cons 0 note (.cons 9 drum .nil)
  have hdrumFirst : Interleaves streams [drum, note] := by
    have hswap : streams = Function.update (Function.update (fun _ => []) 0 [note]) 9 [drum] :=
      Function.update_comm (show (9 : Channel) ≠ 0 by decide) [drum] [note] fun _ => []
    rw [hswap]
    exact .cons 9 drum (.cons 0 note .nil)
  obtain ⟨hhistory, hmessages⟩ := channel_isolation
  exact ⟨same, (hhistory .standard 0 history history' same).1, own, hnoteFirst, hdrumFirst,
    hmessages (new .standard) streams own _ _ hnoteFirst hdrumFirst⟩

end Monitor
end MidiPanel
