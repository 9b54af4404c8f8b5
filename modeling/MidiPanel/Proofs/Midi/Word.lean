import MidiPanel.Midi.Message

/-!
# What a packed word means

A packed word carries a status byte and two data bytes of seven bits; its top byte and the highest
bit of each data byte count for nothing. The status byte is a kind and a channel in one: `0x80` for
note-offs, `0x90` for note-ons, `0xB0` for controllers, each plus the number of the channel, and
`0xFF` for the system reset. All other status bytes mean nothing here.

Results:
* `event_eq_iff`: the event of a word, read off its status and its data.
-/

namespace MidiPanel.Word

/-- The status byte of a word. -/
def status (word : UInt32) : Nat := word.toNat % 256

/-- Seven bits of the first data byte. -/
def data1 (word : UInt32) : DataByte := Fin.ofNat 128 (word.toNat / 256)

/-- Seven bits of the second data byte. -/
def data2 (word : UInt32) : DataByte := Fin.ofNat 128 (word.toNat / 65536)

/-- The events that a word can mean, each with what the word must hold for it. -/
inductive Means (word : UInt32) : Event → Prop where
  | noteOff (channel : Channel) (h : status word = 0x80 + channel.val) :
      Means word (.noteOff channel (data1 word))
  /-- A note-on that strikes nothing. -/
  | release (channel : Channel) (h : status word = 0x90 + channel.val)
      (unstruck : data2 word = 0) : Means word (.noteOff channel (data1 word))
  | noteOn (channel : Channel) (h : status word = 0x90 + channel.val)
      (struck : data2 word ≠ 0) : Means word (.noteOn channel (data1 word) (data2 word))
  | controlChange (channel : Channel) (h : status word = 0xB0 + channel.val) :
      Means word (.controlChange channel (data1 word) (data2 word))
  | systemReset (h : status word = 0xFF) : Means word .systemReset
  | unhandled (h : status word ≠ 0xFF) (hoff : status word / 16 ≠ 0x8)
      (hon : status word / 16 ≠ 0x9) (hcontrol : status word / 16 ≠ 0xB) : Means word .unhandled

/-! ## The bytes of a word -/

theorem unpack_status (word : UInt32) :
    (ShortMessage.unpack word).status.toNat = status word := by
  unfold ShortMessage.unpack status
  rw [UInt8.toNat_ofNat']

theorem ofByte_data1 (word : UInt32) :
    DataByte.ofByte (ShortMessage.unpack word).data1 = data1 word := by
  unfold DataByte.ofByte ShortMessage.unpack data1
  apply Fin.ext
  rw [UInt8.toNat_ofNat']
  show word.toNat / 256 % 256 % 128 = word.toNat / 256 % 128
  omega

theorem ofByte_data2 (word : UInt32) :
    DataByte.ofByte (ShortMessage.unpack word).data2 = data2 word := by
  unfold DataByte.ofByte ShortMessage.unpack data2
  apply Fin.ext
  rw [UInt8.toNat_ofNat']
  show word.toNat / 65536 % 256 % 128 = word.toNat / 65536 % 128
  omega

/-- The channel is what the kind leaves of the status byte. -/
theorem status_eq_of_div {word : UInt32} {kind : Nat} (h : status word / 16 = kind) :
    status word = 16 * kind + (ShortMessage.unpack word).channel.val := by
  unfold ShortMessage.channel
  rw [unpack_status]
  show status word = 16 * kind + status word % 16
  omega

theorem status_eq_reset_iff (word : UInt32) :
    (ShortMessage.unpack word).status = 0xFF ↔ status word = 0xFF := by
  rw [← UInt8.toNat_inj, unpack_status]
  rfl

/-! ## The event of a word -/

theorem means_event (word : UInt32) : Means word (ShortMessage.unpack word).event := by
  unfold ShortMessage.event
  dsimp only
  rw [ofByte_data1, ofByte_data2, unpack_status]
  by_cases hreset : status word = 0xFF
  · rw [if_pos ((status_eq_reset_iff word).mpr hreset)]
    exact .systemReset hreset
  · rw [if_neg (mt (status_eq_reset_iff word).mp hreset)]
    split
    next h => exact .noteOff _ (status_eq_of_div h)
    next h =>
      by_cases hstruck : data2 word = 0
      · rw [if_pos hstruck]
        exact .release _ (status_eq_of_div h) hstruck
      · rw [if_neg hstruck]
        exact .noteOn _ (status_eq_of_div h) hstruck
    next h => exact .controlChange _ (status_eq_of_div h)
    next hoff hon hcontrol => exact .unhandled hreset hoff hon hcontrol

/-- A word means one thing only. -/
theorem Means.unique {word : UInt32} {event event' : Event} (h : Means word event)
    (h' : Means word event') : event = event' := by
  have channel_eq {c c' : Channel} {kind : Nat} (h : status word = kind + c.val)
      (h' : status word = kind + c'.val) : c = c' := Fin.ext (by omega)
  cases h with
  | noteOff c h =>
    cases h' with
    | noteOff c' h' => rw [channel_eq h h']
    | _ => omega
  | release c h unstruck =>
    cases h' with
    | release c' h' => rw [channel_eq h h']
    | noteOn c' h' struck => exact absurd unstruck struck
    | _ => omega
  | noteOn c h struck =>
    cases h' with
    | noteOn c' h' => rw [channel_eq h h']
    | release c' h' unstruck => exact absurd unstruck struck
    | _ => omega
  | controlChange c h =>
    cases h' with
    | controlChange c' h' => rw [channel_eq h h']
    | _ => omega
  | systemReset h =>
    cases h' with
    | systemReset => rfl
    | _ => omega
  | unhandled h hoff hon hcontrol =>
    cases h' with
    | unhandled => rfl
    | _ => omega

theorem event_eq_iff (word : UInt32) (event : Event) :
    (ShortMessage.unpack word).event = event ↔ Means word event := by
  constructor
  · rintro rfl
    exact means_event word
  · exact (means_event word).unique

end MidiPanel.Word
