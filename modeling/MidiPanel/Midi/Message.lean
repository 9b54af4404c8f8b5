/-!
# MIDI short messages

A short message is a status byte and two data bytes, packed into one word with the status in the
low byte. `ShortMessage.event` says what the level meter makes of it. Data bytes count modulo 128,
so that a malformed message can never address a note or controller that does not exist.

Results:
* `unpack_pack`: packing loses nothing.
-/

namespace MidiPanel

/-- One of the sixteen channels. -/
abbrev Channel := Fin 16

/-- Seven bits of data: a note, a velocity, a controller number or value. -/
abbrev DataByte := Fin 128

instance Channel.neZero : @NeZero Nat Zero.ofOfNat0 16 := ⟨by decide⟩

instance DataByte.neZero : @NeZero Nat Zero.ofOfNat0 128 := ⟨by decide⟩

/-- The low seven bits of a byte. -/
def DataByte.ofByte (b : UInt8) : DataByte := Fin.ofNat 128 b.toNat

/-- A status byte and two data bytes. -/
structure ShortMessage where
  status : UInt8
  data1 : UInt8
  data2 : UInt8
  deriving DecidableEq

/-- What a message means to the level meter. -/
inductive Event where
  | noteOff (channel : Channel) (note : DataByte)
  | noteOn (channel : Channel) (note velocity : DataByte)
  | controlChange (channel : Channel) (controller value : DataByte)
  | systemReset
  | unhandled
  deriving DecidableEq

namespace ShortMessage

/-- The status byte of kind `kind` for the low four bits of `channel`. -/
def channelStatus (kind channel : UInt8) : UInt8 := kind ||| (channel &&& 0x0F)

def noteOn (channel note velocity : UInt8) : ShortMessage :=
  ⟨channelStatus 0x90 channel, note, velocity⟩

def noteOff (channel note : UInt8) : ShortMessage := ⟨channelStatus 0x80 channel, note, 0⟩

def controlChange (channel controller value : UInt8) : ShortMessage :=
  ⟨channelStatus 0xB0 channel, controller, value⟩

def systemReset : ShortMessage := ⟨0xFF, 0, 0⟩

/-- Reads the three low bytes of a word, lowest first; the top byte counts for nothing. -/
def unpack (packed : UInt32) : ShortMessage :=
  ⟨UInt8.ofNat packed.toNat, UInt8.ofNat (packed.toNat / 0x100), UInt8.ofNat (packed.toNat / 0x10000)⟩

/-- The message in the three low bytes of a word. -/
def pack (m : ShortMessage) : UInt32 :=
  UInt32.ofNat (m.status.toNat + 0x100 * m.data1.toNat + 0x10000 * m.data2.toNat)

theorem unpack_pack (m : ShortMessage) : unpack m.pack = m := by
  obtain ⟨s, a, b⟩ := m
  have hs := s.toNat_lt
  have ha := a.toNat_lt
  have hb := b.toNat_lt
  simp only [unpack, pack, ShortMessage.mk.injEq, ← UInt8.toNat_inj, UInt8.toNat_ofNat',
    UInt32.toNat_ofNat']
  omega

/-- The channel that the status byte names, whether or not the message is a channel message. -/
def channel (m : ShortMessage) : Channel := Fin.ofNat 16 m.status.toNat

/-- What the message means. System Reset shares its high nibble with all other system messages, so
the whole status byte decides it. A note-on of velocity zero is a note-off. -/
def event (m : ShortMessage) : Event :=
  let data1 := DataByte.ofByte m.data1
  let data2 := DataByte.ofByte m.data2
  if m.status = 0xFF then .systemReset
  else match m.status.toNat / 16 with
    | 0x8 => .noteOff m.channel data1
    | 0x9 => if data2 = 0 then .noteOff m.channel data1 else .noteOn m.channel data1 data2
    | 0xB => .controlChange m.channel data1 data2
    | _ => .unhandled

end ShortMessage
end MidiPanel
