import MidiPanel.Monitor.Envelope

/-!
# The state of one MIDI channel

Note-on, note-off and controller messages of a channel change its notes, its volume, pan and
expression. The loudness of a channel is that of its loudest voice, not the sum of its voices.
-/

namespace MidiPanel

/-- What a channel remembers. -/
structure ChannelState where
  notes : Vector NoteState 128
  volume : DataByte
  pan : DataByte
  expression : DataByte
  deriving DecidableEq

namespace ChannelState

/-- Silent, volume 100, pan centred, full expression. -/
def initial : ChannelState := ⟨.replicate 128 .silent, 100, 64, 127⟩

instance : Inhabited ChannelState := ⟨initial⟩

/-- Forgets every note. -/
def notesOff (c : ChannelState) : ChannelState := { c with notes := .replicate 128 .silent }

def noteOff (c : ChannelState) (note : DataByte) (now : Tick) : ChannelState :=
  { c with notes := c.notes.set note.val { c.notes[note] with offTime := some now } note.isLt }

def noteOn (c : ChannelState) (note velocity : DataByte) (now : Tick) : ChannelState :=
  { c with notes := c.notes.set note.val ⟨some now, none, velocity⟩ note.isLt }

/-- The controllers that mean something here. Every channel mode message implies all notes off;
Reset All Controllers leaves volume and pan alone. -/
def controlChange (c : ChannelState) (controller value : DataByte) : ChannelState :=
  match controller.val with
  | 7 => { c with volume := value }
  | 10 => { c with pan := value }
  | 11 => { c with expression := value }
  | 121 => { c with expression := 127 }
  | 120 | 123 | 124 | 125 | 126 | 127 => c.notesOff
  | _ => c

/-- The share of every data byte in the greatest one. -/
def shares : Vector Single 128 := .ofFn fun b => Single.ofNat b.val / 127

/-- A data byte as a share of the greatest one. -/
def share (b : DataByte) : Single := shares[b]

/-- The factor that volume and expression put on every voice. -/
def gain (c : ChannelState) : Single := share c.volume * share c.expression

/-- How loud one note makes a channel of this gain, given the height of its envelope. -/
def contribution (gain envelope : Single) (note : NoteState) : Single :=
  envelope * share note.velocity * gain

/-- The loudest voice. Notes that have not sounded are no voices. -/
def loudest (c : ChannelState) (envelope : NoteState → Single) : Single :=
  let gain := c.gain
  c.notes.foldl (fun (loudest : Single) note =>
    if note.hasSounded then loudest.maximum (contribution gain (envelope note) note)
    else loudest) 0

/-- The loudest voice, between zero and one. -/
def loudness (c : ChannelState) (envelope : NoteState → Single) : Single :=
  (c.loudest envelope).clamp 0 1

end ChannelState
end MidiPanel
