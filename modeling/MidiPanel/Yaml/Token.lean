import MidiPanel.Yaml.Node

/-!
# Tokens

What the layout of a text comes down to: indicators, scalars, and the beginnings and ends of block
collections, which no character shows.
-/

namespace MidiPanel.Yaml

/-- A token. -/
inductive Token where
  /-- Every text ends with this token. -/
  | streamEnd
  | version (major minor : Nat)
  | tagHandle (handle : String) (expansion : Tag)
  | documentStart
  | documentEnd
  | blockSequenceStart
  | blockMappingStart
  | blockEnd
  | flowSequenceStart
  | flowSequenceEnd
  | flowMappingStart
  | flowMappingEnd
  | blockEntry
  | flowEntry
  | key
  | value
  | alias (name : String)
  | anchor (name : String)
  | tag (handle : String) (suffix : Tag)
  | scalar (style : ScalarStyle) (text : String)
  deriving DecidableEq

end MidiPanel.Yaml
