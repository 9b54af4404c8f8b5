import MidiPanel.Yaml.Cursor

/-!
# Gaps inside scalars

What stands between two words of a plain or quoted scalar. Blanks between words of one line are
text. Where the scalar goes on in another line, the blanks around the break are none: one line feed
reads as a space, and of more breaks the first is dropped if it is a line feed. A line break behind a
backslash is dropped whatever follows.
-/

namespace MidiPanel.Yaml

/-- The blanks and line breaks since the last word. -/
structure Gap where
  /-- It began with a line break behind a backslash, which is not among the breaks. -/
  escaped : Bool
  /-- The blanks, while there is no line break. -/
  blanks : List Char
  breaks : List Char

namespace Gap

/-- Nothing since the last word. -/
def empty : Gap := ⟨false, [], []⟩

/-- A backslash and a line break. -/
def escapedBreak : Gap := ⟨true, [], []⟩

/-- The gap ends in another line than it began. -/
def crossesLine (g : Gap) : Bool := g.escaped || !g.breaks.isEmpty

def isEmpty (g : Gap) : Bool := !g.crossesLine && g.blanks.isEmpty

/-- Adds a blank or a line break. -/
def push (g : Gap) (c : Char) : Gap :=
  if isBreak c then { g with blanks := [], breaks := g.breaks ++ [c] }
  else if g.crossesLine then g
  else { g with blanks := g.blanks ++ [c] }

/-- What the gap reads as. -/
def text (g : Gap) : List Char :=
  if g.escaped then g.breaks
  else match g.breaks with
    | [] => g.blanks
    | first :: more => if first ≠ '\n' then first :: more else if more.isEmpty then [' '] else more

end Gap
end MidiPanel.Yaml
