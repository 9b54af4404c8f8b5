/-!
# Lines of text

`split` cuts a text at its line breaks; a text with `n` breaks has `n + 1` lines, the last of which
may be empty.
-/

namespace MidiPanel.Lines

/-- The lines of a text, without the breaks between them. -/
def split (isBreak : Char → Bool) : List Char → List (List Char)
  | [] => [[]]
  | c :: cs =>
    if isBreak c then [] :: split isBreak cs
    else match split isBreak cs with
      | [] => [[c]]
      | line :: lines => (c :: line) :: lines

/-- A line without the carriage return at its end. -/
def dropReturn (line : List Char) : List Char :=
  if line.getLast? = some '\r' then line.dropLast else line

end MidiPanel.Lines
