import MidiPanel.Yaml.Node

/-!
# Reading positions

Characters by their part in the layout of a text, and the position of a reader in it. A position
counts lines, columns in characters and bytes from the start of the line; a cursor is a position with
the text that is still unread.
-/

namespace MidiPanel.Yaml

/-! ## Characters -/

def isBreak (c : Char) : Bool :=
  c = '\n' || c = '\r' || c = '\u0085' || c = '\u2028' || c = '\u2029'

def isBlank (c : Char) : Bool := c = ' ' || c = '\t'

/-- The mark that may begin a text or a line; it has a column, but says nothing. -/
def byteOrderMark : Char := '\ufeff'

/-- Nothing, a blank or a line break comes next. -/
def endsWord : List Char → Bool
  | [] => true
  | c :: _ => isBlank c || isBreak c

/-- The characters that a text may hold. -/
def isAllowed (c : Char) : Bool :=
  c = '\t' || isBreak c || (' ' ≤ c && c ≤ '~') || ('\u00a0' ≤ c && c ≤ '\ud7ff') ||
    ('\ue000' ≤ c && c ≤ '\ufffd') || 0x10000 ≤ c.toNat

/-- Writes line breaks in fewer ways: a carriage return, alone or before a line feed, and the next
line character become line feeds. The line and paragraph separators stay what they are. -/
def unifyBreaks : List Char → List Char
  | [] => []
  | c :: cs =>
    if c = '\r' ∧ cs.head? = some '\n' then unifyBreaks cs
    else if c = '\r' ∨ c = '\u0085' then '\n' :: unifyBreaks cs
    else c :: unifyBreaks cs

/-! ## Positions -/

/-- A place in a text. -/
structure Position where
  line : Nat
  column : Nat
  /-- The bytes before it on its line. -/
  bytes : Nat
  deriving DecidableEq

/-- The position behind a character. -/
def Position.after (p : Position) (c : Char) : Position :=
  if isBreak c then ⟨p.line + 1, 0, 0⟩ else ⟨p.line, p.column + 1, p.bytes + c.utf8Size⟩

/-- A position and the unread text. -/
structure Cursor where
  pos : Position
  rest : List Char

namespace Cursor

/-- The position before the first character of a text. -/
def start (text : List Char) : Cursor := ⟨⟨0, 0, 0⟩, text⟩

/-- Behind the next characters, this many. -/
def skip : Nat → Cursor → Cursor
  | n + 1, ⟨pos, c :: rest⟩ => skip n ⟨pos.after c, rest⟩
  | _, c => c

/-- Behind the next characters that satisfy a condition. -/
def skipWhile (p : Char → Bool) (c : Cursor) : Cursor := go c.pos c.rest
where
  /-- The same from a position with a text. -/
  go (pos : Position) : List Char → Cursor
    | [] => ⟨pos, []⟩
    | c :: rest => if p c then go (pos.after c) rest else ⟨pos, c :: rest⟩

/-- Behind a comment, if one comes next; the end of its line is left. -/
def skipComment (c : Cursor) : Cursor :=
  if c.rest.head? = some '#' then c.skipWhile (!isBreak ·) else c

/-- Behind the blanks and the comment that end a line, and behind the line break; `none` if anything
else is on the line. -/
def finishLine? (c : Cursor) : Option Cursor :=
  let c := (c.skipWhile isBlank).skipComment
  match c.rest with
  | [] => some c
  | d :: _ => if isBreak d then some (c.skip 1) else none

/-- A text begins with three times this character, and with it ends a word. -/
def beginsWithMarker (mark : Char) : List Char → Bool
  | a :: b :: c :: rest => a = mark && b = mark && c = mark && endsWord rest
  | _ => false

/-- A document marker made of this character comes next. -/
def atMarker (c : Cursor) (mark : Char) : Bool :=
  c.pos.column = 0 && beginsWithMarker mark c.rest

/-- A document marker comes next. -/
def atAnyMarker (c : Cursor) : Bool := c.atMarker '-' || c.atMarker '.'

end Cursor
end MidiPanel.Yaml
