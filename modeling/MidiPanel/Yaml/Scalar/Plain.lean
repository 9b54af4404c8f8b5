import MidiPanel.Yaml.Scalar.Gap

/-!
# Plain scalars

A plain scalar is a row of words. It ends before a colon that ends a word, before a comment, before
a document marker, inside brackets before a bracket character, and elsewhere before a line that
stands too far left.
-/

namespace MidiPanel.Yaml

/-- The characters that end or begin a collection in brackets. -/
def isFlowIndicator (c : Char) : Bool :=
  c = ',' || c = '[' || c = ']' || c = '\x7b' || c = '\x7d'

/-- The characters that no plain scalar begins with, though three of them may if they are followed
by more of the word. -/
def isIndicator (c : Char) : Bool :=
  isFlowIndicator c || "-?:#&*!|>%@\x27\x22\x60".toList.contains c

/-- A plain scalar can begin here. -/
def beginsPlain (flow : Bool) : List Char → Bool
  | [] => false
  | c :: rest =>
    if c = '-' then !endsWord rest
    else if c = '?' || c = ':' then !flow && !endsWord rest
    else !isBlank c && !isBreak c && !isIndicator c

/-- Inside brackets a colon that touches the next bracket character is an error. -/
def colonTouches (flow : Bool) (c : Char) (rest : List Char) : Bool :=
  flow && c = ':' && rest.head?.any fun d => d = '?' || isFlowIndicator d

/-- A plain scalar ends before this character, even inside a word. -/
def endsPlain (flow : Bool) (c : Char) (rest : List Char) : Bool :=
  (c = ':' && endsWord rest) || (flow && isFlowIndicator c)

/-- What was read of a plain scalar: its text, the gap behind it, and where it ends. -/
structure PlainEnd where
  text : List Char
  gap : Gap
  cursor : Cursor

/-- The rest of a plain scalar behind a gap. `floor` is the least column at which it may go on in
another line; a tab further left is an error. -/
def plainFrom (flow : Bool) (floor : Nat) : Gap → Position → List Char → Except Error PlainEnd
  | gap, pos, [] => .ok ⟨[], gap, ⟨pos, []⟩⟩
  | gap, pos, c :: rest =>
    let here : Cursor := ⟨pos, c :: rest⟩
    if isBlank c || isBreak c then
      if c = '\t' && gap.crossesLine && pos.column < floor then .error .tabIndent
      else plainFrom flow floor (gap.push c) (pos.after c) rest
    else if !gap.isEmpty && ((!flow && pos.column < floor) || here.atAnyMarker || c = '#') then
      .ok ⟨[], gap, here⟩
    else if colonTouches flow c rest then .error .strayColon
    else if endsPlain flow c rest then .ok ⟨[], gap, here⟩
    else do
      let more ← plainFrom flow floor .empty (pos.after c) rest
      .ok { more with text := gap.text ++ c :: more.text }

/-- A plain scalar; the cursor stands on its first character. -/
def readPlain (flow : Bool) (floor : Nat) (c : Cursor) : Except Error PlainEnd :=
  plainFrom flow floor .empty c.pos c.rest

end MidiPanel.Yaml
