import MidiPanel.Yaml.Cursor

/-!
# Block scalars

A block scalar keeps its lines, or folds them: then a line feed between two lines that begin without
a blank is a space, or nothing before empty lines. Its lines stand at one indentation, which the
header gives or the first line shows. What becomes of the line breaks at the end is its chomping.
-/

namespace MidiPanel.Yaml

/-! ## The header -/

/-- What becomes of the line breaks at the end of a block scalar. -/
inductive Chomping where
  | strip
  | clip
  | keep
  deriving DecidableEq

/-- The header of a block scalar. -/
structure BlockHeader where
  folded : Bool
  chomping : Chomping
  /-- The indentation, if the header gives it, relative to the surrounding block. -/
  indent : Option Nat

/-- Reads a chomping mark, if there is one. -/
def chompingMark (c : Cursor) : Chomping × Cursor :=
  match c.rest with
  | '-' :: _ => (.strip, c.skip 1)
  | '+' :: _ => (.keep, c.skip 1)
  | _ => (.clip, c)

/-- Reads an indentation digit, if there is one. -/
def indentMark (c : Cursor) : Option Nat × Cursor :=
  match c.rest with
  | d :: _ => if d.isDigit then (some (d.toNat - '0'.toNat), c.skip 1) else (none, c)
  | [] => (none, c)

/-- Reads the header of a block scalar behind its indicator; the marks stand in either order. -/
def blockHeader (folded : Bool) (c : Cursor) : Except Error (BlockHeader × Cursor) :=
  let (chomping, indent, c) :=
    match chompingMark c with
    | (.clip, c) =>
      let (indent, c) := indentMark c
      let (chomping, c) := chompingMark c
      (chomping, indent, c)
    | (chomping, c) =>
      let (indent, c) := indentMark c
      (chomping, indent, c)
  if indent = some 0 then .error .badHeader
  else match c.finishLine? with
    | some c => .ok (⟨folded, chomping, indent⟩, c)
    | none => .error .badHeader

/-! ## The indentation -/

/-- The column of the first character that is no space, or the length of a line of spaces before it
if that is more; a tab is an error. -/
def leadingColumn (most : Nat) (pos : Position) : List Char → Except Error Nat
  | [] => .ok (max most pos.column)
  | c :: rest =>
    if c = ' ' then leadingColumn most (pos.after c) rest
    else if c = '\t' then .error .tabIndent
    else if isBreak c then leadingColumn (max most pos.column) (pos.after c) rest
    else .ok (max most pos.column)

/-- The indentation of a block scalar. `floor` is the least column that is inside the surrounding
block. -/
def blockIndent (floor : Nat) (header : BlockHeader) (c : Cursor) : Except Error Nat :=
  match header.indent with
  | some n => .ok (floor - 1 + n)
  | none => (leadingColumn 0 c.pos c.rest).map fun column => max column (max floor 1)

/-! ## The lines -/

/-- What stands between the last line of a block scalar and the next: the break that ended the
line, and the breaks of empty lines. -/
structure BlockGap where
  first : Option Char
  more : List Char
  /-- The line before began with a blank. -/
  afterBlank : Bool

namespace BlockGap

/-- Before the first line. -/
def empty : BlockGap := ⟨none, [], false⟩

/-- What the gap reads as before a line that may begin with a blank. -/
def text (g : BlockGap) (folded beforeBlank : Bool) : List Char :=
  if folded && g.first = some '\n' && !g.afterBlank && !beforeBlank then
    if g.more.isEmpty then [' '] else g.more
  else g.first.toList ++ g.more

/-- What the gap reads as behind the last line. -/
def tail (g : BlockGap) : Chomping → List Char
  | .strip => []
  | .clip => g.first.toList
  | .keep => g.first.toList ++ g.more

end BlockGap

/-- The rest of a block scalar of this indentation: inside a line, or before one. -/
def blockFrom (header : BlockHeader) (indent : Nat) :
    (inLine : Bool) → BlockGap → Position → List Char → Except Error (List Char × Cursor)
  | _, gap, pos, [] => .ok (gap.tail header.chomping, ⟨pos, []⟩)
  | true, gap, pos, c :: rest =>
    if isBreak c then blockFrom header indent false { gap with first := some c } (pos.after c) rest
    else do
      let (more, cursor) ← blockFrom header indent true gap (pos.after c) rest
      .ok (c :: more, cursor)
  | false, gap, pos, c :: rest =>
    if isBreak c then
      blockFrom header indent false { gap with more := gap.more ++ [c] } (pos.after c) rest
    else if pos.column < indent then
      if c = ' ' then blockFrom header indent false gap (pos.after c) rest
      else if c = '\t' then .error .tabIndent
      else .ok (gap.tail header.chomping, ⟨pos, c :: rest⟩)
    else do
      let (more, cursor) ← blockFrom header indent true ⟨none, [], isBlank c⟩ (pos.after c) rest
      .ok (gap.text header.folded (isBlank c) ++ c :: more, cursor)

/-- A block scalar; the cursor stands on its indicator. -/
def readBlock (folded : Bool) (floor : Nat) (c : Cursor) : Except Error (List Char × Cursor) := do
  let (header, c) ← blockHeader folded (c.skip 1)
  blockFrom header (← blockIndent floor header c) false .empty c.pos c.rest

end MidiPanel.Yaml
