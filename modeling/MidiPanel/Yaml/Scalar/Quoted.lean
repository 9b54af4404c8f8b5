import MidiPanel.Yaml.Scalar.Gap

/-!
# Quoted scalars

In single quotes a quote is written twice, and all else stands for itself. In double quotes a
backslash begins an escape: a letter for a character, a character code of two, four or eight
hexadecimal digits, or a line break that is to be dropped. Both kinds may go on over several lines,
but not over a document marker.
-/

namespace MidiPanel.Yaml

/-! ## Escapes -/

/-- The characters that a backslash and one letter stand for. -/
def simpleEscape? (c : Char) : Option Char :=
  match c with
  | '0' => some '\x00'
  | 'a' => some '\x07'
  | 'b' => some '\x08'
  | 't' => some '\t'
  | '\t' => some '\t'
  | 'n' => some '\n'
  | 'v' => some '\x0b'
  | 'f' => some '\x0c'
  | 'r' => some '\r'
  | 'e' => some '\x1b'
  | ' ' => some ' '
  | '/' => some '/'
  | 'N' => some '\u0085'
  | '_' => some '\u00a0'
  | 'L' => some '\u2028'
  | 'P' => some '\u2029'
  | c => if c = '\x22' || c = '\x5c' then some c else none

/-- The number of hexadecimal digits after a backslash and one letter. -/
def codeLength? (c : Char) : Option Nat :=
  match c with
  | 'x' => some 2
  | 'u' => some 4
  | 'U' => some 8
  | _ => none

/-- The value of a hexadecimal digit. -/
def hexDigit? (c : Char) : Option Nat :=
  if c.isDigit then some (c.toNat - '0'.toNat)
  else if 'a' ≤ c ∧ c ≤ 'f' then some (c.toNat - 'a'.toNat + 10)
  else if 'A' ≤ c ∧ c ≤ 'F' then some (c.toNat - 'A'.toNat + 10)
  else none

/-- The character with a code, if there is one. -/
def charOfCode? (n : Nat) : Option Char :=
  if h : n.isValidChar then some (Char.ofNatAux n h) else none

/-! ## Reading -/

/-- What the next character of a quoted scalar belongs to. -/
inductive QuotedState where
  | text
  /-- It stands behind a backslash, or is the second of two single quotes. -/
  | escape
  /-- It is a digit of a character code: one more than this many are missing, and those before it
  have this value. -/
  | code (more value : Nat)

/-- Puts text in front of what is read behind it. -/
def prependText (text : List Char) (result : Except Error (List Char × Cursor)) :
    Except Error (List Char × Cursor) :=
  result.map fun (more, c) => (text ++ more, c)

/-- The rest of a quoted scalar behind a gap, up to its closing quote. -/
def quotedFrom (double : Bool) :
    Gap → QuotedState → Position → List Char → Except Error (List Char × Cursor)
  | _, _, _, [] => .error .unclosed
  | gap, .code more value, pos, c :: rest =>
    match hexDigit? c with
    | none => .error .badEscape
    | some digit =>
      let value := 16 * value + digit
      match more with
      | more + 1 => quotedFrom double gap (.code more value) (pos.after c) rest
      | 0 => match charOfCode? value with
        | some d => prependText [d] (quotedFrom double gap .text (pos.after c) rest)
        | none => .error .badEscape
  | gap, .escape, pos, c :: rest =>
    if !double then prependText [c] (quotedFrom double gap .text (pos.after c) rest)
    else if isBreak c then quotedFrom double .escapedBreak .text (pos.after c) rest
    else match simpleEscape? c, codeLength? c with
      | some d, _ => prependText [d] (quotedFrom double gap .text (pos.after c) rest)
      | none, some (length + 1) => quotedFrom double gap (.code length 0) (pos.after c) rest
      | none, _ => .error .badEscape
  | gap, .text, pos, c :: rest =>
    if isBlank c || isBreak c then quotedFrom double (gap.push c) .text (pos.after c) rest
    else if Cursor.atAnyMarker ⟨pos, c :: rest⟩ then .error .unclosed
    else if (double && c = '\x5c') || (!double && c = '\x27' && rest.head? = some '\x27') then
      prependText gap.text (quotedFrom double .empty .escape (pos.after c) rest)
    else if c = (if double then '\x22' else '\x27') then .ok (gap.text, ⟨pos.after c, rest⟩)
    else prependText (gap.text ++ [c]) (quotedFrom double .empty .text (pos.after c) rest)

/-- A quoted scalar; the cursor stands on its opening quote. -/
def readQuoted (double : Bool) (c : Cursor) : Except Error (List Char × Cursor) :=
  let c := c.skip 1
  quotedFrom double .empty .text c.pos c.rest

end MidiPanel.Yaml
