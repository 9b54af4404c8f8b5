import MidiPanel.Yaml.Reading

/-!
# Writing scalars

How a value is written behind a key. A text stays plain where that reads back as the same text, and
is single-quoted where the plain form would be null, a boolean or a number, or is no legal plain
scalar. Lines of their own are kept as a block scalar. A text with characters that only an escape
can show is double-quoted.
-/

namespace MidiPanel.Yaml

/-! ## What a text would read as -/

/-- The negative whole number of at most 128 bits that a text spells. -/
def isNegative (text : String) : Bool :=
  match text.toList with
  | '-' :: digits => (wholeOf? digits).any (· ≤ 1 <<< 127)
  | _ => false

/-- Zero-led digits with an optional sign, which look like a number but are none. -/
def looksNumeric (text : String) : Bool :=
  match text.toList with
  | '-' :: digits | '+' :: digits => leadsWithZero digits
  | digits => leadsWithZero digits

/-- The plain form of the text would not be read as a text, or looks as if it would not. -/
def readsAsValue (text : String) : Bool :=
  isNullText text || (boolOf? text).isSome || (unsignedOf? text).any (· < 1 <<< 128) ||
    isNegative text || (singleOf? text).isSome || looksNumeric text

/-! ## Which styles can show a text -/

/-- Characters that are written as they are. -/
def isPrintable (c : Char) : Bool :=
  c = '\n' || (' ' ≤ c && c ≤ '~') || ('\u00a0' ≤ c && c ≤ '\ud7ff') ||
    ('\ue000' ≤ c && c ≤ '\ufffd' && c != '\ufeff') || 0x10000 ≤ c.toNat

/-- Nothing, a blank or a line break comes next. -/
def endsToken : List Char → Bool
  | [] => true
  | c :: _ => isBlank c || isBreak c

/-- Two characters in a row satisfy these conditions. -/
def hasPair (p q : Char → Bool) : List Char → Bool
  | a :: b :: rest => (p a && q b) || hasPair p q (b :: rest)
  | _ => false

def isSpace (c : Char) : Bool := c = ' '

/-- The first characters make this something else than a plain scalar. -/
def beginsWithIndicator : List Char → Bool
  | [] => false
  | c :: rest =>
    if c = '?' || c = ':' || c = '-' then endsToken rest || isMark (c :: rest)
    else isIndicator c || isMark (c :: rest)
where
  /-- Three dashes or three dots. -/
  isMark : List Char → Bool
    | '-' :: '-' :: '-' :: _ => true
    | '.' :: '.' :: '.' :: _ => true
    | _ => false

/-- A colon that ends a word, or a number sign that begins one, behind the first character. -/
def hasInnerIndicator : List Char → Bool
  | a :: b :: rest =>
    (b = ':' && endsToken rest) || (b = '#' && endsToken [a]) || hasInnerIndicator (b :: rest)
  | _ => false

/-- A character needs an escape, or a space stands before a line break. -/
def needsEscape (text : List Char) : Bool :=
  text.any (!isPrintable ·) || hasPair isSpace isBreak text

/-- The text can be written without quotes. -/
def allowsPlain (text : List Char) : Bool :=
  let atEdge (c : Char) : Bool := isSpace c || isBreak c
  !(needsEscape text || text.any isBreak || text.head?.any atEdge || text.getLast?.any atEdge ||
    beginsWithIndicator text || hasInnerIndicator text)

/-- The text can be written in single quotes. -/
def allowsSingle (text : List Char) : Bool :=
  !(needsEscape text || hasPair isBreak isSpace text)

/-- The text can be written as lines of a block scalar. -/
def allowsBlock (text : List Char) : Bool :=
  !(needsEscape text || text.getLast?.any isSpace)

/-! ## The styles -/

/-- Puts two spaces in front of each line that is not empty; `fresh` says whether the text begins
with a line. -/
def indentLines (fresh : Bool) : List Char → List Char
  | [] => []
  | c :: rest =>
    if isBreak c then c :: indentLines true rest
    else if fresh then ' ' :: ' ' :: c :: indentLines false rest
    else c :: indentLines false rest

/-- In single quotes, a quote inside is written twice. Lines behind a line break are indented, also
when the closing quote is all that stands there. -/
def singleQuoted (text : List Char) : String :=
  let inner := text.flatMap fun c => if c = '\x27' then ['\x27', '\x27'] else [c]
  String.ofList ('\x27' :: indentLines false (inner ++ ['\x27']))

/-- Upper-case hexadecimal digits, padded with zeros. -/
def hexDigits (length n : Nat) : List Char :=
  let digits := (Nat.toDigits 16 n).map Char.toUpper
  List.replicate (length - digits.length) '0' ++ digits

/-- The letter that an escape of one letter uses for a character. -/
def escapeLetter? (c : Char) : Option Char :=
  match c with
  | '\x00' => some '0'
  | '\x07' => some 'a'
  | '\x08' => some 'b'
  | '\t' => some 't'
  | '\n' => some 'n'
  | '\x0b' => some 'v'
  | '\x0c' => some 'f'
  | '\r' => some 'r'
  | '\x1b' => some 'e'
  | '\u0085' => some 'N'
  | '\u00a0' => some '_'
  | '\u2028' => some 'L'
  | '\u2029' => some 'P'
  | c => if c = '\x22' || c = '\x5c' then some c else none

/-- A character in double quotes: itself where it can be, otherwise the shortest escape. -/
def escaped (c : Char) : List Char :=
  if isPrintable c && !isBreak c && c != '\x22' && c != '\x5c' then [c]
  else match escapeLetter? c with
    | some letter => ['\x5c', letter]
    | none =>
      let n := c.toNat
      if n ≤ 0xFF then '\x5c' :: 'x' :: hexDigits 2 n
      else if n ≤ 0xFFFF then '\x5c' :: 'u' :: hexDigits 4 n
      else '\x5c' :: 'U' :: hexDigits 8 n

/-- In double quotes with escapes. -/
def doubleQuoted (text : List Char) : String :=
  String.ofList ('\x22' :: text.flatMap escaped ++ ['\x22'])

/-- The marks behind the bar of a block scalar: the indentation if the text begins with a blank,
and what becomes of the breaks at its end. -/
def blockMarks (text : List Char) : String :=
  let startsBlank := text.head?.any fun c => isSpace c || isBreak c
  let chomping := match text.reverse with
    | [] => "-"
    | c :: rest =>
      if !isBreak c then "-" else if rest.head?.all isBreak then "+" else ""
  (if startsBlank then "2" else "") ++ chomping

/-- As lines two spaces further right; empty lines stay empty. -/
def blockScalar (text : List Char) : String :=
  "|" ++ blockMarks text ++ "\n" ++ String.ofList (indentLines true text)

/-- A text as the value of a top-level key. A block scalar ends as the text does, with or without a
line break. -/
def textScalar (text : String) : String :=
  let chars := text.toList
  if chars.contains '\n' then
    if allowsBlock chars then blockScalar chars else doubleQuoted chars
  else if readsAsValue text || !allowsPlain chars then
    if allowsSingle chars then singleQuoted chars else doubleQuoted chars
  else text

/-- A single: the shortest digits, or the spelling of what is not finite. -/
def singleScalar : Single → String
  | .nan => ".nan"
  | .infinite negative => if negative then "-.inf" else ".inf"
  | .finite negative units _ =>
    (if negative then "-" else "") ++ String.ofList (Single.magnitudeText units)

def boolScalar (b : Bool) : String := if b then "true" else "false"

def natScalar (n : Nat) : String := toString n

/-- An unset value is null. -/
def optionScalar {α : Type} (write : α → String) (value : Option α) : String :=
  (value.map write).getD "null"

end MidiPanel.Yaml
