import MidiPanel.Yaml.Property
import MidiPanel.Yaml.Scalar.Block
import MidiPanel.Yaml.Scalar.Plain

/-!
# From text to tokens

The layout of a text, read from left to right. A block collection is known by the column of its first
key or dash; a token further left ends it. Whether a node is a key shows only at the colon behind it,
so the place of each node that may become one is kept until then: it must be on the line of the colon
and less than 1025 bytes before it. The token of the key, and that of a mapping which begins with it,
are put in front of the node afterwards.

Keys may begin a line, and follow an entry's dash or a bracket or a comma; they may not follow other
content. A node that begins where the keys of the open mapping stand must be a key.
-/

namespace MidiPanel.Yaml

/-- A node that may turn out to be a key. -/
structure PossibleKey where
  /-- Anything else is an error. -/
  required : Bool
  /-- The number of tokens before it. -/
  number : Nat
  pos : Position

/-- A colon at this position is too late for the key. -/
def PossibleKey.isStale (k : PossibleKey) (pos : Position) : Bool :=
  k.pos.line < pos.line || k.pos.bytes + 1024 < pos.bytes

/-- A text that has been read as far as a cursor. -/
structure Lexer where
  cursor : Cursor
  /-- The tokens read so far, the last one first. -/
  tokens : List Token
  /-- Their number. -/
  count : Nat
  /-- The columns of the open block collections, the innermost first. -/
  columns : List Nat
  /-- The node inside the innermost brackets, or outside of all, that may be a key. -/
  key : Option PossibleKey
  /-- The same for what is around each pair of open brackets, the innermost first. -/
  outerKeys : List (Option PossibleKey)
  /-- A key may begin here. -/
  keyAllowed : Bool

namespace Lexer

/-- Before the first character. -/
def start (text : List Char) : Lexer := ⟨.start text, [], 0, [], none, [], true⟩

/-- The cursor is inside brackets. -/
def inFlow (l : Lexer) : Bool := !l.outerKeys.isEmpty

/-- The column of the next character. -/
def column (l : Lexer) : Nat := l.cursor.pos.column

/-- The least column inside the innermost block collection. -/
def floor (l : Lexer) : Nat := (l.columns.head?.map (· + 1)).getD 0

/-- Adds a token. -/
def push (t : Token) (l : Lexer) : Lexer := { l with tokens := t :: l.tokens, count := l.count + 1 }

/-- Puts a token behind the first `number` tokens. -/
def insert (number : Nat) (t : Token) (l : Lexer) : Lexer :=
  let later := l.count - number
  { l with tokens := l.tokens.take later ++ t :: l.tokens.drop later, count := l.count + 1 }

/-! ## Blanks -/

/-- Behind the blanks, comments and line breaks that come next, with whether a key may begin there.
Outside brackets every line may begin with a key, and where a key may begin a tab is no blank. -/
def skipGap (flow : Bool) :
    (comment keyAllowed : Bool) → Position → List Char → Cursor × Bool
  | _, keyAllowed, pos, [] => (⟨pos, []⟩, keyAllowed)
  | comment, keyAllowed, pos, c :: rest =>
    if isBreak c then skipGap flow false (keyAllowed || !flow) (pos.after c) rest
    else if comment || c = '#' then skipGap flow true keyAllowed (pos.after c) rest
    else if c = ' ' || (c = '\t' && (flow || !keyAllowed)) ||
        (c = byteOrderMark && pos.column = 0) then
      skipGap flow false keyAllowed (pos.after c) rest
    else (⟨pos, c :: rest⟩, keyAllowed)

/-- Moves on to the next token. -/
def skip (l : Lexer) : Lexer :=
  let (cursor, keyAllowed) := skipGap l.inFlow false l.keyAllowed l.cursor.pos l.cursor.rest
  { l with cursor := cursor, keyAllowed := keyAllowed }

/-! ## Keys -/

/-- A key that is still possible at a position; a required key must be. -/
def keepKey (pos : Position) : Option PossibleKey → Except Error (Option PossibleKey)
  | none => .ok none
  | some k =>
    if !k.isStale pos then .ok (some k)
    else if k.required then .error .keyWithoutColon
    else .ok none

/-- Gives up the keys that have become impossible. -/
def dropStaleKeys (l : Lexer) : Except Error Lexer := do
  return { l with
    key := ← keepKey l.cursor.pos l.key
    outerKeys := ← l.outerKeys.mapM (keepKey l.cursor.pos) }

/-- Gives up the key of the innermost brackets. -/
def dropKey (l : Lexer) : Except Error Lexer :=
  if l.key.any (·.required) then .error .keyWithoutColon else .ok { l with key := none }

/-- Remembers that the next token may begin a key. -/
def saveKey (l : Lexer) : Except Error Lexer :=
  if l.keyAllowed then do
    let required := !l.inFlow && l.columns.head? = some l.column
    return { ← l.dropKey with key := some ⟨required, l.count, l.cursor.pos⟩ }
  else .ok l

/-! ## Block collections -/

/-- Ends the block collections that satisfy a condition on their columns, from the inside. Brackets
keep them open. -/
def closeBlocks (ends : Nat → Bool) (l : Lexer) : Lexer :=
  if l.inFlow then l
  else
    let closed := l.columns.takeWhile ends
    { l with
      columns := l.columns.drop closed.length
      tokens := closed.map (fun _ => Token.blockEnd) ++ l.tokens
      count := l.count + closed.length }

/-- Begins a block collection behind the first `number` tokens, if its column is not already that of
an open one. -/
def openBlock (column number : Nat) (t : Token) (l : Lexer) : Lexer :=
  if l.inFlow || column < l.floor then l
  else { l.insert number t with columns := column :: l.columns }

/-! ## Tokens -/

/-- Adds the token of some characters. -/
def pushIndicator (length : Nat) (t : Token) (l : Lexer) : Lexer :=
  { l with cursor := l.cursor.skip length }.push t

/-- Adds a token that ends at a cursor. -/
def pushAt (cursor : Cursor) (t : Token) (l : Lexer) : Lexer :=
  { l with cursor := cursor }.push t

/-- The end of the text. -/
def finish (l : Lexer) : Except Error Lexer := do
  return { ← (l.closeBlocks fun _ => true).dropKey with keyAllowed := false }.push .streamEnd

/-- A directive, or a document marker. -/
def outsideBlocks (l : Lexer) : Except Error Lexer := do
  return { ← (l.closeBlocks fun _ => true).dropKey with keyAllowed := false }

/-- An opening bracket. -/
def openBrackets (t : Token) (l : Lexer) : Except Error Lexer := do
  let l ← l.saveKey
  return { l with key := none, outerKeys := l.key :: l.outerKeys, keyAllowed := true }.pushIndicator 1 t

/-- A closing bracket. -/
def closeBrackets (t : Token) (l : Lexer) : Except Error Lexer := do
  let l ← l.dropKey
  return { l with
    key := l.outerKeys.head?.join
    outerKeys := l.outerKeys.tail
    keyAllowed := false }.pushIndicator 1 t

/-- A comma between brackets. -/
def flowEntry (l : Lexer) : Except Error Lexer := do
  return { ← l.dropKey with keyAllowed := true }.pushIndicator 1 .flowEntry

/-- The dash of an entry. -/
def blockEntry (l : Lexer) : Except Error Lexer := do
  if !l.inFlow && !l.keyAllowed then .error .misplacedEntry
  else
    let l ← (l.openBlock l.column l.count .blockSequenceStart).dropKey
    return { l with keyAllowed := true }.pushIndicator 1 .blockEntry

/-- A question mark before a key. -/
def explicitKey (l : Lexer) : Except Error Lexer := do
  if !l.inFlow && !l.keyAllowed then .error .misplacedKey
  else
    let l ← (l.openBlock l.column l.count .blockMappingStart).dropKey
    return { l with keyAllowed := !l.inFlow }.pushIndicator 1 .key

/-- A colon before a value. -/
def value (l : Lexer) : Except Error Lexer :=
  match l.key with
  | some k =>
    let l := (l.insert k.number .key).openBlock k.pos.column k.number .blockMappingStart
    .ok ({ l with key := none, keyAllowed := false }.pushIndicator 1 .value)
  | none =>
    if !l.inFlow && !l.keyAllowed then .error .misplacedKey
    else
      let l := l.openBlock l.column l.count .blockMappingStart
      .ok ({ l with keyAllowed := !l.inFlow }.pushIndicator 1 .value)

/-- An anchor, an alias or a tag. -/
def property (read : Cursor → Except Error (Token × Cursor)) (l : Lexer) : Except Error Lexer := do
  let l ← l.saveKey
  let (t, cursor) ← read l.cursor
  return { l with keyAllowed := false }.pushAt cursor t

/-- A block scalar; a key may follow, since it ends with a line. -/
def blockScalar (style : ScalarStyle) (l : Lexer) : Except Error Lexer := do
  let l ← l.dropKey
  let (text, cursor) ← readBlock (style = .folded) l.floor l.cursor
  return { l with keyAllowed := true }.pushAt cursor (.scalar style (String.ofList text))

/-- A scalar in quotes. -/
def quotedScalar (double : Bool) (l : Lexer) : Except Error Lexer := do
  let l ← l.saveKey
  let (text, cursor) ← readQuoted double l.cursor
  return { l with keyAllowed := false }.pushAt cursor (.scalar .quoted (String.ofList text))

/-- A plain scalar; a key may follow if line breaks do. -/
def plainScalar (l : Lexer) : Except Error Lexer := do
  let l ← l.saveKey
  let scalar ← readPlain l.inFlow l.floor l.cursor
  return { l with keyAllowed := scalar.gap.crossesLine }.pushAt scalar.cursor
    (.scalar .plain (String.ofList scalar.text))

/-- The token that begins with a character. -/
def tokenAt (c : Char) (rest : List Char) (l : Lexer) : Except Error Lexer := do
  let name (token : String → Token) (cursor : Cursor) : Except Error (Token × Cursor) := do
    let (name, cursor) ← readName cursor
    return (token name, cursor)
  if l.column = 0 && c = '%' then
    let l ← l.outsideBlocks
    let (t, cursor) ← readDirective l.cursor
    return l.pushAt cursor t
  else if l.cursor.atMarker '-' then return (← l.outsideBlocks).pushIndicator 3 .documentStart
  else if l.cursor.atMarker '.' then return (← l.outsideBlocks).pushIndicator 3 .documentEnd
  else if c = '[' then l.openBrackets .flowSequenceStart
  else if c = '\x7b' then l.openBrackets .flowMappingStart
  else if c = ']' then l.closeBrackets .flowSequenceEnd
  else if c = '\x7d' then l.closeBrackets .flowMappingEnd
  else if c = ',' then l.flowEntry
  else if c = '-' && endsWord rest then l.blockEntry
  else if c = '?' && (l.inFlow || endsWord rest) then l.explicitKey
  else if c = ':' && (l.inFlow || endsWord rest) then l.value
  else if c = '*' then l.property (name .alias)
  else if c = '&' then l.property (name .anchor)
  else if c = '!' then l.property (readTag l.inFlow)
  else if c = '|' && !l.inFlow then l.blockScalar .literal
  else if c = '>' && !l.inFlow then l.blockScalar .folded
  else if c = '\x27' then l.quotedScalar false
  else if c = '\x22' then l.quotedScalar true
  else if beginsPlain l.inFlow (c :: rest) then l.plainScalar
  else .error .strayCharacter

/-- Reads one token, with the ends of block collections before it. -/
def step (l : Lexer) : Except Error Lexer := do
  let l ← l.skip.dropStaleKeys
  let l := l.closeBlocks (l.column < ·)
  match l.cursor.rest with
  | [] => l.finish
  | c :: rest => l.tokenAt c rest

/-- Reads tokens up to the end of the text, at most `fuel` of them. -/
def run : (fuel : Nat) → Lexer → Except Error (List Token)
  | 0, _ => .error .tooDeep
  | fuel + 1, l => do
    let l ← l.step
    if l.tokens.head? = some .streamEnd then .ok l.tokens.reverse else run fuel l

end Lexer

/-- The tokens of a text. Every token but the last has a character of its own, so there is one step
for each character and one for the end. -/
def tokensOf (text : String) : Except Error (List Token) :=
  if !text.toList.all isAllowed then .error .controlCharacter
  else
    let text := unifyBreaks text.toList
    (Lexer.start text).run (text.length + 1)

end MidiPanel.Yaml
