import MidiPanel.Yaml.Scalar.Quoted
import MidiPanel.Yaml.Token

/-!
# Anchors, tags and directives

The names that a node can carry, and the lines before a document that say what its tags mean. A tag
is a handle with a suffix; the handle stands for the beginning of the full tag. A suffix is part of an
address, in which a percent sign and two hexadecimal digits are one byte.
-/

namespace MidiPanel.Yaml

/-- Letters, digits, dashes and low lines. -/
def isNameChar (c : Char) : Bool := c.isAlphanum || c = '_' || c = '-'

/-- Reads the name of an anchor; the cursor stands on the indicator before it. -/
def readName (c : Cursor) : Except Error (String × Cursor) :=
  let c := c.skip 1
  let name := c.rest.takeWhile isNameChar
  let c := c.skip name.length
  let ends := endsWord c.rest || c.rest.head?.any ("?:,]\x7d%@\x60".toList.contains ·)
  if name.isEmpty || !ends then .error .badName else .ok (String.ofList name, c)

/-! ## Tags -/

/-- The characters of an address; some of them only where the address has brackets of its own. -/
def isAddressChar (bracketed : Bool) (c : Char) : Bool :=
  isNameChar c || ";/?:@&=+$.!~*\x27()".toList.contains c || (bracketed && ",[]".toList.contains c)

/-- The number of bytes that must follow the first byte of an encoded character. -/
def followers? (byte : Nat) : Option Nat :=
  if byte < 0x80 then some 0
  else if byte < 0xC0 then none
  else if byte < 0xE0 then some 1
  else if byte < 0xF0 then some 2
  else if byte < 0xF8 then some 3
  else none

/-- The bytes that the beginning of a text spells as an address, and what follows. The bytes of one
encoded character, of which `missing` are still to come, stand together. -/
def addressBytes (bracketed : Bool) : (missing : Nat) → List Char →
    Except Error (List UInt8 × List Char)
  | missing, '%' :: a :: b :: rest =>
    match hexDigit? a, hexDigit? b with
    | some high, some low =>
      let byte := 16 * high + low
      let next := if missing = 0 then followers? byte
        else if byte / 0x40 = 2 then some (missing - 1) else none
      match next with
      | none => .error .badTag
      | some missing => do
        let (bytes, rest) ← addressBytes bracketed missing rest
        .ok (UInt8.ofNat byte :: bytes, rest)
    | _, _ => .error .badTag
  | missing, c :: rest =>
    if missing ≠ 0 || c = '%' then .error .badTag
    else if isAddressChar bracketed c then do
      let (bytes, rest) ← addressBytes bracketed 0 rest
      .ok (UInt8.ofNat c.toNat :: bytes, rest)
    else .ok ([], c :: rest)
  | missing, [] => if missing ≠ 0 then .error .badTag else .ok ([], [])

/-- Reads an address, which may be empty. -/
def readAddress (bracketed : Bool) (c : Cursor) : Except Error (List UInt8 × Cursor) := do
  let (bytes, rest) ← addressBytes bracketed 0 c.rest
  .ok (bytes, c.skip (c.rest.length - rest.length))

/-- The handle that a text begins with: an exclamation mark, a name, and a second mark if there is
one. -/
def handleOf : List Char → List Char
  | '!' :: rest =>
    let name := rest.takeWhile isNameChar
    '!' :: name ++ if (rest.drop name.length).head? = some '!' then ['!'] else []
  | _ => []

/-- Reads a tag; the cursor stands on its exclamation mark. -/
def readTag (flow : Bool) (c : Cursor) : Except Error (Token × Cursor) := do
  let (tag, c) ←
    if c.rest[1]? = some '<' then do
      let (suffix, c) ← readAddress true (c.skip 2)
      if suffix.isEmpty || c.rest.head? ≠ some '>' then .error .badTag
      else pure (Token.tag "" (.ofBytes suffix), c.skip 1)
    else do
      let handle := handleOf c.rest
      let (suffix, c) ← readAddress false (c.skip handle.length)
      if 1 < handle.length && handle.getLast? = some '!' then
        if suffix.isEmpty then .error .badTag
        else pure (Token.tag (String.ofList handle) (.ofBytes suffix), c)
      else
        let suffix := Tag.ofBytes (handle.tail.map (UInt8.ofNat ·.toNat) ++ suffix)
        pure (if suffix.bytes.isEmpty then Token.tag "" (.ofString "!") else Token.tag "!" suffix, c)
  if endsWord c.rest || (flow && c.rest.head? = some ',') then .ok (tag, c) else .error .badTag

/-! ## Directives -/

/-- Reads a number of at most nine digits. -/
def readVersionPart (c : Cursor) : Except Error (Nat × Cursor) :=
  let digits := c.rest.takeWhile Char.isDigit
  if digits.isEmpty || 9 < digits.length then .error .badDirective
  else .ok (digits.foldl (fun n d => 10 * n + (d.toNat - '0'.toNat)) 0, c.skip digits.length)

/-- Reads the version of the language. -/
def readVersion (c : Cursor) : Except Error (Token × Cursor) := do
  let (major, c) ← readVersionPart (c.skipWhile isBlank)
  if c.rest.head? ≠ some '.' then .error .badDirective
  else
    let (minor, c) ← readVersionPart (c.skip 1)
    .ok (.version major minor, c)

/-- Reads a handle and what it stands for. -/
def readTagHandle (c : Cursor) : Except Error (Token × Cursor) := do
  let c := c.skipWhile isBlank
  let handle := handleOf c.rest
  let c := c.skip handle.length
  if handle.getLast? ≠ some '!' || !c.rest.head?.any isBlank then .error .badDirective
  else
    let (expansion, c) ← readAddress true (c.skipWhile isBlank)
    if expansion.isEmpty || !endsWord c.rest then .error .badDirective
    else .ok (.tagHandle (String.ofList handle) (.ofBytes expansion), c)

/-- Reads a directive with its line; the cursor stands on the percent sign. -/
def readDirective (c : Cursor) : Except Error (Token × Cursor) := do
  let c := c.skip 1
  let name := c.rest.takeWhile isNameChar
  let c := c.skip name.length
  let (token, c) ←
    if !endsWord c.rest then .error .badDirective
    else if name = "YAML".toList then readVersion c
    else if name = "TAG".toList then readTagHandle c
    else .error .badDirective
  match c.finishLine? with
  | some c => .ok (token, c)
  | none => .error .badDirective

end MidiPanel.Yaml
