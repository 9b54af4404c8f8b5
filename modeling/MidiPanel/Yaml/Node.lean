/-!
# YAML nodes

What a YAML text stands for, before any types are given to it: scalars, sequences, mappings, and
aliases of nodes that carry an anchor. A scalar remembers how it was written and its tag, since they
decide whether it can be a number, a boolean or null. Keys are nodes like any other, in the order of
the text.
-/

namespace MidiPanel.Yaml

/-- How a scalar is written. -/
inductive ScalarStyle where
  | plain
  | quoted
  | literal
  | folded
  deriving DecidableEq

/-- A tag, written out in full: an address, whose bytes need not be text. -/
structure Tag where
  bytes : List UInt8
  deriving DecidableEq

namespace Tag

/-- The tag of these bytes, of which a zero ends it. -/
def ofBytes (bytes : List UInt8) : Tag := ⟨bytes.takeWhile (· ≠ 0)⟩

/-- The tag that a text spells. -/
def ofString (text : String) : Tag := ofBytes text.toUTF8.toList

/-- The tag of a standard kind of node. -/
def standard (kind : String) : Tag := ofString ("tag:yaml.org,2002:" ++ kind)

/-- A tag with more behind it. -/
def append (tag more : Tag) : Tag := ⟨tag.bytes ++ more.bytes⟩

/-- The name that a tag of one's own gives, behind its exclamation mark. -/
def ownName? (tag : Tag) : Option String :=
  match tag.bytes with
  | [] => none
  | mark :: name => if mark = 0x21 then String.fromUTF8? ⟨name.toArray⟩ else none

end Tag

/-- A scalar. -/
structure Scalar where
  style : ScalarStyle
  tag : Option Tag
  text : String
  deriving DecidableEq

/-- A node of a document. An alias names an anchor by its number. -/
inductive Node where
  | scalar (scalar : Scalar)
  | sequence (items : List Node)
  | mapping (entries : List (Node × Node))
  | alias (number : Nat)
  deriving Inhabited

namespace Node

/-- Nothing where a node could stand. -/
def absent : Node := .scalar ⟨.plain, none, ""⟩

mutual

/-- The number of scalars, aliases, and beginnings and ends of collections in a node. -/
def size : Node → Nat
  | .scalar _ => 1
  | .alias _ => 1
  | .sequence items => 2 + sizeOfItems items
  | .mapping entries => 2 + sizeOfEntries entries

/-- The same for the items of a sequence. -/
def sizeOfItems : List Node → Nat
  | [] => 0
  | item :: items => item.size + sizeOfItems items

/-- The same for the entries of a mapping. -/
def sizeOfEntries : List (Node × Node) → Nat
  | [] => 0
  | (key, value) :: entries => key.size + value.size + sizeOfEntries entries

end

end Node

/-- The nodes that carry an anchor, by number. A node may contain aliases of itself. -/
abbrev Anchors := List (Nat × Node)

/-- The node of a whole text with the anchored nodes inside it. -/
structure Document where
  root : Node
  anchors : Anchors

/-- Why a text cannot be read, or a node is not what is wanted. -/
inductive Error where
  | controlCharacter
  | tabIndent
  | badEscape
  | badHeader
  | badName
  | badTag
  | badDirective
  | unclosed
  | strayCharacter
  | strayColon
  | misplacedKey
  | misplacedEntry
  | keyWithoutColon
  | unexpected
  | unknownAnchor
  | unknownHandle
  | secondDocument
  | tooManyAliases
  | tooDeep
  | wrongType
  | badKey
  | duplicateKey
  | missingField
  deriving DecidableEq

end MidiPanel.Yaml
