import MidiPanel.Single.Decimal
import MidiPanel.Yaml.Document

/-!
# Typed values of nodes

What a node means where a number, a boolean, a text, a list or a set of fields is wanted. Numbers,
booleans and null must be plain scalars; a text may be any scalar. A plain scalar without characters
counts as an empty list and as an empty set of fields.

Fields are looked up by name. Unknown names are passed over, whatever they hold, but a name that is
known may stand only once.
-/

namespace MidiPanel.Yaml

/-! ## Plain scalars -/

/-- The spellings of null, the empty one included. -/
def isNullText (text : String) : Bool := ["", "~", "null", "Null", "NULL"].contains text

/-- The boolean that a plain scalar spells. -/
def boolOf? (text : String) : Option Bool :=
  if ["true", "True", "TRUE"].contains text then some true
  else if ["false", "False", "FALSE"].contains text then some false
  else none

/-- The value of digits in a base. -/
def digitsIn? (base : Nat) (digits : List Char) : Option Nat :=
  if digits.isEmpty then none
  else digits.foldlM (fun n c =>
    (hexDigit? c).bind fun d => if d < base then some (base * n + d) else none) 0

/-- Two or more digits of which the first is a zero: such a text is no whole number. -/
def leadsWithZero (digits : List Char) : Bool :=
  1 < digits.length && digits.head? = some '0' && digits.all Char.isDigit

/-- The whole number that unsigned digits spell: decimal, or with a mark for base 16, 8 or 2. -/
def wholeOf? : List Char → Option Nat
  | '0' :: 'x' :: digits => digitsIn? 16 digits
  | '0' :: 'o' :: digits => digitsIn? 8 digits
  | '0' :: 'b' :: digits => digitsIn? 2 digits
  | digits => if leadsWithZero digits then none else digitsIn? 10 digits

/-- The whole number that a plain scalar spells; a plus sign may stand in front. -/
def unsignedOf? (text : String) : Option Nat :=
  match text.toList with
  | '+' :: digits => wholeOf? digits
  | digits => wholeOf? digits

/-- The number that a plain scalar spells, as a single. -/
def singleOf? (text : String) : Option Single :=
  if [".inf", ".Inf", ".INF", "+.inf", "+.Inf", "+.INF"].contains text then some (.infinite false)
  else if ["-.inf", "-.Inf", "-.INF"].contains text then some (.infinite true)
  else if [".nan", ".NaN", ".NAN"].contains text then some .nan
  else (Decimal.read? text.toList).bind Decimal.toSingle?

/-! ## Following aliases -/

/-- Reading in a document with these anchors, of whose aliases this many more may be followed. -/
abbrev Resolving (α : Type) := ReaderT Anchors (StateT Nat (Except Error)) α

/-- What an alias stands for; any other node stands for itself. -/
def follow : Node → Resolving Node
  | .alias number => do
    match ← get with
    | 0 => throw .tooManyAliases
    | left + 1 =>
      set left
      return ((← read).lookup number).getD .absent
  | node => return node

/-- Reads in a document. Aliases may be followed a hundred times as often as the document is large. -/
def Resolving.run {α : Type} (reading : Resolving α) (document : Document) : Except Error α :=
  (ReaderT.run reading document.anchors).run' (100 * document.root.size)

/-! ## Readers -/

/-- Gives a node a type. -/
abbrev Reader (α : Type) := Node → Resolving α

namespace Scalar

/-- The scalar may be a value of this kind: it is plain, or a literal block that says so. -/
def mayBe (s : Scalar) (kind : String) : Bool :=
  s.style = .plain || (s.style = .literal && s.tag = some (.standard kind))

/-- A plain scalar without characters. -/
def isEmptyPlain (s : Scalar) : Bool := s.style = .plain && s.text.isEmpty

/-- A plain scalar that spells null, whatever its tag. -/
def spellsNull (s : Scalar) : Bool := s.style = .plain && isNullText s.text

end Scalar

namespace Reader

/-- The value, if there is one. -/
def expect {α : Type} : Option α → Resolving α
  | some value => pure value
  | none => throw .wrongType

/-- A reader of scalars of a kind by their text. -/
def ofKind {α : Type} (kind : String) (value? : String → Option α) : Reader α := fun node => do
  match ← follow node with
  | .scalar s => expect (if s.mayBe kind then value? s.text else none)
  | _ => throw .wrongType

def bool : Reader Bool := ofKind "bool" boolOf?

/-- A whole number below `limit`. -/
def below (limit : Nat) : Reader Nat :=
  ofKind "int" fun text => (unsignedOf? text).filter (· < limit)

/-- A whole number of 32 bits. -/
def word : Reader UInt32 := fun node => UInt32.ofNat <$> below UInt32.size node

/-- A whole number of 16 bits. -/
def halfWord : Reader UInt16 := fun node => UInt16.ofNat <$> below UInt16.size node

/-- A whole number of 8 bits. -/
def byte : Reader UInt8 := fun node => UInt8.ofNat <$> below UInt8.size node

def single : Reader Single := ofKind "float" singleOf?

/-- The text of any scalar. -/
def string : Reader String := fun node => do
  match ← follow node with
  | .scalar s => return s.text
  | _ => throw .wrongType

/-- A scalar that is one of some words, or null with one of them as a tag of its own. -/
def oneOf {α : Type} (words : List (String × α)) : Reader α := fun node => do
  match ← follow node with
  | .scalar s => match s.tag.bind Tag.ownName? with
    | some name => expect (if s.spellsNull then words.lookup name else none)
    | none => expect (words.lookup s.text)
  | _ => throw .wrongType

/-- Null is nothing; everything else is read. A plain scalar with the tag of null must be null and
not empty, and one with another tag is not nothing. -/
def optional {α : Type} (read : Reader α) : Reader (Option α) := fun node => do
  match ← follow node with
  | .scalar s =>
    if s.style = .plain && s.tag = some (.standard "null") then
      if isNullText s.text && !s.text.isEmpty then return none else throw .wrongType
    else if s.tag.isNone && s.spellsNull then return none
    else some <$> read (.scalar s)
  | node => some <$> read node

def list {α : Type} (read : Reader α) : Reader (List α) := fun node => do
  match ← follow node with
  | .sequence items => items.mapM read
  | .scalar s => if s.isEmptyPlain then return [] else throw .wrongType
  | _ => throw .wrongType

end Reader

/-! ## Fields -/

/-- The fields of a mapping that are known by name. -/
abbrev Fields := List (String × Node)

/-- The name that a key is. -/
def keyName : Reader String := fun node => do
  match ← follow node with
  | .scalar s => return s.text
  | _ => throw .badKey

/-- Collects the known fields of a mapping. -/
def fieldsOf (known : List String) : Reader Fields := fun node => do
  match ← follow node with
  | .mapping entries => entries.foldlM (fun (fields : Fields) (key, value) => do
      let name ← keyName key
      if !known.contains name then return fields
      else if (fields.lookup name).isSome then throw .duplicateKey
      else return (name, value) :: fields) []
  | .scalar s => if s.isEmptyPlain then return [] else throw .wrongType
  | _ => throw .wrongType

namespace Fields

/-- A field that must be there. -/
def required {α : Type} (fields : Fields) (name : String) (read : Reader α) : Resolving α :=
  match fields.lookup name with
  | some node => read node
  | none => throw .missingField

/-- A field with a value for when it is not there. -/
def withDefault {α : Type} (fields : Fields) (name : String) (read : Reader α) (default : α) :
    Resolving α :=
  match fields.lookup name with
  | some node => read node
  | none => return default

/-- A field that may be missing or null. -/
def optional {α : Type} (fields : Fields) (name : String) (read : Reader α) : Resolving (Option α) :=
  fields.withDefault name (Reader.optional read) none

end Fields

/-- Reads a text as a set of fields; a text that holds no document has none. -/
def readDocument {α : Type} (read : Reader α) (text : String) : Except Error α := do
  let document ← parse text
  (read document.root).run document

end MidiPanel.Yaml
