import MidiPanel.Yaml.Lexer

/-!
# From tokens to a document

The nodes of a text by its tokens: collections in blocks and in brackets, the properties before a
node, and the directives and markers around a document. Where a node is missing it is absent, if
something shows that it could be there: a dash, a question mark, a colon, or properties of its own.

`fuel` bounds the number of nested and consecutive nodes. Each of them has a token, so a text has
enough with some for each token.
-/

namespace MidiPanel.Yaml

/-- The tokens still to be read, with what the tokens before them have defined. -/
structure Composer where
  tokens : List Token
  /-- What the handles of tags stand for. -/
  handles : List (String × Tag)
  /-- The numbers of the anchors by name. -/
  names : List (String × Nat)
  /-- The numbers of all anchors so far, the last one first. -/
  numbers : List Nat
  /-- The nodes of the anchors, as far as they are complete. -/
  anchors : Anchors

namespace Composer

/-- The handles that need no directive. -/
def standardHandles : List (String × Tag) := [("!", .ofString "!"), ("!!", .standard "")]

/-- Before the first token. -/
def start (tokens : List Token) : Composer := ⟨tokens, standardHandles, [], [], []⟩

/-- The next token. -/
def next (s : Composer) : Token := s.tokens.headD .streamEnd

/-- Behind the next token. -/
def skip (s : Composer) : Composer := { s with tokens := s.tokens.tail }

/-! ## Properties -/

/-- The full form of a tag. -/
def fullTag (s : Composer) (handle : String) (suffix : Tag) : Except Error Tag :=
  if handle.isEmpty then .ok suffix
  else match s.handles.lookup handle with
    | some expansion => .ok (expansion.append suffix)
    | none => .error .unknownHandle

/-- The anchor and the tag before a node, in either order. -/
def properties (s : Composer) : Except Error (Option String × Option Tag × Composer) := do
  match s.next with
  | .anchor name =>
    let s := s.skip
    match s.next with
    | .tag handle suffix => return (some name, some (← s.fullTag handle suffix), s.skip)
    | _ => return (some name, none, s)
  | .tag handle suffix =>
    let tag ← s.fullTag handle suffix
    let s := s.skip
    match s.next with
    | .anchor name => return (some name, some tag, s.skip)
    | _ => return (none, some tag, s)
  | _ => return (none, none, s)

/-- An anchor: its number, and how many came before it. -/
structure Anchor where
  number : Nat
  serial : Nat

/-- Numbers an anchor by how many names there are. A name that is used again gets a new number but is
no new name, so the next new name shares that number. -/
def register (name : Option String) (s : Composer) : Option Anchor × Composer :=
  match name with
  | none => (none, s)
  | some name =>
    let number := s.names.length
    (some ⟨number, s.numbers.length⟩, { s with
      names := (name, number) :: s.names.filter (·.1 ≠ name)
      numbers := number :: s.numbers })

/-- Puts down a node that is complete, unless an anchor inside it has taken its number. -/
def define (anchor : Option Anchor) (node : Node) (s : Composer) : Composer :=
  match anchor with
  | none => s
  | some a =>
    let inside := s.numbers.take (s.numbers.length - a.serial - 1)
    if inside.contains a.number then s else { s with anchors := (a.number, node) :: s.anchors }

/-- The node that an alias names. -/
def aliasNode (name : String) (s : Composer) : Except Error Node :=
  match s.names.lookup name with
  | some number => .ok (.alias number)
  | none => .error .unknownAnchor

/-! ## Nodes -/

/-- A node, and where it ends. -/
abbrev Step := Except Error (Node × Composer)

mutual

/-- A node. Only where `block` is set may it be a block collection; where `dashes` is set it may be a
sequence whose dashes stand in the column of the keys around it. -/
def node (fuel : Nat) (block dashes : Bool) (s : Composer) : Step :=
  match fuel, s.next with
  | 0, _ => .error .tooDeep
  | _ + 1, .alias name => do return (← s.aliasNode name, s.skip)
  | fuel + 1, _ => do
    let (name, tag, s) ← s.properties
    let (anchor, s) := s.register name
    let (result, s) ← content fuel block dashes name.isSome tag s
    return (result, s.define anchor result)

/-- A node behind its properties. -/
def content (fuel : Nat) (block dashes anchored : Bool) (tag : Option Tag) (s : Composer) :
    Step :=
  match fuel, s.next with
  | 0, _ => .error .tooDeep
  | _ + 1, .scalar style text => .ok (.scalar ⟨style, tag, text⟩, s.skip)
  | fuel + 1, .flowSequenceStart => flowItems fuel true [] s.skip
  | fuel + 1, .flowMappingStart => flowEntries fuel true [] s.skip
  | fuel + 1, t =>
    if dashes && t = .blockEntry then plainItems fuel [] s
    else if block && t = .blockSequenceStart then blockItems fuel [] s.skip
    else if block && t = .blockMappingStart then blockEntries fuel [] s.skip
    else if anchored || tag.isSome then .ok (.scalar ⟨.plain, tag, ""⟩, s)
    else .error .unexpected

/-- A node unless one of these tokens comes next. -/
def nodeUnless (fuel : Nat) (ends : List Token) (block dashes : Bool) (s : Composer) : Step :=
  match fuel with
  | 0 => .error .tooDeep
  | fuel + 1 => if ends.contains s.next then .ok (.absent, s) else node fuel block dashes s

/-- The items of a sequence in a block. -/
def blockItems (fuel : Nat) (items : List Node) (s : Composer) : Step :=
  match fuel, s.next with
  | 0, _ => .error .tooDeep
  | fuel + 1, .blockEntry => do
    let (item, s) ← nodeUnless fuel [.blockEntry, .blockEnd] true false s.skip
    blockItems fuel (item :: items) s
  | _ + 1, .blockEnd => .ok (.sequence items.reverse, s.skip)
  | _ + 1, _ => .error .unexpected

/-- The items of a sequence that has no block of its own. -/
def plainItems (fuel : Nat) (items : List Node) (s : Composer) : Step :=
  match fuel, s.next with
  | 0, _ => .error .tooDeep
  | fuel + 1, .blockEntry => do
    let (item, s) ← nodeUnless fuel [.blockEntry, .key, .value, .blockEnd] true false s.skip
    plainItems fuel (item :: items) s
  | _ + 1, _ => .ok (.sequence items.reverse, s)

/-- The entries of a mapping in a block. -/
def blockEntries (fuel : Nat) (entries : List (Node × Node)) (s : Composer) : Step :=
  match fuel, s.next with
  | 0, _ => .error .tooDeep
  | fuel + 1, .key => do
    let ends := [.key, .value, .blockEnd]
    let (key, s) ← nodeUnless fuel ends true true s.skip
    let (value, s) ←
      if s.next = .value then nodeUnless fuel ends true true s.skip else .ok (.absent, s)
    blockEntries fuel ((key, value) :: entries) s
  | _ + 1, .blockEnd => .ok (.mapping entries.reverse, s.skip)
  | _ + 1, _ => .error .unexpected

/-- The items of a sequence in brackets; a comma comes before each but the first. A pair is a
mapping of one entry. -/
def flowItems (fuel : Nat) (first : Bool) (items : List Node) (s : Composer) : Step :=
  match fuel with
  | 0 => .error .tooDeep
  | fuel + 1 =>
    if s.next = .flowSequenceEnd then .ok (.sequence items.reverse, s.skip)
    else if !first && s.next ≠ .flowEntry then .error .unexpected
    else
      let s := if first then s else s.skip
      match s.next with
      | .flowSequenceEnd => .ok (.sequence items.reverse, s.skip)
      | .key => do
        let (item, s) ← flowPair fuel s.skip
        flowItems fuel false (item :: items) s
      | _ => do
        let (item, s) ← node fuel false false s
        flowItems fuel false (item :: items) s

/-- A pair in a sequence in brackets. If the key is absent, so is the token behind it. -/
def flowPair (fuel : Nat) (s : Composer) : Step :=
  match fuel with
  | 0 => .error .tooDeep
  | fuel + 1 => do
    let (key, s) ←
      if [Token.value, .flowEntry, .flowSequenceEnd].contains s.next then .ok (.absent, s.skip)
      else node fuel false false s
    let (value, s) ←
      if s.next = .value then
        nodeUnless fuel [.flowEntry, .flowSequenceEnd] false false s.skip
      else .ok (.absent, s)
    return (.mapping [(key, value)], s)

/-- The entries of a mapping in brackets; a comma comes before each but the first. A key alone has
no value. -/
def flowEntries (fuel : Nat) (first : Bool) (entries : List (Node × Node)) (s : Composer) :
    Step :=
  match fuel with
  | 0 => .error .tooDeep
  | fuel + 1 =>
    if s.next = .flowMappingEnd then .ok (.mapping entries.reverse, s.skip)
    else if !first && s.next ≠ .flowEntry then .error .unexpected
    else
      let s := if first then s else s.skip
      match s.next with
      | .flowMappingEnd => .ok (.mapping entries.reverse, s.skip)
      | .key => do
        let (key, s) ← nodeUnless fuel [.value, .flowEntry, .flowMappingEnd] false false s.skip
        let (value, s) ←
          if s.next = .value then
            nodeUnless fuel [.flowEntry, .flowMappingEnd] false false s.skip
          else .ok (.absent, s)
        flowEntries fuel false ((key, value) :: entries) s
      | _ => do
        let (key, s) ← node fuel false false s
        flowEntries fuel false ((key, .absent) :: entries) s

end

/-! ## The document -/

/-- Reads the directives before a document, of which there is at most one for the version and one
for each handle. -/
def directives (versions : Nat) (defined : List String) : List Token →
    Except Error (List (String × Tag) × List Token)
  | .version major minor :: rest =>
    if 0 < versions || major ≠ 1 || (minor ≠ 1 && minor ≠ 2) then .error .badDirective
    else directives (versions + 1) defined rest
  | .tagHandle handle expansion :: rest =>
    if defined.contains handle then .error .badDirective
    else do
      let (handles, rest) ← directives versions (handle :: defined) rest
      return ((handle, expansion) :: handles, rest)
  | rest => .ok ([], rest)

/-- The document, unless there is none. Directives need a marker behind them. -/
def document (fuel : Nat) (s : Composer) : Except Error (Option Node × Composer) := do
  match s.next with
  | .streamEnd => return (none, s)
  | .version .. | .tagHandle .. | .documentStart =>
    let (handles, tokens) ← directives 0 [] s.tokens
    let s := { s with tokens := tokens, handles := handles ++ standardHandles }
    if s.next ≠ .documentStart then .error .unexpected
    else
      let s := s.skip
      match s.next with
      | .version .. | .tagHandle .. | .documentStart | .documentEnd | .streamEnd =>
        return (some .absent, s)
      | _ =>
        let (root, s) ← node fuel true false s
        return (some root, s)
  | _ =>
    let (root, s) ← node fuel true false s
    return (some root, s)

end Composer

/-- The document of these tokens; a text without one has an absent node. -/
def documentOf (tokens : List Token) : Except Error Document := do
  let (root, s) ← (Composer.start tokens).document (4 * tokens.length + 4)
  match s.tokens.dropWhile (· = .documentEnd) with
  | [.streamEnd] => .ok ⟨root.getD .absent, s.anchors⟩
  | .documentStart :: _ | .version .. :: _ | .tagHandle .. :: _ => .error .secondDocument
  | _ => .error .unexpected

/-- Reads a text of at most one document. -/
def parse (text : String) : Except Error Document := do documentOf (← tokensOf text)

end MidiPanel.Yaml
