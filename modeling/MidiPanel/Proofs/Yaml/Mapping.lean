import MidiPanel.Proofs.Yaml.Lines

/-!
# The document of lines and sections

The tokens of lines and sections make a mapping of scalars and of mappings of scalars, without
anchors. Every level of a node takes some of the fuel; each entry has more tokens than that.

Results:
* `blockEntries_lines`, `blockEntries_entries`: the mapping of a section, and the topmost one.
* `documentOf_entries`, `parse_entries`: the document of the tokens, and of the text.
-/

namespace MidiPanel.Yaml

/-- The key of a field. -/
def keyNode (name : List Char) : Node := .scalar ⟨.plain, none, String.ofList name⟩

/-- The key and the value of a line. -/
def Line.pair (l : Line) : Node × Node := (keyNode l.name, .scalar l.scalar)

/-- The key and the value of an entry. -/
def Entry.pair : Entry → Node × Node
  | .line l => l.pair
  | .block name lines _ _ => (keyNode name, .mapping (lines.map Line.pair))

namespace Composer

/-- What ends a key or a value in a block. -/
def fieldEnds : List Token := [.key, .value, .blockEnd]

section

variable {fuel : Nat} {s : Composer} {rest : List Token}

theorem content_scalar (style : ScalarStyle) (text : String) :
    content (fuel + 1) true true false none { s with tokens := .scalar style text :: rest } =
      .ok (.scalar ⟨style, none, text⟩, { s with tokens := rest }) := by
  unfold content
  rfl

theorem content_mapping (dashes : Bool) :
    content (fuel + 1) true dashes false none { s with tokens := .blockMappingStart :: rest } =
      blockEntries fuel [] { s with tokens := rest } := by
  unfold content
  cases dashes <;> rfl

/-- A node without properties. -/
theorem node_bare {block dashes : Bool} (halias : ∀ name, s.next ≠ .alias name)
    (h : s.properties = .ok (none, none, s)) :
    node (fuel + 1) block dashes s = content fuel block dashes false none s := by
  unfold node
  split
  next => contradiction
  next hnext => exact absurd hnext (halias _)
  next heq _ =>
    cases heq
    rw [h]
    show (content fuel block dashes false none s).bind (fun read => .ok (read.1, read.2)) = _
    cases content fuel block dashes false none s <;> rfl

theorem nodeUnless_scalar (c : Scalar) (htag : c.tag = none) (hfuel : 3 ≤ fuel) :
    nodeUnless fuel fieldEnds true true { s with tokens := c.token :: rest } =
      .ok (.scalar c, { s with tokens := rest }) := by
  obtain ⟨fuel, rfl⟩ := Nat.exists_eq_add_of_le' hfuel
  obtain ⟨style, tag, text⟩ := c
  cases htag
  have hbare : node (fuel + 2) true true { s with tokens := .scalar style text :: rest } =
      content (fuel + 1) true true false none { s with tokens := .scalar style text :: rest } :=
    node_bare (fun name => by simp [next]) rfl
  rw [nodeUnless, if_neg (by simp [fieldEnds, next, Scalar.token])]
  exact hbare.trans (content_scalar style text)

theorem nodeUnless_mapping :
    nodeUnless (fuel + 3) fieldEnds true true { s with tokens := .blockMappingStart :: rest } =
      blockEntries fuel [] { s with tokens := rest } := by
  have hbare : node (fuel + 2) true true { s with tokens := .blockMappingStart :: rest } =
      content (fuel + 1) true true false none { s with tokens := .blockMappingStart :: rest } :=
    node_bare (fun name => by simp [next]) rfl
  rw [nodeUnless, if_neg (by simp [fieldEnds, next])]
  exact hbare.trans (content_mapping true)

/-- One field of a mapping. -/
theorem blockEntries_field {name : List Char} {value : Node} {s' : Composer}
    (pairs : List (Node × Node)) (hfuel : 3 ≤ fuel)
    (hvalue : nodeUnless fuel fieldEnds true true { s with tokens := rest } = .ok (value, s')) :
    blockEntries (fuel + 1) pairs { s with tokens := keyTokens name ++ rest } =
      blockEntries fuel ((keyNode name, value) :: pairs) s' := by
  have hkey := @nodeUnless_scalar fuel s (.value :: rest) ⟨.plain, none, String.ofList name⟩ rfl
    hfuel
  conv_lhs => unfold blockEntries
  show (nodeUnless fuel fieldEnds true true { s with
    tokens := Scalar.token ⟨.plain, none, String.ofList name⟩ :: .value :: rest }).bind _ = _
  rw [hkey]
  show (nodeUnless fuel fieldEnds true true { s with tokens := rest }).bind _ = _
  rw [hvalue]
  rfl

theorem blockEntries_end (pairs : List (Node × Node)) :
    blockEntries (fuel + 1) pairs { s with tokens := .blockEnd :: rest } =
      .ok (.mapping pairs.reverse, { s with tokens := rest }) := by
  unfold blockEntries
  rfl

theorem blockEntries_lines (lines : List Line) (pairs : List (Node × Node))
    (hfuel : lines.length + 4 ≤ fuel) :
    blockEntries fuel pairs
        { s with tokens := lines.flatMap Line.tokens ++ .blockEnd :: rest } =
      .ok (.mapping (pairs.reverse ++ lines.map Line.pair), { s with tokens := rest }) := by
  induction lines generalizing fuel pairs with
  | nil =>
    obtain ⟨fuel, rfl⟩ := Nat.exists_eq_add_of_le' hfuel
    simpa using blockEntries_end pairs
  | cons l lines ih =>
    rw [List.length_cons] at hfuel
    obtain ⟨fuel, rfl⟩ : ∃ more, fuel = more + 1 := ⟨fuel - 1, by omega⟩
    have hvalue := @nodeUnless_scalar fuel s (lines.flatMap Line.tokens ++ .blockEnd :: rest)
      l.scalar l.reads.tag_eq (by omega)
    have htext : (l :: lines).flatMap Line.tokens ++ .blockEnd :: rest = keyTokens l.name ++
        l.scalar.token :: (lines.flatMap Line.tokens ++ .blockEnd :: rest) := by
      simp [Line.tokens]
    rw [htext, blockEntries_field pairs (by omega) hvalue, ih _ (by omega)]
    simp [Line.pair]

theorem length_tokens (lines : List Line) :
    (lines.flatMap Line.tokens).length = 4 * lines.length := by
  induction lines with
  | nil => rfl
  | cons l lines ih =>
    have hline : l.tokens.length = 4 := rfl
    rw [List.flatMap_cons, List.length_append, ih, hline, List.length_cons]
    omega

/-- The value of an entry is read with less fuel than the entry has tokens, and leaves the tokens
behind it. -/
theorem exists_value (e : Entry) : ∃ name value before,
    e.tokens = keyTokens name ++ before ∧ e.pair = (keyNode name, value) ∧
    ∀ (fuel : Nat) (rest : List Token), before.length + 5 ≤ fuel →
      nodeUnless fuel fieldEnds true true { s with tokens := before ++ rest } =
        .ok (value, { s with tokens := rest }) := by
  cases e with
  | line l =>
    refine ⟨l.name, .scalar l.scalar, [l.scalar.token], rfl, rfl, ?_⟩
    intro fuel rest hfuel
    exact nodeUnless_scalar l.scalar l.reads.tag_eq (by omega)
  | block name lines named nonempty =>
    refine ⟨name, .mapping (lines.map Line.pair), _, rfl, rfl, ?_⟩
    intro fuel rest hfuel
    have hlength := length_tokens lines
    simp only [List.length_cons, List.length_append, List.length_nil] at hfuel
    obtain ⟨fuel, rfl⟩ : ∃ more, fuel = more + 3 := ⟨fuel - 3, by omega⟩
    simpa using nodeUnless_mapping.trans (blockEntries_lines lines [] (by omega))

theorem blockEntries_entries (entries : List Entry) (pairs : List (Node × Node))
    (hfuel : (entries.flatMap Entry.tokens).length + 4 ≤ fuel) :
    blockEntries fuel pairs
        { s with tokens := entries.flatMap Entry.tokens ++ .blockEnd :: rest } =
      .ok (.mapping (pairs.reverse ++ entries.map Entry.pair), { s with tokens := rest }) := by
  induction entries generalizing fuel pairs with
  | nil =>
    obtain ⟨fuel, rfl⟩ := Nat.exists_eq_add_of_le' hfuel
    simpa using blockEntries_end pairs
  | cons e entries ih =>
    rw [List.flatMap_cons, List.length_append] at hfuel
    obtain ⟨name, value, before, htokens, hpair, hvalue⟩ := @exists_value s e
    rw [htokens, List.length_append] at hfuel
    have hkey : (keyTokens name).length = 3 := rfl
    obtain ⟨fuel, rfl⟩ : ∃ more, fuel = more + 1 := ⟨fuel - 1, by omega⟩
    rw [List.flatMap_cons, htokens, List.append_assoc, List.append_assoc,
      blockEntries_field pairs (by omega) (hvalue fuel _ (by omega)), ih _ (by omega)]
    simp [hpair]

end

end Composer

/-- The document of a mapping of lines and sections. -/
theorem documentOf_entries (entries : List Entry) :
    documentOf (.blockMappingStart :: entries.flatMap Entry.tokens ++ [.blockEnd, .streamEnd]) =
      .ok ⟨.mapping (entries.map Entry.pair), []⟩ := by
  let start := Composer.start
    (.blockMappingStart :: (entries.flatMap Entry.tokens ++ [.blockEnd, .streamEnd]))
  have hnode : start.document (4 * (entries.flatMap Entry.tokens).length + 14 + 2) =
      .ok (some (.mapping (entries.map Entry.pair)), { start with tokens := [.streamEnd] }) := by
    have hbare := @Composer.node_bare (4 * (entries.flatMap Entry.tokens).length + 14 + 1) start
      true false (fun name => by simp [start, Composer.start, Composer.next]) rfl
    have hentries := @Composer.blockEntries_entries
      (4 * (entries.flatMap Entry.tokens).length + 14) start [.streamEnd] entries [] (by omega)
    show (Composer.node _ true false start).bind _ = _
    rw [hbare.trans ((Composer.content_mapping false).trans hentries)]
    rfl
  have hfuel : 4 * (Token.blockMappingStart ::
      (entries.flatMap Entry.tokens ++ [.blockEnd, .streamEnd])).length + 4 =
        4 * (entries.flatMap Entry.tokens).length + 14 + 2 := by
    simp
    omega
  unfold documentOf
  rw [List.cons_append, hfuel, hnode]
  rfl

theorem parse_entries (entries : List Entry) (hne : entries ≠ []) :
    parse (String.ofList (entries.flatMap Entry.chars ++ ['\n'])) =
      .ok ⟨.mapping (entries.map Entry.pair), []⟩ := by
  unfold parse
  rw [tokensOf_entries entries hne]
  exact documentOf_entries entries

end MidiPanel.Yaml
