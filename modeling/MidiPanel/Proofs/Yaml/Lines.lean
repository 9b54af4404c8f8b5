import MidiPanel.Proofs.Yaml.Steps

/-!
# Lines and sections

A text of lines, each of them a name with a scalar, or a name over lines that stand two columns
further right, and the tokens that it comes down to.

Results:
* `lexes_line`, `lexes_lines`: one line, and the lines of a block.
* `lexes_entries`: from an entry of the topmost mapping to the end of the text.
* `tokensOf_entries`: the whole text.
-/

namespace MidiPanel.Yaml

open Lexer

/-! ## Lines -/

/-- A line of a mapping: the name of a field, and a scalar behind it. -/
structure Line where
  name : List Char
  value : List Char
  scalar : Scalar
  named : isFieldName name = true
  reads : Reads value scalar

/-- The token of a scalar. -/
def Scalar.token (s : Scalar) : Token := .scalar s.style s.text

/-- The tokens in front of the value of a field. -/
def keyTokens (name : List Char) : List Token :=
  [.key, .scalar .plain (String.ofList name), .value]

namespace Line

/-- The line with its line break, from this column on. -/
def chars (column : Nat) (l : Line) : List Char :=
  List.replicate column ' ' ++ (l.name ++ ':' :: ' ' :: (l.value ++ ['\n']))

def tokens (l : Line) : List Token := keyTokens l.name ++ [l.scalar.token]

end Line

section Lines

variable {n column : Nat} {name after : List Char} {tokens result : List Token}
  {columns : List Nat}

theorem head?_atKey (column : Nat) (tokens : List Token) (columns : List Nat) :
    (atKey column tokens columns).2.head? = some column := by
  unfold atKey
  dsimp only
  split
  next h => exact h
  next => rfl

/-- Nothing changes where the next key stands below the last one. -/
theorem atKey_of_head (h : columns.head? = some column) :
    atKey column tokens columns = (tokens, columns) := by
  cases columns with
  | nil => cases h
  | cons inner columns =>
    cases h
    simp [atKey]

/-- The indentation and the name of a field. -/
theorem lexes_name (hname : isFieldName name = true) (hafter : endsWord after = true)
    (h : Lexes (within ⟨n, column + name.length + 1, column + name.length + 1⟩ after
      ((keyTokens name).reverse ++ (atKey column tokens columns).1)
      (atKey column tokens columns).2 false) result) :
    Lexes (atLine n (List.replicate column ' ' ++ (name ++ ':' :: after)) tokens columns)
      result := by
  have hword := isWord_of_isFieldName hname
  have hstarts := startsToken_of_isWord hword (':' :: after)
  have hindent : ∀ c ∈ List.replicate column ' ', c = ' ' ∨ c = '\n' :=
    fun c hc => .inl (eq_space_of_mem_indent hc)
  have hpast : Position.past ⟨n, column, column⟩ (name ++ [':']) =
      ⟨n, column + name.length + 1, column + name.length + 1⟩ := by
    rw [Position.past_append, Position.past_of_isShown (isShown_of_isWord hword)]
    rfl
  have hskip :
      (atLine n (List.replicate column ' ' ++ (name ++ ':' :: after)) tokens columns).skip =
        (within ⟨n, column, column⟩ (name ++ ':' :: after) tokens columns true).skip := by
    rw [atLine, skip_indent hindent hstarts, past_indent, skip_of_startsToken rfl hstarts]
    simp
  rw [← hpast] at h
  exact .of_skip hskip (lexes_key hname hafter h)

theorem startsToken_of_reads {value : List Char} {scalar : Scalar} (h : Reads value scalar)
    (after : List Char) : StartsToken (value ++ after) := by
  cases h with
  | plain text smooth begins => exact startsToken_of_beginsPlain smooth begins after
  | quoted text shown => exact startsToken_cons (by decide)

theorem lexes_line (l : Line) (hafter : Continues column after)
    (h : Lexes (atLine (n + 1) after (l.tokens.reverse ++ (atKey column tokens columns).1)
      (atKey column tokens columns).2) result) :
    Lexes (atLine n (l.chars column ++ after) tokens columns) result := by
  have htext : l.chars column ++ after = List.replicate column ' ' ++
      (l.name ++ ':' :: ([' '] ++ (l.value ++ '\n' :: after))) := by
    simp [Line.chars]
  rw [htext]
  refine lexes_name l.named rfl ?_
  have hstarts := startsToken_of_reads l.reads ('\n' :: after)
  refine .of_skip ((skip_indent (by simp) hstarts).trans (skip_of_startsToken rfl hstarts).symm) ?_
  have hspace : Position.past ⟨n, column + l.name.length + 1, column + l.name.length + 1⟩ [' '] =
      ⟨n, column + l.name.length + 2, column + l.name.length + 2⟩ := rfl
  rw [hspace]
  have htokens : l.tokens.reverse = l.scalar.token :: (keyTokens l.name).reverse := by
    simp [Line.tokens]
  rw [htokens] at h
  exact lexes_value l.reads (head?_atKey column tokens columns) (by dsimp only; omega) hafter h

/-- A section begins with its name alone on a line. -/
theorem lexes_header (hname : isFieldName name = true)
    (h : Lexes (atLine (n + 1) after ((keyTokens name).reverse ++ (atKey column tokens columns).1)
      (atKey column tokens columns).2) result) :
    Lexes (atLine n (List.replicate column ' ' ++ (name ++ ':' :: '\n' :: after)) tokens columns)
      result :=
  lexes_name hname rfl (.of_skip skip_break h)

theorem continues_chars {below : Nat} (hcolumn : column ≤ below) (l : Line) (after : List Char) :
    Continues below (l.chars column ++ after) := by
  rw [Line.chars, List.append_assoc, List.append_assoc]
  exact .line column _ hcolumn (startsToken_of_isWord (isWord_of_isFieldName l.named) _)

/-- The lines of a block. -/
theorem lexes_lines (lines : List Line) (hne : lines ≠ []) (hafter : Continues column after)
    (h : Lexes (atLine (n + lines.length) after
      ((lines.flatMap Line.tokens).reverse ++ (atKey column tokens columns).1)
      (atKey column tokens columns).2) result) :
    Lexes (atLine n (lines.flatMap (Line.chars column) ++ after) tokens columns) result := by
  induction lines generalizing n tokens columns with
  | nil => exact absurd rfl hne
  | cons l lines ih =>
    cases lines with
    | nil =>
      simp only [List.flatMap_cons, List.flatMap_nil, List.append_nil] at h ⊢
      exact lexes_line l hafter h
    | cons l' lines =>
      rw [List.flatMap_cons, List.append_assoc]
      have hcontinues : Continues column ((l' :: lines).flatMap (Line.chars column) ++ after) := by
        rw [List.flatMap_cons, List.append_assoc]
        exact continues_chars (Nat.le_refl column) l' _
      refine lexes_line l hcontinues (ih (List.cons_ne_nil l' lines) ?_)
      have hhead := head?_atKey column tokens columns
      rw [atKey_of_head hhead]
      simpa [Nat.add_assoc, Nat.add_comm 1] using h

end Lines

/-! ## A mapping of lines and sections -/

/-- An entry of the topmost mapping: a line, or a name over indented lines. -/
inductive Entry where
  | line (l : Line)
  | block (name : List Char) (lines : List Line) (named : isFieldName name = true)
      (nonempty : lines ≠ [])

namespace Entry

def chars : Entry → List Char
  | .line l => l.chars 0
  | .block name lines _ _ => name ++ ':' :: '\n' :: lines.flatMap (Line.chars 2)

def tokens : Entry → List Token
  | .line l => l.tokens
  | .block name lines _ _ =>
    keyTokens name ++ .blockMappingStart :: (lines.flatMap Line.tokens ++ [.blockEnd])

end Entry

/-- The tokens and open blocks behind an entry of the topmost mapping. The block of a section is
still open. -/
inductive Behind (tokens : List Token) : List Token → List Nat → Prop
  | line : Behind tokens tokens [0]
  | block (inner : List Token) (ended : tokens = .blockEnd :: inner) : Behind tokens inner [2, 0]

section Entries

variable {n : Nat} {after : List Char} {tokens before result : List Token} {columns : List Nat}

theorem Behind.atKey_eq (h : Behind tokens before columns) :
    atKey 0 before columns = (tokens, [0]) := by
  cases h with
  | line => rfl
  | block inner ended => rw [ended]; rfl

theorem continues_entry (e : Entry) (after : List Char) {below : Nat} :
    Continues below (e.chars ++ after) := by
  cases e with
  | line l => exact continues_chars (Nat.zero_le below) l after
  | block name lines named nonempty =>
    rw [Entry.chars, List.append_assoc]
    exact .line 0 _ (Nat.zero_le below) (startsToken_of_isWord (isWord_of_isFieldName named) _)

theorem lexes_entry (e : Entry) (hafter : ∀ below, Continues below after)
    (h : ∀ n before columns, Behind (e.tokens.reverse ++ tokens) before columns →
      Lexes (atLine n after before columns) result)
    (hbefore : atKey 0 before columns = (tokens, [0])) :
    Lexes (atLine n (e.chars ++ after) before columns) result := by
  cases e with
  | line l =>
    refine lexes_line l (hafter 0) ?_
    rw [hbefore]
    exact h _ _ _ .line
  | block name lines named nonempty =>
    have htext : (Entry.block name lines named nonempty).chars ++ after =
        List.replicate 0 ' ' ++ (name ++ ':' :: '\n' ::
          (lines.flatMap (Line.chars 2) ++ after)) := by
      simp [Entry.chars]
    rw [htext]
    refine lexes_header named (lexes_lines lines nonempty (hafter 2) ?_)
    rw [hbefore]
    refine h _ _ _ (.block _ ?_)
    simp [Entry.tokens, atKey]

/-- At the end of the text the open blocks end. -/
theorem lexes_end (h : Behind tokens before columns) :
    Lexes (atLine n ['\n'] before columns) (tokens.reverse ++ [.blockEnd, .streamEnd]) := by
  have hreverse (ends : List Token) :
      tokens.reverse ++ ends = (ends.reverse ++ tokens).reverse := by
    simp
  rw [hreverse]
  cases h with
  | line =>
    have hstep : (atLine n ['\n'] tokens [0]).step = .ok ⟨⟨⟨n + 1, 0, 0⟩, []⟩,
        .streamEnd :: .blockEnd :: tokens, tokens.length + 1 + 1, [], none, [], false⟩ := rfl
    exact .last hstep rfl
  | block inner ended =>
    have hstep : (atLine n ['\n'] before [2, 0]).step = .ok ⟨⟨⟨n + 1, 0, 0⟩, []⟩,
        .streamEnd :: .blockEnd :: .blockEnd :: before, before.length + 2 + 1, [], none, [],
        false⟩ := rfl
    rw [ended]
    exact .last hstep rfl

theorem continues_entries (entries : List Entry) {below : Nat} :
    Continues below (entries.flatMap Entry.chars ++ ['\n']) := by
  cases entries with
  | nil => exact .ends
  | cons e entries =>
    rw [List.flatMap_cons, List.append_assoc]
    exact continues_entry e _

theorem lexes_entries (entries : List Entry) (h : Behind tokens before columns) :
    Lexes (atLine n (entries.flatMap Entry.chars ++ ['\n']) before columns)
      (tokens.reverse ++ entries.flatMap Entry.tokens ++ [.blockEnd, .streamEnd]) := by
  induction entries generalizing n tokens before columns with
  | nil => simpa using lexes_end h
  | cons e entries ih =>
    rw [List.flatMap_cons, List.append_assoc]
    refine lexes_entry e (fun _ => continues_entries entries) ?_ h.atKey_eq
    intro n before columns h
    simpa using ih h

/-! ## The whole text -/

theorem unifyBreaks_of_isShown {text : List Char} (h : ∀ c ∈ text, isShown c = true ∨ c = '\n') :
    unifyBreaks text = text := by
  induction text with
  | nil => rfl
  | cons c text ih =>
    obtain ⟨hc, htext⟩ := List.forall_mem_cons.mp h
    have hreturn : c ≠ '\r' := by
      rintro rfl
      revert hc
      decide
    have hnext : c ≠ '\u0085' := by
      rintro rfl
      revert hc
      decide
    simp [unifyBreaks, hreturn, hnext, ih htext]

theorem isShown_of_mem_chars (e : Entry) : ∀ c ∈ e.chars, isShown c = true ∨ c = '\n' := by
  have hname {name : List Char} (h : isFieldName name = true) : ∀ c ∈ name, isShown c = true :=
    isShown_of_isWord (isWord_of_isFieldName h)
  have hline (column : Nat) (l : Line) : ∀ c ∈ l.chars column, isShown c = true ∨ c = '\n' := by
    intro c hc
    simp only [Line.chars, List.mem_append, List.mem_cons, List.mem_replicate, List.not_mem_nil,
      or_false] at hc
    obtain ⟨-, rfl⟩ | hc | rfl | rfl | hc | rfl := hc
    · exact .inl rfl
    · exact .inl (hname l.named c hc)
    · exact .inl rfl
    · exact .inl rfl
    · exact .inl (l.reads.isShown c hc)
    · exact .inr rfl
  cases e with
  | line l => exact hline 0 l
  | block name lines named nonempty =>
    intro c hc
    simp only [Entry.chars, List.mem_append, List.mem_cons, List.mem_flatMap] at hc
    obtain hc | rfl | rfl | ⟨l, -, hc⟩ := hc
    · exact .inl (hname named c hc)
    · exact .inl rfl
    · exact .inr rfl
    · exact hline 2 l c hc

/-- The tokens of a mapping of lines and sections, with an empty line at the end. -/
theorem tokensOf_entries (entries : List Entry) (hne : entries ≠ []) :
    tokensOf (String.ofList (entries.flatMap Entry.chars ++ ['\n'])) =
      .ok (.blockMappingStart :: entries.flatMap Entry.tokens ++ [.blockEnd, .streamEnd]) := by
  have hshown : ∀ c ∈ entries.flatMap Entry.chars ++ ['\n'], isShown c = true ∨ c = '\n' := by
    intro c hc
    simp only [List.mem_append, List.mem_flatMap, List.mem_singleton] at hc
    obtain ⟨e, -, hc⟩ | rfl := hc
    · exact isShown_of_mem_chars e c hc
    · exact .inr rfl
  have hallowed : (entries.flatMap Entry.chars ++ ['\n']).all isAllowed = true := by
    rw [List.all_eq_true]
    intro c hc
    obtain hc | rfl := hshown c hc
    · exact isAllowed_of_isShown hc
    · rfl
  have hlexes : Lexes (.start (entries.flatMap Entry.chars ++ ['\n']))
      (.blockMappingStart :: entries.flatMap Entry.tokens ++ [.blockEnd, .streamEnd]) := by
    obtain ⟨e, entries, rfl⟩ := List.exists_cons_of_ne_nil hne
    rw [List.flatMap_cons, List.append_assoc]
    refine lexes_entry e (fun _ => continues_entries entries) ?_ rfl
    intro n before columns h
    simpa using lexes_entries entries h
  unfold tokensOf
  rw [String.toList_ofList, hallowed, if_neg (by decide), unifyBreaks_of_isShown hshown]
  exact hlexes.run_eq (Nat.lt_succ_of_le (length_skip_le _))

end Entries

end MidiPanel.Yaml
