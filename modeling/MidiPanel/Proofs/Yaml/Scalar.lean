import MidiPanel.Proofs.Text.Ascii
import MidiPanel.Yaml.Emit

/-!
# Scalars that read back

Scalars of printable ASCII characters on one line, as they are written and as they are read. A plain
scalar goes on through blanks that stand between its words and ends before a colon that ends a word,
or behind its line if what comes next stands further left. In single quotes everything is read as it
is, a quote written twice as one.

Results:
* `plainFrom_smooth`, `readPlain_key`, `readPlain_line`: a plain scalar as a key, and as a value.
* `readQuoted_doubled`: a scalar in single quotes.
* `smooth_of_isWord`, `smooth_of_allowsPlain`: what is written plain can be read plain.
* `reads_textScalar`: a text is read back from how it is written.
-/

namespace MidiPanel.Yaml

/-! ## Characters -/

/-- A printable ASCII character. -/
def isShown (c : Char) : Bool := ' ' ≤ c && c ≤ '~'

theorem isShown_iff {c : Char} : isShown c = true ↔ 32 ≤ c.toNat ∧ c.toNat ≤ 126 := by
  simp only [isShown, Bool.and_eq_true, decide_eq_true_eq]
  exact Iff.rfl

theorem ne_of_holds {p : Char → Bool} {c d : Char} (h : p c = true) (hd : p d = false) : c ≠ d := by
  rintro rfl
  exact Bool.noConfusion (h.symm.trans hd)

theorem isBreak_of_isShown {c : Char} (h : isShown c = true) : isBreak c = false := by
  have hne {d : Char} (hd : isShown d = false) : decide (c = d) = false :=
    decide_eq_false (ne_of_holds h hd)
  unfold isBreak
  rw [hne (by decide), hne (by decide), hne (by decide), hne (by decide), hne (by decide)]
  rfl

/-- The only blank among them is the space. -/
theorem isBlank_of_isShown {c : Char} (h : isShown c = true) : isBlank c = decide (c = ' ') := by
  unfold isBlank
  rw [decide_eq_false (ne_of_holds (d := '\t') h (by decide)), Bool.or_false]

theorem isAllowed_of_isShown {c : Char} (h : isShown c = true) : isAllowed c = true := by
  have hrange : (decide (' ' ≤ c) && decide (c ≤ '~')) = true := h
  unfold isAllowed
  rw [hrange]
  simp

/-! ## Positions -/

/-- The position behind a text. -/
def Position.past (pos : Position) (text : List Char) : Position := text.foldl Position.after pos

@[simp] theorem Position.past_nil (pos : Position) : pos.past [] = pos := rfl

@[simp] theorem Position.past_cons (pos : Position) (c : Char) (text : List Char) :
    pos.past (c :: text) = (pos.after c).past text :=
  rfl

theorem Position.past_append (pos : Position) (text more : List Char) :
    pos.past (text ++ more) = (pos.past text).past more :=
  List.foldl_append

theorem Position.after_of_isShown {c : Char} (h : isShown c = true) (pos : Position) :
    pos.after c = ⟨pos.line, pos.column + 1, pos.bytes + 1⟩ := by
  have hsize : c.utf8Size = 1 := by
    apply utf8Size_of_ascii
    have := isShown_iff.mp h
    omega
  unfold after
  rw [isBreak_of_isShown h, if_neg Bool.false_ne_true, hsize]

theorem Position.past_of_isShown {text : List Char} (h : ∀ c ∈ text, isShown c = true)
    (pos : Position) :
    pos.past text = ⟨pos.line, pos.column + text.length, pos.bytes + text.length⟩ := by
  induction text generalizing pos with
  | nil => rfl
  | cons c text ih =>
    obtain ⟨hc, htext⟩ := List.forall_mem_cons.mp h
    rw [past_cons, ih htext, after_of_isShown hc, List.length_cons]
    dsimp only
    rw [Nat.add_right_comm, Nat.add_right_comm pos.bytes]
    rfl

/-! ## Plain scalars -/

/-- On one line, a plain scalar goes on to the end of the text: it does not end in a blank, no blank
comes before a number sign, and every colon is inside a word. -/
def isSmooth (afterBlank : Bool) : List Char → Bool
  | [] => !afterBlank
  | c :: rest => isShown c &&
    if c = ' ' then isSmooth true rest
    else !(afterBlank && c = '#') && !(c = ':' && endsWord rest) && isSmooth false rest

theorem isShown_of_isSmooth {afterBlank : Bool} {text : List Char}
    (h : isSmooth afterBlank text = true) : ∀ c ∈ text, isShown c = true := by
  induction text generalizing afterBlank with
  | nil => simp
  | cons c text ih =>
    unfold isSmooth at h
    rw [Bool.and_eq_true] at h
    obtain ⟨hc, hrest⟩ := h
    refine List.forall_mem_cons.mpr ⟨hc, ?_⟩
    split at hrest
    · exact ih hrest
    · simp only [Bool.and_eq_true] at hrest
      exact ih hrest.2

/-- Blanks of one line since the last word. -/
def Gap.ofBlanks (blanks : List Char) : Gap := ⟨false, blanks, []⟩

section Plain

variable {floor : Nat} {pos : Position} {blanks : List Char} {c : Char} {rest : List Char}

theorem plainFrom_space :
    plainFrom false floor (.ofBlanks blanks) pos (' ' :: rest) =
      plainFrom false floor (.ofBlanks (blanks ++ [' '])) (pos.after ' ') rest :=
  rfl

theorem atAnyMarker_of_column_pos (h : 0 < pos.column) (text : List Char) :
    Cursor.atAnyMarker ⟨pos, text⟩ = false := by
  have hcolumn : pos.column ≠ 0 := by omega
  simp [Cursor.atAnyMarker, Cursor.atMarker, hcolumn]

/-- A character of a word. -/
theorem plainFrom_char (hc : isShown c = true) (hspace : c ≠ ' ')
    (hcomment : blanks ≠ [] → c ≠ '#' ∧ floor ≤ pos.column ∧ 0 < pos.column)
    (hcolon : c = ':' → endsWord rest = false) :
    plainFrom false floor (.ofBlanks blanks) pos (c :: rest) =
      (plainFrom false floor (.ofBlanks []) (pos.after c) rest).map fun e =>
        { e with text := blanks ++ c :: e.text } := by
  have hgoesOn : (!(Gap.ofBlanks blanks).isEmpty && ((!false && decide (pos.column < floor)) ||
      Cursor.atAnyMarker ⟨pos, c :: rest⟩ || decide (c = '#'))) = false := by
    cases blanks with
    | nil => rfl
    | cons blank blanks =>
      obtain ⟨hnumber, hfloor, hcolumn⟩ := hcomment (List.cons_ne_nil blank blanks)
      rw [atAnyMarker_of_column_pos hcolumn, decide_eq_false (Nat.not_lt.mpr hfloor),
        decide_eq_false hnumber]
      rfl
  have hword : endsPlain false c rest = false := by
    unfold endsPlain
    by_cases h : c = ':'
    · rw [hcolon h]
      simp
    · simp [h]
  rw [plainFrom, isBlank_of_isShown hc, isBreak_of_isShown hc, decide_eq_false hspace,
    if_neg (by decide), hgoesOn, if_neg Bool.false_ne_true]
  unfold colonTouches
  rw [Bool.false_and, Bool.false_and, if_neg Bool.false_ne_true, hword,
    if_neg Bool.false_ne_true]
  rfl

/-- The words of a scalar, behind blanks of the same line. -/
theorem plainFrom_smooth {text tail : List Char}
    (hsmooth : isSmooth (!blanks.isEmpty) text = true) (hfloor : floor ≤ pos.column + 1)
    (hblanks : blanks ≠ [] → floor ≤ pos.column ∧ 0 < pos.column) :
    plainFrom false floor (.ofBlanks blanks) pos (text ++ tail) =
      (plainFrom false floor (.ofBlanks []) (pos.past text) tail).map fun e =>
        { e with text := blanks ++ text ++ e.text } := by
  induction text generalizing blanks pos with
  | nil =>
    have hnone : blanks = [] := by simpa [isSmooth] using hsmooth
    subst hnone
    show plainFrom false floor _ pos tail = Except.map id _
    rw [Except.map_id]
    rfl
  | cons c text ih =>
    unfold isSmooth at hsmooth
    rw [Bool.and_eq_true] at hsmooth
    obtain ⟨hc, hrest⟩ := hsmooth
    have hcolumn : floor ≤ (pos.after c).column ∧ 0 < (pos.after c).column := by
      rw [Position.after_of_isShown hc]
      exact ⟨hfloor, Nat.succ_pos _⟩
    have hfloor' : floor ≤ (pos.after c).column + 1 := Nat.le_succ_of_le hcolumn.1
    by_cases hspace : c = ' '
    · rw [if_pos hspace] at hrest
      subst hspace
      have hlater : (!(blanks ++ [' ']).isEmpty) = true := by simp
      rw [List.cons_append, plainFrom_space, ih (hlater ▸ hrest) hfloor' fun _ => hcolumn]
      simp only [List.append_assoc, List.singleton_append]
      rfl
    · rw [if_neg hspace] at hrest
      simp only [Bool.and_eq_true, Bool.not_eq_true', Bool.and_eq_false_iff,
        decide_eq_false_iff_not] at hrest
      obtain ⟨⟨hnumber, hcolon⟩, hword⟩ := hrest
      have hcomment : blanks ≠ [] → c ≠ '#' ∧ floor ≤ pos.column ∧ 0 < pos.column := by
        intro h
        exact ⟨hnumber.resolve_left (by simpa using h), hblanks h⟩
      have hcolon' : c = ':' → endsWord (text ++ tail) = false := by
        intro h
        have hends : endsWord text = false := hcolon.resolve_left (not_not_intro h)
        cases text with
        | nil => cases hends
        | cons d text => exact hends
      have hlater := @ih (pos.after c) [] hword hfloor' fun _ => hcolumn
      rw [List.cons_append, plainFrom_char hc hspace hcomment hcolon', hlater, Position.past_cons]
      cases plainFrom false floor (.ofBlanks []) ((pos.after c).past text) tail with
      | error cause => rfl
      | ok e => simp [Except.map]

/-- Nothing comes next, or a character that begins a token and is neither a blank nor a comment. -/
def StartsToken (rest : List Char) : Prop :=
  ∀ c ∈ rest.head?, isShown c = true ∧ c ≠ ' ' ∧ c ≠ '#'

theorem startsToken_cons {c : Char} (h : isShown c = true ∧ c ≠ ' ' ∧ c ≠ '#') :
    StartsToken (c :: rest) := by
  rintro d ⟨⟩
  exact h

/-- Behind a line break, a scalar ends where the next token stands too far left to belong to it. -/
theorem plainFrom_indent {gap : Gap} (hgap : gap.crossesLine = true) {indent : List Char}
    (hindent : ∀ c ∈ indent, c = ' ' ∨ c = '\n') (hrest : StartsToken rest)
    (hfloor : rest ≠ [] → (pos.past indent).column < floor) :
    ∃ gap', gap'.crossesLine = true ∧
      plainFrom false floor gap pos (indent ++ rest) = .ok ⟨[], gap', ⟨pos.past indent, rest⟩⟩ := by
  induction indent generalizing gap pos with
  | nil =>
    refine ⟨gap, hgap, ?_⟩
    cases rest with
    | nil => rfl
    | cons c rest =>
      obtain ⟨hc, hspace, -⟩ := hrest c rfl
      have hleft : pos.column < floor := hfloor (List.cons_ne_nil c rest)
      have hends : (!gap.isEmpty && ((!false && decide (pos.column < floor)) ||
          Cursor.atAnyMarker ⟨pos, c :: rest⟩ || decide (c = '#'))) = true := by
        simp [Gap.isEmpty, hgap, hleft]
      rw [List.nil_append, plainFrom, isBlank_of_isShown hc, isBreak_of_isShown hc,
        decide_eq_false hspace, if_neg (by decide), if_pos hends]
      rfl
  | cons c indent ih =>
    obtain ⟨hc, hindent'⟩ := List.forall_mem_cons.mp hindent
    have hpush : (gap.push c).crossesLine = true := by
      obtain rfl | rfl := hc <;> simp_all [Gap.push, Gap.crossesLine, isBreak]
    have hstep : plainFrom false floor gap pos (c :: indent ++ rest) =
        plainFrom false floor (gap.push c) (pos.after c) (indent ++ rest) := by
      obtain rfl | rfl := hc <;> rfl
    rw [hstep]
    exact ih hpush hindent' hfloor

theorem readPlain_key {name after : List Char} (hname : isSmooth false name = true)
    (hfloor : floor ≤ pos.column + 1) (hafter : endsWord after = true) :
    readPlain false floor ⟨pos, name ++ ':' :: after⟩ =
      .ok ⟨name, .empty, ⟨pos.past name, ':' :: after⟩⟩ := by
  have hcolon (pos : Position) : plainFrom false floor (.ofBlanks []) pos (':' :: after) =
      .ok ⟨[], .empty, ⟨pos, ':' :: after⟩⟩ := by
    simp [plainFrom, isBlank, isBreak, Gap.ofBlanks, Gap.isEmpty, Gap.crossesLine, Gap.empty,
      colonTouches, endsPlain, hafter]
  have hwords := @plainFrom_smooth floor pos [] name (':' :: after) hname hfloor
    fun h => absurd rfl h
  show plainFrom false floor (.ofBlanks []) pos (name ++ ':' :: after) = _
  rw [hwords, hcolon]
  simp [Except.map]

theorem readPlain_line {text indent : List Char} (htext : isSmooth false text = true)
    (hfloor : floor ≤ pos.column + 1) (hindent : ∀ c ∈ indent, c = ' ' ∨ c = '\n')
    (hrest : StartsToken rest)
    (hleft : rest ≠ [] → (pos.past (text ++ '\n' :: indent)).column < floor) :
    ∃ gap, gap.crossesLine = true ∧
      readPlain false floor ⟨pos, text ++ '\n' :: (indent ++ rest)⟩ =
        .ok ⟨text, gap, ⟨pos.past (text ++ '\n' :: indent), rest⟩⟩ := by
  rw [Position.past_append, Position.past_cons] at hleft
  have hcrosses : ((Gap.ofBlanks []).push '\n').crossesLine = true := rfl
  obtain ⟨gap, hgap, hline⟩ := plainFrom_indent hcrosses hindent hrest hleft
  have hwords := @plainFrom_smooth floor pos [] text ('\n' :: (indent ++ rest)) htext hfloor
    fun h => absurd rfl h
  refine ⟨gap, hgap, ?_⟩
  show plainFrom false floor (.ofBlanks []) pos _ = _
  have hbreak : plainFrom false floor (.ofBlanks []) (pos.past text) ('\n' :: (indent ++ rest)) =
      plainFrom false floor ((Gap.ofBlanks []).push '\n') ((pos.past text).after '\n')
        (indent ++ rest) := rfl
  rw [hwords, hbreak, hline, Position.past_append, Position.past_cons]
  simp [Except.map]

/-- The gap in front of a token. -/
theorem skipGap_indent {indent : List Char} (hindent : ∀ c ∈ indent, c = ' ' ∨ c = '\n')
    (hrest : StartsToken rest) (keyAllowed : Bool) :
    Lexer.skipGap false false keyAllowed pos (indent ++ rest) =
      (⟨pos.past indent, rest⟩, keyAllowed || indent.contains '\n') := by
  induction indent generalizing pos keyAllowed with
  | nil =>
    rw [List.nil_append, List.contains_nil, Bool.or_false]
    cases rest with
    | nil => rfl
    | cons c rest =>
      obtain ⟨hc, hspace, hnumber⟩ := hrest c rfl
      have htab : c ≠ '\t' := ne_of_holds hc (by decide)
      have hmark : c ≠ byteOrderMark := ne_of_holds hc (by decide)
      simp [Lexer.skipGap, isBreak_of_isShown hc, hspace, hnumber, htab, hmark]
  | cons c indent ih =>
    obtain ⟨hc, hindent'⟩ := List.forall_mem_cons.mp hindent
    obtain rfl | rfl := hc
    · show Lexer.skipGap false false keyAllowed (pos.after ' ') (indent ++ rest) = _
      rw [ih hindent']
      simp
    · show Lexer.skipGap false false (keyAllowed || !false) (pos.after '\n') (indent ++ rest) = _
      rw [ih hindent']
      simp

end Plain

/-! ## Single quotes -/

/-- A text with every single quote written twice. -/
def doubled (text : List Char) : List Char :=
  text.flatMap fun c => if c = '\x27' then ['\x27', '\x27'] else [c]

theorem isShown_of_mem_doubled {text : List Char} (h : ∀ c ∈ text, isShown c = true) :
    ∀ c ∈ doubled text, isShown c = true := by
  intro c hc
  obtain ⟨d, hd, hcd⟩ := List.mem_flatMap.mp hc
  split at hcd
  next heq =>
    have : c = '\x27' := by simpa using hcd
    rw [this]
    decide
  next =>
    rw [List.mem_singleton.mp hcd]
    exact h d hd

section Quoted

variable {pos : Position} {blanks : List Char} {c : Char} {rest : List Char}

theorem quotedFrom_space :
    quotedFrom false (.ofBlanks blanks) .text pos (' ' :: rest) =
      quotedFrom false (.ofBlanks (blanks ++ [' '])) .text (pos.after ' ') rest :=
  rfl

theorem quotedFrom_char (hc : isShown c = true) (hspace : c ≠ ' ') (hquote : c ≠ '\x27')
    (hcolumn : 0 < pos.column) :
    quotedFrom false (.ofBlanks blanks) .text pos (c :: rest) =
      prependText (blanks ++ [c]) (quotedFrom false (.ofBlanks []) .text (pos.after c) rest) := by
  rw [quotedFrom, isBlank_of_isShown hc, isBreak_of_isShown hc, decide_eq_false hspace,
    if_neg (by decide), atAnyMarker_of_column_pos hcolumn, if_neg Bool.false_ne_true,
    decide_eq_false hquote]
  simp only [Bool.false_and, Bool.and_false, Bool.or_false, Bool.false_eq_true, if_false]
  rw [if_neg hquote]
  rfl

theorem prependText_prependText (text more : List Char)
    (result : Except Error (List Char × Cursor)) :
    prependText text (prependText more result) = prependText (text ++ more) result := by
  cases result with
  | error cause => rfl
  | ok read => simp [prependText, Except.map]

theorem quotedFrom_quote (hcolumn : 0 < pos.column) :
    quotedFrom false (.ofBlanks blanks) .text pos ('\x27' :: '\x27' :: rest) =
      prependText (blanks ++ ['\x27'])
        (quotedFrom false (.ofBlanks []) .text ((pos.after '\x27').after '\x27') rest) := by
  rw [quotedFrom, if_neg (by decide), atAnyMarker_of_column_pos hcolumn,
    if_neg Bool.false_ne_true, if_pos (by rfl)]
  exact prependText_prependText blanks ['\x27'] _

theorem quotedFrom_close (hcolumn : 0 < pos.column) (hrest : rest.head? ≠ some '\x27') :
    quotedFrom false (.ofBlanks blanks) .text pos ('\x27' :: rest) =
      .ok (blanks, ⟨pos.after '\x27', rest⟩) := by
  rw [quotedFrom, if_neg (by decide), atAnyMarker_of_column_pos hcolumn,
    if_neg Bool.false_ne_true, if_neg (by simp [hrest]), if_pos (by decide)]
  rfl

/-- A quoted scalar up to its closing quote, behind blanks of the same line. -/
theorem quotedFrom_doubled {text tail : List Char} (htext : ∀ c ∈ text, isShown c = true)
    (hcolumn : 0 < pos.column) (htail : tail.head? ≠ some '\x27') :
    quotedFrom false (.ofBlanks blanks) .text pos (doubled text ++ '\x27' :: tail) =
      .ok (blanks ++ text, ⟨pos.past (doubled text ++ ['\x27']), tail⟩) := by
  induction text generalizing blanks pos with
  | nil =>
    rw [List.append_nil]
    exact quotedFrom_close hcolumn htail
  | cons c text ih =>
    obtain ⟨hc, htext'⟩ := List.forall_mem_cons.mp htext
    have hafter (d : Char) (hd : isShown d = true) (pos : Position) : 0 < (pos.after d).column := by
      rw [Position.after_of_isShown hd]
      exact Nat.succ_pos _
    by_cases hspace : c = ' '
    · subst hspace
      have hcons : doubled (' ' :: text) = ' ' :: doubled text := rfl
      rw [hcons, List.cons_append, quotedFrom_space, ih htext' (hafter ' ' hc pos)]
      simp
    · by_cases hquote : c = '\x27'
      · subst hquote
        have hcons : doubled ('\x27' :: text) = '\x27' :: '\x27' :: doubled text := rfl
        rw [hcons, List.cons_append, List.cons_append, quotedFrom_quote hcolumn,
          ih htext' (hafter _ hc _)]
        simp [prependText, Except.map]
      · have hcons : doubled (c :: text) = c :: doubled text := by simp [doubled, hquote]
        rw [hcons, List.cons_append, quotedFrom_char hc hspace hquote hcolumn,
          ih htext' (hafter c hc pos)]
        simp [prependText, Except.map]

theorem readQuoted_doubled {text tail : List Char} (htext : ∀ c ∈ text, isShown c = true)
    (htail : tail.head? ≠ some '\x27') :
    readQuoted false ⟨pos, '\x27' :: (doubled text ++ '\x27' :: tail)⟩ =
      .ok (text, ⟨pos.past ('\x27' :: (doubled text ++ ['\x27'])), tail⟩) := by
  have hcolumn : 0 < (pos.after '\x27').column := by
    rw [Position.after_of_isShown (by decide)]
    exact Nat.succ_pos _
  exact @quotedFrom_doubled (pos.after '\x27') [] text tail htext hcolumn htail

end Quoted

/-! ## Words -/

/-- A letter, a digit, or a mark that stands inside names and numbers. -/
def isWordChar (c : Char) : Bool := c.isAlphanum || c = '_' || c = '.' || c = '-'

/-- A name or a number, which begins with a letter or a digit. -/
def isWord : List Char → Bool
  | [] => false
  | c :: rest => c.isAlphanum && rest.all isWordChar

theorem isShown_of_isAlphanum {c : Char} (h : c.isAlphanum = true) : isShown c = true := by
  rw [isShown_iff]
  have hranges : (decide (65 ≤ c.val ∧ c.val ≤ 90) ||
      (decide (97 ≤ c.val) && decide (c.val ≤ 122)) ||
      (decide (48 ≤ c.val) && decide (c.val ≤ 57))) = true := h
  simp [UInt32.le_iff_toNat_le] at hranges
  omega

theorem isShown_of_isWordChar {c : Char} (h : isWordChar c = true) : isShown c = true := by
  simp only [isWordChar, Bool.or_eq_true, decide_eq_true_eq] at h
  obtain ((halnum | rfl) | rfl) | rfl := h
  · exact isShown_of_isAlphanum halnum
  · decide
  · decide
  · decide

theorem isSmooth_of_isWordChar {text : List Char} (h : ∀ c ∈ text, isWordChar c = true) :
    isSmooth false text = true := by
  induction text with
  | nil => rfl
  | cons c text ih =>
    obtain ⟨hc, htext⟩ := List.forall_mem_cons.mp h
    have hspace : c ≠ ' ' := ne_of_holds hc (by decide)
    have hcolon : c ≠ ':' := ne_of_holds hc (by decide)
    simp [isSmooth, isShown_of_isWordChar hc, hspace, hcolon, ih htext]

/-- Only a dash alone would be something else than a word. -/
theorem beginsPlain_of_isWordChar {text : List Char} (h : ∀ c ∈ text, isWordChar c = true)
    (hne : text ≠ []) (hdash : text ≠ ['-']) (after : List Char) :
    beginsPlain false (text ++ after) = true := by
  have hblank {c : Char} (hc : isShown c = true) (hspace : c ≠ ' ') :
      isBlank c = false ∧ isBreak c = false := by
    rw [isBlank_of_isShown hc, decide_eq_false hspace]
    exact ⟨rfl, isBreak_of_isShown hc⟩
  obtain ⟨c, text, rfl⟩ := List.exists_cons_of_ne_nil hne
  obtain ⟨hc, htext⟩ := List.forall_mem_cons.mp h
  simp only [isWordChar, Bool.or_eq_true, decide_eq_true_eq] at hc
  obtain ((halnum | rfl) | rfl) | rfl := hc
  · have hother {d : Char} (hd : d.isAlphanum = false) : c ≠ d := ne_of_holds halnum hd
    have hindicator : isIndicator c = false := by
      simp [isIndicator, isFlowIndicator, hother]
    simp [beginsPlain, hother, hblank (isShown_of_isAlphanum halnum), hindicator]
  · rfl
  · rfl
  · cases text with
    | nil => exact absurd rfl hdash
    | cons d text =>
      have hd := (List.forall_mem_cons.mp htext).1
      have hshown := isShown_of_isWordChar hd
      simp [beginsPlain, endsWord, hblank hshown (ne_of_holds hd (by decide))]

theorem isWordChar_of_isWord {text : List Char} (h : isWord text = true) :
    ∀ c ∈ text, isWordChar c = true := by
  cases text with
  | nil => cases h
  | cons c text =>
    simp only [isWord, Bool.and_eq_true, List.all_eq_true] at h
    refine List.forall_mem_cons.mpr ⟨?_, h.2⟩
    simp [isWordChar, h.1]

/-- A word is a plain scalar, alone or in front of a colon. -/
theorem smooth_of_isWord {text : List Char} (h : isWord text = true) :
    isSmooth false text = true ∧ ∀ after, beginsPlain false (text ++ after) = true := by
  have hchars := isWordChar_of_isWord h
  refine ⟨isSmooth_of_isWordChar hchars, beginsPlain_of_isWordChar hchars ?_ ?_⟩
  · rintro rfl
    cases h
  · rintro rfl
    revert h
    decide

/-! ## How a text is written -/

theorem endsToken_eq_endsWord : endsToken = endsWord := by
  funext text
  cases text <;> rfl

/-- Behind its first character, a text that may stand plain is smooth. -/
theorem isSmooth_of_not_hasInnerIndicator {a : Char} {text : List Char}
    (htext : ∀ c ∈ text, isShown c = true) (hinner : hasInnerIndicator (a :: text) = false)
    (hlast : (a :: text).getLast? ≠ some ' ') : isSmooth (a = ' ') text = true := by
  induction text generalizing a with
  | nil => simpa [isSmooth] using hlast
  | cons c text ih =>
    obtain ⟨hc, htext'⟩ := List.forall_mem_cons.mp htext
    unfold hasInnerIndicator at hinner
    simp only [Bool.or_eq_false_iff] at hinner
    obtain ⟨⟨hcolon, hnumber⟩, hinner'⟩ := hinner
    have hlast' : (c :: text).getLast? ≠ some ' ' := by
      rwa [List.getLast?_cons_cons] at hlast
    have hrest := ih htext' hinner' hlast'
    rw [endsToken_eq_endsWord] at hcolon
    have hcomment : (decide (a = ' ') && decide (c = '#')) = false := by
      by_cases ha : a = ' '
      · have hends : endsToken [a] = true := by
          rw [ha]
          rfl
        rw [hends, Bool.and_true] at hnumber
        rw [hnumber, Bool.and_false]
      · rw [decide_eq_false ha, Bool.false_and]
    unfold isSmooth
    rw [hc, Bool.true_and, hcomment, hcolon]
    by_cases hspace : c = ' '
    · rw [if_pos hspace]
      simpa [hspace] using hrest
    · rw [if_neg hspace]
      simpa [hspace] using hrest

/-- What may stand plain is read back plain. -/
theorem smooth_of_allowsPlain {text : List Char} (htext : ∀ c ∈ text, isShown c = true)
    (hne : text ≠ []) (h : allowsPlain text = true) :
    isSmooth false text = true ∧ beginsPlain false text = true := by
  obtain ⟨c, text, rfl⟩ := List.exists_cons_of_ne_nil hne
  obtain ⟨hc, htext'⟩ := List.forall_mem_cons.mp htext
  unfold allowsPlain at h
  simp only [Bool.not_eq_true', Bool.or_eq_false_iff] at h
  obtain ⟨⟨⟨⟨-, hhead⟩, hlast⟩, hbegins⟩, hinner⟩ := h
  have hspace : c ≠ ' ' := by
    rintro rfl
    cases hhead
  have hlast' : (c :: text).getLast? ≠ some ' ' := by
    intro hend
    rw [hend] at hlast
    cases hlast
  have hrest := isSmooth_of_not_hasInnerIndicator htext' hinner hlast'
  rw [decide_eq_false hspace] at hrest
  unfold beginsWithIndicator at hbegins
  dsimp only at hbegins
  by_cases hmark : c = '?' ∨ c = ':' ∨ c = '-'
  · have hword : endsWord text = false := by
      rw [if_pos (by simpa [or_assoc] using hmark), endsToken_eq_endsWord,
        Bool.or_eq_false_iff] at hbegins
      exact hbegins.1
    obtain rfl | rfl | rfl := hmark <;> simp [isSmooth, beginsPlain, hc, hword, hrest]
  · rw [if_neg (by simpa [or_assoc] using hmark), Bool.or_eq_false_iff] at hbegins
    simp only [not_or] at hmark
    obtain ⟨hquestion, hcolon, hdash⟩ := hmark
    have hblank : isBlank c = false := by rw [isBlank_of_isShown hc, decide_eq_false hspace]
    constructor
    · simp [isSmooth, hc, hspace, hcolon, hrest]
    · simp [beginsPlain, hquestion, hcolon, hdash, hblank, isBreak_of_isShown hc, hbegins.1]

/-- A text without line breaks is put in quotes as it is, but for the quotes in it. -/
theorem singleQuoted_eq {text : List Char} (htext : ∀ c ∈ text, isShown c = true) :
    singleQuoted text = String.ofList ('\x27' :: (doubled text ++ ['\x27'])) := by
  have hlines (inner : List Char) (h : ∀ c ∈ inner, isShown c = true) :
      indentLines false inner = inner := by
    induction inner with
    | nil => rfl
    | cons c inner ih =>
      obtain ⟨hc, hinner⟩ := List.forall_mem_cons.mp h
      simp [indentLines, isBreak_of_isShown hc, ih hinner]
  unfold singleQuoted
  refine congrArg (fun inner => String.ofList ('\x27' :: inner)) (hlines _ ?_)
  intro c hc
  rcases List.mem_append.mp hc with hinner | hquote
  · exact isShown_of_mem_doubled htext c hinner
  · rw [List.mem_singleton.mp hquote]
    decide

/-! ## What a scalar reads as -/

/-- The scalar that characters on one line are read as. -/
inductive Reads : List Char → Scalar → Prop
  | plain (text : List Char) (smooth : isSmooth false text = true)
      (begins : beginsPlain false text = true) :
      Reads text ⟨.plain, none, String.ofList text⟩
  | quoted (text : List Char) (shown : ∀ c ∈ text, isShown c = true) :
      Reads ('\x27' :: (doubled text ++ ['\x27'])) ⟨.quoted, none, String.ofList text⟩

theorem Reads.tag_eq {value : List Char} {scalar : Scalar} (h : Reads value scalar) :
    scalar.tag = none := by
  cases h <;> rfl

theorem Reads.isShown {value : List Char} {scalar : Scalar} (h : Reads value scalar) :
    ∀ c ∈ value, isShown c = true := by
  cases h with
  | plain text smooth begins => exact isShown_of_isSmooth smooth
  | quoted text shown =>
    intro c hc
    simp only [List.mem_cons, List.mem_append, List.not_mem_nil, or_false] at hc
    obtain rfl | hc | rfl := hc
    · decide
    · exact isShown_of_mem_doubled shown c hc
    · decide

theorem hasPair_of_isShown {text : List Char} (h : ∀ c ∈ text, isShown c = true) :
    hasPair isSpace isBreak text = false ∧ hasPair isBreak isSpace text = false := by
  induction text with
  | nil => exact ⟨rfl, rfl⟩
  | cons a text ih =>
    obtain ⟨ha, htext⟩ := List.forall_mem_cons.mp h
    cases text with
    | nil => exact ⟨rfl, rfl⟩
    | cons b text =>
      have hb := isBreak_of_isShown (List.forall_mem_cons.mp htext).1
      simp [hasPair, isBreak_of_isShown ha, hb, ih htext]

theorem allowsSingle_of_isShown {text : List Char} (h : ∀ c ∈ text, isShown c = true) :
    allowsSingle text = true := by
  have hprintable : text.any (!isPrintable ·) = false := by
    rw [List.any_eq_false]
    intro c hc
    have hrange : (decide (' ' ≤ c) && decide (c ≤ '~')) = true := h c hc
    simp [isPrintable, hrange]
  obtain ⟨hbefore, hbehind⟩ := hasPair_of_isShown h
  simp [allowsSingle, needsEscape, hprintable, hbefore, hbehind]

/-- A printable text is read back as it is. If it stands plain, it is no other value. -/
theorem reads_textScalar {text : String} (h : ∀ c ∈ text.toList, isShown c = true) :
    ∃ style, Reads (textScalar text).toList ⟨style, none, text⟩ ∧
      (style = .plain → readsAsValue text = false) := by
  have hbreak : text.toList.contains '\n' = false := by
    rw [← Bool.not_eq_true, List.contains_iff_mem]
    intro hmem
    exact absurd (h '\n' hmem) (by decide)
  have hquoted : (singleQuoted text.toList).toList =
      '\x27' :: (doubled text.toList ++ ['\x27']) := by
    rw [singleQuoted_eq h, String.toList_ofList]
  have htext : String.ofList text.toList = text := String.ofList_toList
  unfold textScalar
  dsimp only
  rw [hbreak, if_neg Bool.false_ne_true, allowsSingle_of_isShown h, if_pos rfl]
  by_cases hplain : (readsAsValue text || !allowsPlain text.toList) = true
  · rw [if_pos hplain, hquoted]
    have hreads := Reads.quoted text.toList h
    rw [htext] at hreads
    exact ⟨.quoted, hreads, by simp⟩
  · rw [if_neg hplain]
    simp only [Bool.or_eq_true, Bool.not_eq_true', not_or, Bool.not_eq_true,
      Bool.not_eq_false] at hplain
    have hne : text.toList ≠ [] := by
      intro hnil
      rw [String.toList_eq_nil_iff] at hnil
      subst hnil
      cases hplain.1
    obtain ⟨hsmooth, hbegins⟩ := smooth_of_allowsPlain h hne hplain.2
    have hreads := Reads.plain text.toList hsmooth hbegins
    rw [htext] at hreads
    exact ⟨.plain, hreads, fun _ => hplain.1⟩

end MidiPanel.Yaml
