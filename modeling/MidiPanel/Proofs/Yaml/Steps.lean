import MidiPanel.Proofs.Yaml.Scalar

/-!
# Tokens step by step

How the tokens of a field come out of its text: its name, which the colon makes a key, and the
scalar behind it. A key in the column of an open block goes on with it; one further left ends what
stands right of it, and one further right begins a mapping of its own. Every step reads behind the
gap that comes next, so that two places with the same text behind the gap lead to the same tokens.

Results:
* `Lexes`, `Lexes.run_eq`: reading to the end of a text, for which its length is fuel enough.
* `Lexes.of_skip`: a gap makes no difference.
* `step_name`, `step_colon`, `lexes_key`: a name with its colon.
* `lexes_plain`, `lexes_quoted`, `lexes_value`: a scalar that ends its line.
-/

namespace MidiPanel.Yaml

open Lexer

/-! ## Reading to the end -/

/-- Reading goes on to the end of the text and leaves these tokens. -/
inductive Lexes : Lexer → List Token → Prop
  | last {l l' : Lexer} (step : l.step = .ok l') (ends : l'.tokens.head? = some .streamEnd) :
      Lexes l l'.tokens.reverse
  | next {l l' : Lexer} {tokens : List Token} (step : l.step = .ok l')
      (more : l'.tokens.head? ≠ some .streamEnd)
      (shorter : l'.cursor.rest.length < l.skip.cursor.rest.length) (lexes : Lexes l' tokens) :
      Lexes l tokens

theorem length_skipGap_le (flow comment keyAllowed : Bool) (pos : Position) (text : List Char) :
    (skipGap flow comment keyAllowed pos text).1.rest.length ≤ text.length := by
  induction text generalizing comment keyAllowed pos with
  | nil => exact Nat.le_refl _
  | cons c text ih =>
    unfold skipGap
    split
    · exact Nat.le_succ_of_le (ih ..)
    · split
      · exact Nat.le_succ_of_le (ih ..)
      · split
        · exact Nat.le_succ_of_le (ih ..)
        · exact Nat.le_refl _

theorem length_skip_le (l : Lexer) : l.skip.cursor.rest.length ≤ l.cursor.rest.length :=
  length_skipGap_le ..

/-- A character for each step is enough. -/
theorem Lexes.run_eq {l : Lexer} {tokens : List Token} (h : Lexes l tokens) {fuel : Nat}
    (hfuel : l.skip.cursor.rest.length < fuel) : l.run fuel = .ok tokens := by
  induction h generalizing fuel with
  | @last l l' step ends =>
    obtain ⟨fuel, rfl⟩ := Nat.exists_eq_add_one_of_ne_zero (Nat.ne_of_gt (Nat.zero_lt_of_lt hfuel))
    rw [run, step]
    exact if_pos ends
  | @next l l' tokens step more shorter _ ih =>
    obtain ⟨fuel, rfl⟩ := Nat.exists_eq_add_one_of_ne_zero (Nat.ne_of_gt (Nat.zero_lt_of_lt hfuel))
    have hrest := length_skip_le l'
    have hfuel' : l'.skip.cursor.rest.length < fuel := by omega
    rw [run, step, ← ih hfuel']
    exact if_neg more

/-- A step begins behind the gap. -/
theorem step_congr {l l' : Lexer} (h : l.skip = l'.skip) : l.step = l'.step := by
  unfold step
  rw [h]

theorem Lexes.of_skip {l l' : Lexer} {tokens : List Token} (h : l.skip = l'.skip)
    (hlexes : Lexes l' tokens) : Lexes l tokens := by
  cases hlexes with
  | last step ends => exact .last ((step_congr h).trans step) ends
  | next step more shorter lexes => exact .next ((step_congr h).trans step) more (h ▸ shorter) lexes

/-! ## Choosing a token -/

section Choice

variable {l : Lexer} {c : Char} {rest : List Char}

/-- No document marker can come next: the cursor stands inside a line, or on another character. -/
def OffMarker (cursor : Cursor) : Prop :=
  cursor.pos.column ≠ 0 ∨ ∀ c ∈ cursor.rest.head?, c ≠ '-' ∧ c ≠ '.'

theorem OffMarker.atMarker_eq {cursor : Cursor} (h : OffMarker cursor) :
    cursor.atMarker '-' = false ∧ cursor.atMarker '.' = false := by
  obtain ⟨pos, text⟩ := cursor
  unfold Cursor.atMarker
  rcases h with hcolumn | hhead
  · rw [decide_eq_false hcolumn]
    exact ⟨Bool.false_and _, Bool.false_and _⟩
  · have hbegins (mark : Char) (h : ∀ c ∈ text.head?, c ≠ mark) :
        Cursor.beginsWithMarker mark text = false := by
      unfold Cursor.beginsWithMarker
      split
      next a b c rest =>
        rw [decide_eq_false (h a rfl)]
        rfl
      next => rfl
    dsimp only
    rw [hbegins '-' fun c hc => (hhead c hc).1, hbegins '.' fun c hc => (hhead c hc).2]
    exact ⟨Bool.and_false _, Bool.and_false _⟩

theorem tokenAt_colon (hflow : l.inFlow = false) (hmarker : OffMarker l.cursor)
    (hends : endsWord rest = true) : l.tokenAt ':' rest = l.value := by
  simp [tokenAt, hmarker.atMarker_eq, hflow, hends]

theorem tokenAt_quote (hflow : l.inFlow = false) (hmarker : OffMarker l.cursor) :
    l.tokenAt '\x27' rest = l.quotedScalar false := by
  simp [tokenAt, hmarker.atMarker_eq, hflow]

theorem tokenAt_plain (hflow : l.inFlow = false) (hmarker : OffMarker l.cursor)
    (hbegins : beginsPlain false (c :: rest) = true) : l.tokenAt c rest = l.plainScalar := by
  by_cases hword : c = '-' ∨ c = '?' ∨ c = ':'
  · have hends : endsWord rest = false := by
      obtain rfl | rfl | rfl := hword <;> simpa [beginsPlain] using hbegins
    obtain rfl | rfl | rfl := hword <;>
      simp [tokenAt, hmarker.atMarker_eq, hflow, hends, beginsPlain]
  · rw [not_or, not_or] at hword
    obtain ⟨hdash, hquestion, hcolon⟩ := hword
    have hindicator : isIndicator c = false := by
      simp only [beginsPlain, hdash, hquestion, hcolon] at hbegins
      simp_all
    simp [isIndicator, isFlowIndicator] at hindicator
    simp [tokenAt, hmarker.atMarker_eq, hflow, hbegins, hdash, hquestion, hcolon, hindicator]

end Choice

/-! ## Keys -/

/-- The names of fields are short words. -/
def isFieldName (name : List Char) : Bool := isWord name && name.length ≤ 1024

theorem isWord_of_isFieldName {name : List Char} (h : isFieldName name = true) :
    isWord name = true :=
  (Bool.and_eq_true_iff.mp h).1

/-- Outside of brackets, with no key in sight. -/
def within (pos : Position) (text : List Char) (tokens : List Token) (columns : List Nat)
    (keyAllowed : Bool) : Lexer :=
  ⟨⟨pos, text⟩, tokens, tokens.length, columns, none, [], keyAllowed⟩

/-- The tokens and the open blocks where a key in this column begins: blocks further right end, and
one begins if none stands there. -/
def atKey (column : Nat) (tokens : List Token) (columns : List Nat) : List Token × List Nat :=
  let left := columns.dropWhile (column < ·)
  let tokens := (columns.takeWhile (column < ·)).map (fun _ => Token.blockEnd) ++ tokens
  if left.head? = some column then (tokens, left)
  else (.blockMappingStart :: tokens, column :: left)

section Key

variable {pos : Position} {text name after : List Char} {tokens : List Token} {columns : List Nat}
  {keyAllowed : Bool}

theorem skip_of_startsToken {l : Lexer} (hflow : l.inFlow = false) (h : StartsToken l.cursor.rest) :
    l.skip = l := by
  have hgap := @skipGap_indent l.cursor.pos l.cursor.rest [] (by simp) h l.keyAllowed
  rw [List.nil_append, Position.past_nil, List.contains_nil, Bool.or_false] at hgap
  unfold skip
  rw [hflow, hgap]

/-- Some of the open blocks have ended. -/
theorem closeBlocks_within (key : Option PossibleKey) (ends : Nat → Bool) :
    { within pos text tokens columns keyAllowed with key := key }.closeBlocks ends =
      { within pos text ((columns.takeWhile ends).map (fun _ => .blockEnd) ++ tokens)
        (columns.dropWhile ends) keyAllowed with key := key } := by
  have hleft : columns.drop (columns.takeWhile ends).length = columns.dropWhile ends := by
    calc columns.drop (columns.takeWhile ends).length
        = (columns.takeWhile ends ++ columns.dropWhile ends).drop
            (columns.takeWhile ends).length := by rw [List.takeWhile_append_dropWhile]
      _ = columns.dropWhile ends := List.drop_left
  simp [closeBlocks, within, inFlow, hleft, Nat.add_comm]

/-- A token outside of brackets, where no key is in sight. -/
theorem step_within {c : Char} (h : StartsToken (c :: text)) :
    (within pos (c :: text) tokens columns keyAllowed).step =
      (within pos (c :: text)
        ((columns.takeWhile (pos.column < ·)).map (fun _ => .blockEnd) ++ tokens)
        (columns.dropWhile (pos.column < ·)) keyAllowed).tokenAt c text := by
  have hkeys : (within pos (c :: text) tokens columns keyAllowed).dropStaleKeys =
      .ok (within pos (c :: text) tokens columns keyAllowed) := rfl
  unfold step
  rw [skip_of_startsToken rfl h, hkeys]
  show (closeBlocks (pos.column < ·) { within _ _ _ _ _ with key := none }).tokenAt c text = _
  rw [closeBlocks_within]
  rfl

/-- The open blocks stay open where the innermost one stands no further right. -/
theorem blocks_stay {column : Nat} (h : ∀ outer ∈ columns.head?, outer ≤ column) :
    columns.takeWhile (column < ·) = [] ∧ columns.dropWhile (column < ·) = columns := by
  cases columns with
  | nil => exact ⟨rfl, rfl⟩
  | cons outer columns =>
    have hnot : ¬column < outer := Nat.not_lt.mpr (h outer rfl)
    simp [hnot]

theorem startsToken_of_isWord (h : isWord name = true) (after : List Char) :
    StartsToken (name ++ after) := by
  cases name with
  | nil => cases h
  | cons c name =>
    simp only [isWord, Bool.and_eq_true] at h
    exact startsToken_cons
      ⟨isShown_of_isAlphanum h.1, ne_of_holds h.1 (by decide), ne_of_holds h.1 (by decide)⟩

theorem offMarker_of_isWord (h : isWord name = true) (after : List Char) :
    OffMarker ⟨pos, name ++ after⟩ := by
  cases name with
  | nil => cases h
  | cons c name =>
    simp only [isWord, Bool.and_eq_true] at h
    right
    rintro d ⟨⟩
    exact ⟨ne_of_holds h.1 (by decide), ne_of_holds h.1 (by decide)⟩

/-- No block is left open that stands further right. -/
theorem floor_dropWhile_le (column : Nat) (columns : List Nat) :
    ((columns.dropWhile (column < ·)).head?.map (· + 1)).getD 0 ≤ column + 1 := by
  have hhead := List.head?_dropWhile_not (column < ·) columns
  cases h : (columns.dropWhile (column < ·)).head? with
  | none => exact Nat.zero_le _
  | some outer =>
    rw [h] at hhead
    have hle : outer ≤ column := by simpa using hhead
    exact Nat.succ_le_succ hle

/-- What may be a key is remembered where a key may begin. -/
theorem saveKey_within :
    (within pos text tokens columns keyAllowed).saveKey = .ok
      { within pos text tokens columns keyAllowed with
        key := if keyAllowed then some ⟨columns.head? = some pos.column, tokens.length, pos⟩
          else none } := by
  cases keyAllowed <;> rfl

theorem plainScalar_within {e : PlainEnd}
    (h : readPlain false (within pos text tokens columns keyAllowed).floor ⟨pos, text⟩ = .ok e) :
    (within pos text tokens columns keyAllowed).plainScalar = .ok
      { within e.cursor.pos e.cursor.rest (.scalar .plain (String.ofList e.text) :: tokens) columns
          e.gap.crossesLine with
        key := if keyAllowed then some ⟨columns.head? = some pos.column, tokens.length, pos⟩
          else none } := by
  unfold plainScalar
  rw [saveKey_within]
  show (readPlain false (within pos text tokens columns keyAllowed).floor ⟨pos, text⟩).bind _ = _
  rw [h]
  rfl

theorem quotedScalar_within {inner : List Char} {cursor : Cursor}
    (h : readQuoted false ⟨pos, text⟩ = .ok (inner, cursor)) :
    (within pos text tokens columns false).quotedScalar false = .ok
      (within cursor.pos cursor.rest (.scalar .quoted (String.ofList inner) :: tokens) columns
        false) := by
  unfold quotedScalar
  rw [saveKey_within]
  show (readQuoted false ⟨pos, text⟩).bind _ = _
  rw [h]
  rfl

/-- The name of a field that a colon follows. -/
theorem step_name (hname : isWord name = true) (hafter : endsWord after = true) :
    let ended := (columns.takeWhile (pos.column < ·)).map (fun _ => Token.blockEnd) ++ tokens
    let left := columns.dropWhile (pos.column < ·)
    (within pos (name ++ ':' :: after) tokens columns true).step = .ok
      { within (pos.past name) (':' :: after) (.scalar .plain (String.ofList name) :: ended) left
          false with
        key := some ⟨left.head? = some pos.column, ended.length, pos⟩ } := by
  intro ended left
  obtain ⟨hsmooth, hbegins⟩ := smooth_of_isWord hname
  have hread := readPlain_key hsmooth (floor_dropWhile_le pos.column columns) hafter
  obtain ⟨c, text, htext⟩ : ∃ c text, name ++ ':' :: after = c :: text :=
    List.exists_cons_of_ne_nil (by simp)
  have hstarts := startsToken_of_isWord hname (':' :: after)
  have hmarker := @offMarker_of_isWord pos name hname (':' :: after)
  have hbegins' := hbegins (':' :: after)
  rw [htext] at hread hstarts hmarker hbegins' ⊢
  rw [step_within hstarts, tokenAt_plain rfl hmarker hbegins', plainScalar_within hread]
  rfl

/-- A token put in front of the tokens of what has become a key. -/
theorem insert_within (later : List Token) (t : Token) (key : Option PossibleKey) :
    { within pos text (later ++ tokens) columns keyAllowed with
      key := key }.insert tokens.length t =
      { within pos text (later ++ t :: tokens) columns keyAllowed with key := key } := by
  have hlater : (later ++ tokens).length - tokens.length = later.length := by simp
  simp only [Lexer.insert, within, hlater, List.take_left, List.drop_left]
  simp [Nat.add_assoc]

/-- A block begins at what has become a key, if none stands in its column. -/
theorem openBlock_within (later : List Token) (t : Token) (key : Option PossibleKey) {column : Nat}
    (hleft : ∀ outer ∈ columns.head?, outer ≤ column) :
    { within pos text (later ++ tokens) columns keyAllowed with
      key := key }.openBlock column tokens.length t =
      if columns.head? = some column then
        { within pos text (later ++ tokens) columns keyAllowed with key := key }
      else
        { within pos text (later ++ t :: tokens) (column :: columns) keyAllowed with
          key := key } := by
  have hopens : column < (columns.head?.map (· + 1)).getD 0 ↔ columns.head? = some column := by
    cases hhead : columns.head? with
    | none => simp
    | some outer =>
      have := hleft outer hhead
      simp
      omega
  unfold openBlock
  rw [insert_within]
  simp only [inFlow, within, Lexer.floor, hopens, List.isEmpty_nil, Bool.not_true,
    Bool.false_or, decide_eq_true_eq]

/-- A name in front of a colon is a key, and begins a mapping if none stands in its column. -/
theorem value_within {key : PossibleKey} {t : Token} (hnumber : key.number = tokens.length)
    (hleft : ∀ outer ∈ columns.head?, outer ≤ key.pos.column) :
    { within pos (':' :: after) (t :: tokens) columns false with key := some key }.value = .ok
      (if columns.head? = some key.pos.column then
        within (pos.after ':') after (.value :: t :: .key :: tokens) columns false
      else within (pos.after ':') after (.value :: t :: .key :: .blockMappingStart :: tokens)
        (key.pos.column :: columns) false) := by
  have hinsert := @insert_within pos (':' :: after) tokens columns false [t] .key (some key)
  have hopen := @openBlock_within pos (':' :: after) tokens columns false [t, .key]
    .blockMappingStart (some key) key.pos.column hleft
  simp only [List.cons_append, List.nil_append] at hinsert hopen
  unfold value
  dsimp only
  rw [hnumber, hinsert, hopen]
  split <;> rfl

/-- The colon behind the name. -/
theorem step_colon {key : PossibleKey} {t : Token} (hkey : key.isStale pos = false)
    (hnumber : key.number = tokens.length) (hcolumn : 0 < pos.column)
    (hleft : ∀ outer ∈ columns.head?, outer ≤ key.pos.column ∧ outer ≤ pos.column)
    (hafter : endsWord after = true) :
    { within pos (':' :: after) (t :: tokens) columns false with key := some key }.step = .ok
      (if columns.head? = some key.pos.column then
        within (pos.after ':') after (.value :: t :: .key :: tokens) columns false
      else within (pos.after ':') after (.value :: t :: .key :: .blockMappingStart :: tokens)
        (key.pos.column :: columns) false) := by
  have hstarts : StartsToken (':' :: after) := startsToken_cons (by decide)
  have hskip := @skip_of_startsToken
    { within pos (':' :: after) (t :: tokens) columns false with key := some key } rfl hstarts
  have hkeys : { within pos (':' :: after) (t :: tokens) columns false with
      key := some key }.dropStaleKeys =
        .ok { within pos (':' :: after) (t :: tokens) columns false with key := some key } := by
    simp [dropStaleKeys, keepKey, within, hkey, pure, Except.pure, bind, Except.bind]
  obtain ⟨hended, hopen⟩ := blocks_stay fun outer h => (hleft outer h).2
  have hmarker : OffMarker ⟨pos, ':' :: after⟩ := .inl (Nat.ne_of_gt hcolumn)
  unfold step
  rw [hskip, hkeys]
  show (closeBlocks (pos.column < ·) _).tokenAt ':' after = _
  rw [closeBlocks_within, hended, hopen]
  show tokenAt ':' after { within _ _ (t :: tokens) _ _ with key := _ } = _
  rw [tokenAt_colon rfl hmarker hafter, value_within hnumber fun outer h => (hleft outer h).1]

theorem isShown_of_isWord (h : isWord name = true) : ∀ c ∈ name, isShown c = true :=
  isShown_of_isSmooth (smooth_of_isWord h).1

/-- The name of a field with its colon. -/
theorem lexes_key (hname : isFieldName name = true) (hafter : endsWord after = true)
    {result : List Token}
    (h : Lexes (within (pos.past (name ++ [':'])) after
      (.value :: .scalar .plain (String.ofList name) :: .key :: (atKey pos.column tokens columns).1)
      (atKey pos.column tokens columns).2 false) result) :
    Lexes (within pos (name ++ ':' :: after) tokens columns true) result := by
  simp only [isFieldName, Bool.and_eq_true, decide_eq_true_eq] at hname
  obtain ⟨hword, hlength⟩ := hname
  have hne : 0 < name.length := by
    cases name with
    | nil => cases hword
    | cons c name => exact Nat.succ_pos _
  have hpast := Position.past_of_isShown (isShown_of_isWord hword) pos
  have hstale : PossibleKey.isStale ⟨(columns.dropWhile (pos.column < ·)).head? = some pos.column,
      ((columns.takeWhile (pos.column < ·)).map (fun _ => Token.blockEnd) ++ tokens).length, pos⟩
      (pos.past name) = false := by
    simp [PossibleKey.isStale, hpast, hlength]
  have hcolumn : (pos.past name).column = pos.column + name.length := by rw [hpast]
  have hleft : ∀ outer ∈ (columns.dropWhile (pos.column < ·)).head?,
      outer ≤ pos.column ∧ outer ≤ (pos.past name).column := by
    intro outer houter
    have hfloor := floor_dropWhile_le pos.column columns
    rw [Option.mem_def.mp houter] at hfloor
    have hle : outer ≤ pos.column := Nat.le_of_succ_le_succ hfloor
    omega
  have hcolon := step_colon (t := .scalar .plain (String.ofList name)) hstale rfl
    (by omega) hleft hafter
  have hstarts := skip_of_startsToken (l := within pos (name ++ ':' :: after) tokens columns true)
    rfl (startsToken_of_isWord hword _)
  have hstarts' : StartsToken (':' :: after) := startsToken_cons (by decide)
  refine .next (step_name hword hafter) (by simp [within]) ?_ (.next hcolon ?_ ?_ ?_)
  · rw [hstarts]
    simp [within]
    omega
  · split <;> simp [within]
  · rw [skip_of_startsToken rfl hstarts']
    split <;> simp [within]
  · rw [Position.past_append] at h
    convert h using 1
    unfold atKey
    dsimp only
    split <;> rfl

end Key

/-! ## Values -/

/-- At the beginning of a line. -/
def atLine (n : Nat) (text : List Char) (tokens : List Token) (columns : List Nat) : Lexer :=
  within ⟨n, 0, 0⟩ text tokens columns true

/-- What may stand behind a line of a block: the end of the text, or a line that begins no further
right. -/
inductive Continues (column : Nat) : List Char → Prop
  | ends : Continues column ['\n']
  | line (k : Nat) (rest : List Char) (left : k ≤ column) (starts : StartsToken rest) :
      Continues column (List.replicate k ' ' ++ rest)

section Value

variable {n column : Nat} {pos : Position} {text after indent rest : List Char}
  {tokens result : List Token} {columns : List Nat} {keyAllowed : Bool}

theorem skip_indent (hindent : ∀ c ∈ indent, c = ' ' ∨ c = '\n') (hrest : StartsToken rest) :
    (within pos (indent ++ rest) tokens columns keyAllowed).skip =
      within (pos.past indent) rest tokens columns (keyAllowed || indent.contains '\n') := by
  simp [skip, within, inFlow, skipGap_indent hindent hrest]

/-- A line break leads to the beginning of a line. -/
theorem skip_break :
    (within pos ('\n' :: after) tokens columns keyAllowed).skip =
      (atLine (pos.line + 1) after tokens columns).skip := by
  cases keyAllowed <;> rfl

theorem eq_space_of_mem_indent {c : Char} (h : c ∈ List.replicate column ' ') : c = ' ' :=
  List.eq_of_mem_replicate h

theorem past_indent (n column : Nat) :
    Position.past ⟨n, 0, 0⟩ (List.replicate column ' ') = ⟨n, column, column⟩ := by
  have hshown : ∀ c ∈ List.replicate column ' ', isShown c = true := by
    intro c hc
    rw [eq_space_of_mem_indent hc]
    decide
  rw [Position.past_of_isShown hshown]
  simp

theorem Continues.exists_indent (h : Continues column after) :
    ∃ indent rest, after = indent ++ rest ∧ (∀ c ∈ indent, c = ' ' ∨ c = '\n') ∧
      StartsToken rest ∧ (rest ≠ [] → ∀ n, (Position.past ⟨n, 0, 0⟩ indent).column ≤ column) := by
  cases h with
  | ends => exact ⟨['\n'], [], rfl, by simp, by simp [StartsToken], fun h => absurd rfl h⟩
  | line k rest left starts =>
    refine ⟨List.replicate k ' ', rest, rfl, ?_, starts, ?_⟩
    · exact fun c hc => .inl (eq_space_of_mem_indent hc)
    intro _ n
    rw [past_indent]
    exact left

theorem startsToken_of_beginsPlain (hsmooth : isSmooth false text = true)
    (hbegins : beginsPlain false text = true) (after : List Char) :
    StartsToken (text ++ after) := by
  cases text with
  | nil => cases hbegins
  | cons c text =>
    have hc := isShown_of_isSmooth hsmooth c List.mem_cons_self
    refine startsToken_cons ⟨hc, ?_, ?_⟩
    · rintro rfl
      simp [beginsPlain, isBlank] at hbegins
    · rintro rfl
      simp [beginsPlain, isIndicator] at hbegins

theorem beginsPlain_line (hbegins : beginsPlain false text = true) (after : List Char) :
    beginsPlain false (text ++ '\n' :: after) = true := by
  cases text with
  | nil => cases hbegins
  | cons c text =>
    cases text with
    | nil => exact hbegins
    | cons d text => exact hbegins

/-- A step inside the innermost block. -/
theorem step_inside {c : Char} (hcolumns : columns.head? = some column)
    (hcolumn : column < pos.column) (h : StartsToken (c :: text)) :
    (within pos (c :: text) tokens columns keyAllowed).step =
      (within pos (c :: text) tokens columns keyAllowed).tokenAt c text := by
  have hleft : ∀ outer ∈ columns.head?, outer ≤ pos.column := by
    intro outer houter
    rw [hcolumns] at houter
    cases houter
    exact Nat.le_of_lt hcolumn
  obtain ⟨hended, hopen⟩ := blocks_stay hleft
  rw [step_within h, hended, hopen]
  rfl

theorem offMarker_of_lt (hcolumn : column < pos.column) (text : List Char) :
    OffMarker ⟨pos, text⟩ :=
  .inl (Nat.ne_of_gt (Nat.zero_lt_of_lt hcolumn))

/-- A plain scalar is read up to what comes next. -/
theorem lexes_plain {value : List Char} (hsmooth : isSmooth false value = true)
    (hbegins : beginsPlain false value = true) (hcolumns : columns.head? = some column)
    (hcolumn : column < pos.column) (hafter : Continues column after)
    (h : Lexes (atLine (pos.line + 1) after
      (.scalar .plain (String.ofList value) :: tokens) columns) result) :
    Lexes (within pos (value ++ '\n' :: after) tokens columns false) result := by
  have hpast := Position.past_of_isShown (isShown_of_isSmooth hsmooth) pos
  obtain ⟨indent, rest, rfl, hindent, hrest, hleft⟩ := hafter.exists_indent
  have hend : pos.past (value ++ '\n' :: indent) = Position.past ⟨pos.line + 1, 0, 0⟩ indent := by
    rw [Position.past_append, Position.past_cons, hpast]
    rfl
  have hfloor : (within pos (value ++ '\n' :: (indent ++ rest)) tokens columns false).floor =
      column + 1 := by
    simp [Lexer.floor, within, hcolumns]
  have hleft' : rest ≠ [] → (pos.past (value ++ '\n' :: indent)).column < column + 1 := by
    intro hne
    rw [hend]
    exact Nat.lt_succ_of_le (hleft hne _)
  obtain ⟨gap, hgap, hread⟩ := readPlain_line hsmooth (by omega) hindent hrest hleft'
  rw [← hfloor] at hread
  have hstarts := startsToken_of_beginsPlain hsmooth hbegins ('\n' :: (indent ++ rest))
  have hbegins' := beginsPlain_line hbegins (indent ++ rest)
  obtain ⟨c, text, htext⟩ : ∃ c text, value ++ '\n' :: (indent ++ rest) = c :: text :=
    List.exists_cons_of_ne_nil (by simp)
  rw [htext] at hread hstarts hbegins' ⊢
  have hstep := @step_inside column pos _ tokens columns false _ hcolumns hcolumn hstarts
  rw [tokenAt_plain rfl (offMarker_of_lt hcolumn _) hbegins', plainScalar_within hread] at hstep
  refine .next hstep (by simp [within]) ?_ (.of_skip ?_ h)
  · rw [skip_of_startsToken rfl hstarts]
    show rest.length < (c :: text).length
    rw [← htext]
    simp
    omega
  · show (within (pos.past (value ++ '\n' :: indent)) rest _ columns gap.crossesLine).skip = _
    rw [skip_of_startsToken rfl hrest, atLine, skip_indent hindent hrest, hend, hgap]
    rfl

/-- A quoted scalar is read up to its quote. -/
theorem lexes_quoted {value : List Char} (hshown : ∀ c ∈ value, isShown c = true)
    (hcolumns : columns.head? = some column) (hcolumn : column < pos.column)
    (h : Lexes (atLine (pos.line + 1) after
      (.scalar .quoted (String.ofList value) :: tokens) columns) result) :
    Lexes (within pos ('\x27' :: (doubled value ++ ['\x27']) ++ '\n' :: after) tokens columns false)
      result := by
  have hpast := Position.past_of_isShown (Reads.quoted value hshown).isShown pos
  have hread := @readQuoted_doubled pos value ('\n' :: after) hshown (by simp)
  have hstarts : StartsToken ('\x27' :: (doubled value ++ ['\x27'] ++ '\n' :: after)) :=
    startsToken_cons (by decide)
  rw [List.append_cons] at hread
  have hstep := @step_inside column pos _ tokens columns false _ hcolumns hcolumn hstarts
  rw [tokenAt_quote rfl (offMarker_of_lt hcolumn _), quotedScalar_within hread] at hstep
  refine .next hstep (by simp [within]) ?_ (.of_skip ?_ h)
  · rw [List.cons_append, skip_of_startsToken rfl hstarts]
    simp [within]
    omega
  · show (within (pos.past ('\x27' :: (doubled value ++ ['\x27']))) ('\n' :: after) _ columns
      false).skip = _
    rw [skip_break, hpast]

/-- A scalar that ends its line. -/
theorem lexes_value {value : List Char} {scalar : Scalar} (hreads : Reads value scalar)
    (hcolumns : columns.head? = some column) (hcolumn : column < pos.column)
    (hafter : Continues column after)
    (h : Lexes (atLine (pos.line + 1) after (.scalar scalar.style scalar.text :: tokens) columns)
      result) :
    Lexes (within pos (value ++ '\n' :: after) tokens columns false) result := by
  cases hreads with
  | plain value smooth begins => exact lexes_plain smooth begins hcolumns hcolumn hafter h
  | quoted value shown => exact lexes_quoted shown hcolumns hcolumn h

end Value

end MidiPanel.Yaml
