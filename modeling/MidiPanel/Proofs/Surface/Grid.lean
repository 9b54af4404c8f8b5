import MidiPanel.Proofs.Surface.Framed
import MidiPanel.Proofs.Surface.Printing

/-!
# Grids of characters

The cells of a character panel can be kept in one list, row after row. To print is then to take the
slice of one row, to write bytes into it at a cursor that moves on, up to the end of the row, and to
blank what lies behind the cursor if that is wanted. Where the row begins is computed in a word,
and every index is checked; on a panel whose cells can be counted in a word none of them is out of
range, and no other row is touched.

Whatever has been called on a panel, its cells hold ASCII.

Results:
* `writeFrom?_eq`, `printLine?_eq`: what the cursor leaves behind it, and the row behind a print.
* `exists_store_eq`, `printStore?_eq`: a row among the others, and the store behind a print.
* `Reached.ascii`: the cells of a panel after any calls.
* `print_cells`: which prints are refused, and every cell behind the others.
-/

namespace MidiPanel

/-- The bytes of a text in UTF-8. -/
def utf8Bytes (text : String) : List UInt8 := text.toUTF8.data.toList

namespace CellPanel

/-- The code that a byte is printed as: ASCII as itself, all else as a question mark. -/
def codeOfByte (byte : UInt8) : UInt8 := if byte < 0x80 then byte else 0x3F

theorem codes_eq (text : String) : codes text = (utf8Bytes text).map codeOfByte := by
  have hbytes : utf8Bytes text = text.toList.flatMap String.utf8EncodeChar := by
    unfold utf8Bytes
    rw [String.toUTF8_eq_toByteArray, ← String.utf8Encode_toList]
    exact List.toList_data_toByteArray
  rw [hbytes]
  rfl

theorem codeOfByte_lt (byte : UInt8) : codeOfByte byte < 0x80 := by
  unfold codeOfByte
  split
  · assumption
  · decide

/-! ## A cursor in a row -/

/-- Writes bytes one by one, the first at the cursor; gives the row and the cursor behind them, and
`none` if the cursor leaves the row. -/
def writeFrom? (cells : List UInt8) (cursor : Nat) : List UInt8 → Option (List UInt8 × Nat)
  | [] => some (cells, cursor)
  | byte :: bytes =>
    if cursor < cells.length then
      writeFrom? (cells.set cursor (codeOfByte byte)) (cursor + 1) bytes
    else none

/-- Prints bytes into a row as far as they fit; `none` if an index is not in the row. -/
def printLine? (cells bytes : List UInt8) (column : Nat) (clearRest : Bool) :
    Option (List UInt8) :=
  (writeFrom? cells column (bytes.take (cells.length - column))).bind fun written =>
    if clearRest then
      if written.2 ≤ written.1.length then
        some (written.1.take written.2 ++ List.replicate (written.1.length - written.2) space)
      else none
    else some written.1

/-- As many bytes as there is room for are written side by side. -/
theorem writeFrom?_eq {cells bytes : List UInt8} {cursor : Nat}
    (h : cursor + bytes.length ≤ cells.length) :
    ∃ written, writeFrom? cells cursor bytes = some (written, cursor + bytes.length) ∧
      written.length = cells.length ∧ ∀ x, written[x]? =
        if cursor ≤ x ∧ x < cursor + bytes.length then bytes[x - cursor]?.map codeOfByte
        else cells[x]? := by
  induction bytes generalizing cells cursor with
  | nil => exact ⟨cells, rfl, rfl, fun x => (if_neg (by simp)).symm⟩
  | cons byte bytes ih =>
    rw [List.length_cons] at h
    have hlength : (cells.set cursor (codeOfByte byte)).length = cells.length := List.length_set
    obtain ⟨written, hwritten, hkept, hcells⟩ :=
      @ih (cells.set cursor (codeOfByte byte)) (cursor + 1) (by omega)
    refine ⟨written, ?_, hkept.trans hlength, ?_⟩
    · rw [writeFrom?, if_pos (by omega), hwritten, List.length_cons, Nat.add_assoc,
        Nat.add_comm 1]
    · intro x
      rw [hcells, List.length_cons, List.getElem?_set]
      by_cases hfirst : x = cursor
      · subst hfirst
        rw [if_neg (by omega), if_pos rfl, if_pos (by omega), if_pos (by omega), Nat.sub_self]
        rfl
      · rw [if_neg (Ne.symm hfirst)]
        by_cases hlater : cursor + 1 ≤ x ∧ x < cursor + 1 + bytes.length
        · have hnext : x - cursor = x - (cursor + 1) + 1 := by omega
          rw [if_pos hlater, if_pos (by omega), hnext, List.getElem?_cons_succ]
        · rw [if_neg hlater, if_neg (by omega)]

/-- The row behind a print is the one that the panel writes. -/
theorem printLine?_eq {columns : Nat} (cells : Vector UInt8 columns) (bytes : List UInt8)
    {column : Nat} (hcolumn : column < columns) (clearRest : Bool) :
    printLine? cells.toList bytes column clearRest =
      some (writeLine cells (bytes.map codeOfByte).toArray column clearRest).toList := by
  have hlength : cells.toList.length = columns := cells.length_toList
  have hfit : (bytes.take (columns - column)).length = min (columns - column) bytes.length :=
    List.length_take
  obtain ⟨written, hwritten, hkept, hcells⟩ :=
    @writeFrom?_eq cells.toList (bytes.take (columns - column)) column (by omega)
  -- in front of the cursor the rows are the same
  have hbefore (x : Nat) (hx : x < column + min (columns - column) bytes.length) :
      written[x]? =
        (writeLine cells (bytes.map codeOfByte).toArray column clearRest).toList[x]? := by
    rw [hcells, hfit, Vector.getElem?_toList, Vector.getElem?_toList, getElem?_writeLine,
      List.getElem?_toArray, List.getElem?_map]
    by_cases hx' : column ≤ x
    · have hbyte : x - column < bytes.length := by omega
      rw [if_pos ⟨hx', hx⟩, if_pos (by omega), List.getElem?_take_of_lt (by omega),
        List.getElem?_eq_getElem hbyte]
      rfl
    · rw [if_neg (by omega), if_neg (by omega)]
  -- behind it the row is as it was or blank
  have hbehind (x : Nat) (hx : column + min (columns - column) bytes.length ≤ x) :
      (writeLine cells (bytes.map codeOfByte).toArray column clearRest).toList[x]? =
        if clearRest = true ∧ x < columns then some space else cells.toList[x]? := by
    rw [Vector.getElem?_toList, Vector.getElem?_toList, getElem?_writeLine, List.getElem?_toArray]
    by_cases hx' : x < columns
    · have hnone : (bytes.map codeOfByte)[x - column]? = none :=
        List.getElem?_eq_none (by rw [List.length_map]; omega)
      rw [if_pos (by omega), hnone]
      cases clearRest <;> simp [hx']
    · rw [if_neg (by omega), if_neg (by omega)]
  unfold printLine?
  rw [hlength, hwritten, Option.bind_some, hfit]
  dsimp only
  cases clearRest with
  | false =>
    refine congrArg some (List.ext_getElem? fun x => ?_)
    by_cases hx : x < column + min (columns - column) bytes.length
    · exact hbefore x hx
    · rw [hbehind x (by omega), hcells, hfit, if_neg (by omega)]
      rfl
  | true =>
    rw [if_pos rfl, if_pos (by omega)]
    refine congrArg some (List.ext_getElem? fun x => ?_)
    by_cases hx : x < column + min (columns - column) bytes.length
    · rw [List.getElem?_append_left (by rw [List.length_take]; omega),
        List.getElem?_take_of_lt hx]
      exact hbefore x hx
    · rw [hbehind x (by omega), List.getElem?_append_right (by rw [List.length_take]; omega),
        List.getElem?_replicate, List.length_take]
      by_cases hx' : x < columns
      · rw [if_pos (by omega), if_pos ⟨rfl, hx'⟩]
      · rw [if_neg (by omega), if_neg (by omega), List.getElem?_eq_none (by omega)]

/-! ## Rows in a store -/

/-- The rows of a panel, from the top. -/
def rowLists (p : CellPanel) : List (List UInt8) := p.cells.toList.map Vector.toList

/-- The cells of a panel, row after row. -/
def store (p : CellPanel) : List UInt8 := p.rowLists.flatten

/-- Prints into the slice of a store that is the row, which begins where a word says; `none` if the
slice is not in the store, or an index not in the slice. -/
def printStore? (columns : Nat) (store bytes : List UInt8) (column row : Nat) (clearRest : Bool) :
    Option (List UInt8) :=
  let start := row * columns % UInt32.size
  if start + columns ≤ store.length then
    (printLine? ((store.drop start).take columns) bytes column clearRest).map fun written =>
      store.take start ++ written ++ store.drop (start + columns)
  else none

theorem length_flatten_of_forall {α : Type} {rows : List (List α)} {width : Nat}
    (h : ∀ row ∈ rows, row.length = width) : rows.flatten.length = rows.length * width := by
  induction rows with
  | nil => simp
  | cons row rows ih =>
    rw [List.flatten_cons, List.length_append, h row List.mem_cons_self,
      ih fun later hlater => h later (List.mem_cons_of_mem row hlater), List.length_cons,
      Nat.succ_mul, Nat.add_comm]

variable {p q : CellPanel} {text : String} {column row : Nat} {clearRest : Bool}

theorem length_of_mem_rowLists {cells : List UInt8} (h : cells ∈ p.rowLists) :
    cells.length = p.columns := by
  obtain ⟨v, -, rfl⟩ := List.mem_map.mp h
  exact v.length_toList

theorem length_rowLists (p : CellPanel) : p.rowLists.length = p.rows := by
  unfold rowLists
  rw [List.length_map, Vector.length_toList]

theorem length_store (p : CellPanel) : p.store.length = p.columns * p.rows := by
  unfold store
  rw [length_flatten_of_forall fun _ => length_of_mem_rowLists, length_rowLists, Nat.mul_comm]

/-- A row stands between the rows above it and those below it, and any row could stand there. -/
theorem exists_store_eq (hrow : row < p.rows) :
    ∃ above below, above.length = row * p.columns ∧
      (∀ cells, p.cells[row]? = some cells → p.store = above ++ cells.toList ++ below) ∧
      ∀ cells, { p with cells := p.cells.set row cells hrow }.store =
        above ++ cells.toList ++ below := by
  have hlength : row < p.rowLists.length := by rwa [length_rowLists]
  refine ⟨(p.rowLists.take row).flatten, (p.rowLists.drop (row + 1)).flatten, ?_, ?_, ?_⟩
  · rw [length_flatten_of_forall fun _ h => length_of_mem_rowLists (List.mem_of_mem_take h),
      List.length_take, Nat.min_eq_left hlength.le]
  · intro cells hcells
    have hget : p.rowLists[row]? = some cells.toList := by
      unfold rowLists
      rw [List.getElem?_map, Vector.getElem?_toList, hcells]
      rfl
    rw [List.getElem?_eq_getElem hlength, Option.some_inj] at hget
    calc p.store = (p.rowLists.take row ++ p.rowLists.drop row).flatten := by
          rw [List.take_append_drop]
          rfl
      _ = _ := by
          rw [List.drop_eq_getElem_cons hlength, hget, List.flatten_append, List.flatten_cons,
            List.append_assoc]
  · intro cells
    have hset : rowLists { p with cells := p.cells.set row cells hrow } =
        p.rowLists.set row cells.toList := by
      unfold rowLists
      rw [Vector.toList_set, List.map_set]
    unfold store
    rw [hset, List.set_eq_take_append_cons_drop, if_pos hlength, List.flatten_append,
      List.flatten_cons, List.append_assoc]

/-- Where a cell is in the store. -/
theorem getElem?_store {x : Nat} (hx : x < p.columns) (y : Nat) :
    p.store[y * p.columns + x]? = p.get? x y := by
  unfold get?
  by_cases hy : y < p.rows
  · obtain ⟨above, below, habove, hstore, -⟩ := exists_store_eq hy
    rw [hstore _ (Vector.getElem?_eq_getElem hy), Vector.getElem?_eq_getElem hy, List.append_assoc,
      List.getElem?_append_right (by omega), habove, Nat.add_sub_cancel_left,
      List.getElem?_append_left (by rwa [Vector.length_toList]), Vector.getElem?_toList]
    rfl
  · have hle : p.columns * p.rows ≤ y * p.columns := by
      rw [Nat.mul_comm]
      exact Nat.mul_le_mul_right p.columns (Nat.not_lt.mp hy)
    rw [List.getElem?_eq_none (by rw [length_store]; omega), Vector.getElem?_eq_none (by omega)]
    rfl

theorem exists_get?_of_mem_store {code : UInt8} (h : code ∈ p.store) :
    ∃ x y, p.get? x y = some code := by
  obtain ⟨i, hi⟩ := List.mem_iff_getElem?.mp h
  have hlt : i < p.columns * p.rows := by
    rw [← length_store]
    exact (List.getElem?_eq_some_iff.mp hi).1
  have hpos : 0 < p.columns := Nat.pos_of_mul_pos_right (Nat.lt_of_le_of_lt (Nat.zero_le i) hlt)
  refine ⟨i % p.columns, i / p.columns, ?_⟩
  rw [← getElem?_store (Nat.mod_lt i hpos), Nat.div_add_mod', hi]

/-- A print on a panel whose cells can be counted in a word finds its slice, and leaves the store of
the panel that it leads to. -/
theorem printStore?_eq (hfit : p.columns * p.rows < UInt32.size)
    (h : Surface.perform p (.print text column row clearRest) = .ok q) :
    printStore? p.columns p.store (utf8Bytes text) column row clearRest = some q.store := by
  replace h : p.perform (.print text column row clearRest) = .ok q := h
  simp only [perform] at h
  split at h
  next hin =>
    cases h
    obtain ⟨above, below, habove, hstore, hset⟩ := exists_store_eq hin.1
    have hend : row * p.columns + p.columns ≤ p.columns * p.rows := by
      rw [← Nat.succ_mul, Nat.mul_comm p.columns]
      exact Nat.mul_le_mul_right p.columns hin.1
    have hstart : row * p.columns % UInt32.size = row * p.columns :=
      Nat.mod_eq_of_lt (by omega)
    have hbefore := hstore _ (Vector.getElem?_eq_getElem hin.1)
    have hline : (above ++ p.cells[row].toList).length = row * p.columns + p.columns := by
      rw [List.length_append, habove, Vector.length_toList]
    have hslice : (p.store.drop (row * p.columns)).take p.columns = p.cells[row].toList := by
      rw [hbefore, List.append_assoc, List.drop_left' habove,
        List.take_left' Vector.length_toList]
    have habove' : p.store.take (row * p.columns) = above := by
      rw [hbefore, List.append_assoc, List.take_left' habove]
    have hbelow : p.store.drop (row * p.columns + p.columns) = below := by
      rw [hbefore, List.drop_left' hline]
    unfold printStore?
    dsimp only
    rw [hstart, if_pos (by rw [length_store]; exact hend), hslice, habove', hbelow,
      printLine?_eq _ _ hin.2, ← codes_eq, Option.map_some, hset]
  next => cases h

/-! ## Any calls -/

/-- The panels that calls lead to from a new one, whether they are performed or refused. -/
inductive Reached (columns rows : Nat) : CellPanel → Prop
  | new {p : CellPanel} (h : CellPanel.new columns rows = .ok p) : Reached columns rows p
  | performed {p q : CellPanel} {call : Call} (hp : Reached columns rows p)
      (h : Surface.perform p call = .ok q) : Reached columns rows q
  | refused {p : CellPanel} {call : Call} {fault : Fault} (hp : Reached columns rows p)
      (h : Surface.perform p call = .error fault) : Reached columns rows (Surface.afterFault p call)

theorem eq_space_of_blank (hp : p.cells = .replicate p.rows (.replicate p.columns space))
    {x y : Nat} {code : UInt8} (h : p.get? x y = some code) : code = space := by
  unfold get? at h
  rw [hp, Vector.getElem?_replicate] at h
  split at h
  · rw [Option.bind_some, Vector.getElem?_replicate] at h
    split at h
    · exact (Option.some.inj h).symm
    · cases h
  · cases h

/-- A print writes ASCII, whatever the text. -/
theorem ascii_print (h : Surface.perform p (.print text column row clearRest) = .ok q)
    (hp : ∀ x y code, p.get? x y = some code → code < 0x80) {x y : Nat} {code : UInt8}
    (hq : q.get? x y = some code) : code < 0x80 := by
  rw [(get?_print h).2.2, codes_eq, List.getElem?_map] at hq
  split at hq
  · cases hbyte : (utf8Bytes text)[x - column]? with
    | some byte =>
      rw [hbyte] at hq
      cases hq
      exact codeOfByte_lt byte
    | none =>
      rw [hbyte, Option.map_none, Option.none_or] at hq
      split at hq
      · cases hq
        decide
      · exact hp x y code hq
  · exact hp x y code hq

theorem Reached.size_eq {columns rows : Nat} (h : Reached columns rows p) :
    p.columns = columns ∧ p.rows = rows := by
  induction h with
  | new h =>
    obtain ⟨-, rfl⟩ := eq_of_new h
    exact ⟨rfl, rfl⟩
  | performed hp h ih =>
    obtain ⟨hcolumns, hrows⟩ := Prod.mk.inj (Framed.fixture_of_ok h)
    exact ⟨hcolumns.trans ih.1, hrows.trans ih.2⟩
  | refused hp h ih => exact ih

/-- Whatever has been called, the cells hold ASCII. -/
theorem Reached.ascii {columns rows : Nat} (h : Reached columns rows p) {x y : Nat} {code : UInt8}
    (hcode : p.get? x y = some code) : code < 0x80 := by
  induction h generalizing x y code with
  | new h =>
    obtain ⟨-, rfl⟩ := eq_of_new h
    rw [eq_space_of_blank rfl hcode]
    decide
  | @performed p q call hp h ih =>
    replace h : p.perform call = .ok q := h
    cases call with
    | print text column row clearRest => exact ascii_print h (fun _ _ _ => ih) hcode
    | clear =>
      cases h
      rw [eq_space_of_blank rfl hcode]
      decide
    | fillRect | drawImage => cases h
    | setBacklight | flush =>
      cases h
      exact ih hcode
  | refused hp h ih => exact ih hcode

/-- A print is refused if it begins outside the panel, and only then. -/
theorem perform_print_eq_error_iff {fault : Fault} :
    Surface.perform p (.print text column row clearRest) = .error fault ↔
      (p.rows ≤ row ∨ p.columns ≤ column) ∧ fault = .outOfBounds column row := by
  by_cases hin : row < p.rows ∧ column < p.columns
  · obtain ⟨q, hq⟩ := exists_perform_print hin.2 hin.1 text clearRest
    rw [hq]
    constructor
    · intro h
      cases h
    · rintro ⟨hout, -⟩
      omega
  · have hrefused : Surface.perform p (.print text column row clearRest) =
        .error (.outOfBounds column row) := dif_neg hin
    rw [hrefused]
    constructor
    · intro h
      cases h
      exact ⟨by omega, rfl⟩
    · rintro ⟨-, rfl⟩
      rfl

/-- On a panel that any calls have led to, as long as its cells can be counted in a word: there are
as many cells as columns and rows make, all of them ASCII. A print that begins outside the panel is
refused, and no other is; a refused one leaves the panel as it is. One that is performed writes the
bytes of its text side by side, as far as the row goes, with a question mark for each byte beyond
ASCII; behind them it blanks the row if it is to; and all other cells are as before. That is what a
cursor in the slice of the row leaves in the store, and none of its indices is out of range. -/
theorem print_cells {columns rows : Nat} (hfit : columns * rows < UInt32.size)
    (hp : Reached columns rows p) :
    (p.store.length = columns * rows ∧ ∀ code ∈ p.store, code < 0x80) ∧
    ∀ (text : String) (column row : Nat) (clearRest : Bool),
      let call := Call.print text column row clearRest
      let bytes := utf8Bytes text
      ((∀ fault, Surface.perform p call = .error fault ↔
          (rows ≤ row ∨ columns ≤ column) ∧ fault = .outOfBounds column row) ∧
        Surface.afterFault p call = p) ∧
      (row < rows ∧ column < columns → ∃ q, Surface.perform p call = .ok q ∧
        q.backlight = p.backlight ∧
        printStore? columns p.store bytes column row clearRest = some q.store ∧
        (∀ i byte, bytes[i]? = some byte → i < columns - column →
          q.get? (column + i) row = some (if byte < 0x80 then byte else 0x3F)) ∧
        (∀ x < columns, column + bytes.length ≤ x →
          q.get? x row = if clearRest then some 0x20 else p.get? x row) ∧
        ∀ x y, y ≠ row ∨ x < column → q.get? x y = p.get? x y) := by
  obtain ⟨rfl, rfl⟩ := hp.size_eq
  refine ⟨⟨p.length_store, ?_⟩, ?_⟩
  · intro code hcode
    obtain ⟨x, y, hget⟩ := exists_get?_of_mem_store hcode
    exact hp.ascii hget
  intro text column row clearRest call bytes
  refine ⟨⟨fun fault => perform_print_eq_error_iff, rfl⟩, ?_⟩
  rintro ⟨hrow, hcolumn⟩
  obtain ⟨q, hq⟩ := exists_perform_print hcolumn hrow text clearRest
  obtain ⟨-, -, hcells⟩ := get?_print hq
  refine ⟨q, hq, Backlit.backlight_of_ok hq, printStore?_eq hfit hq, ?_, ?_, ?_⟩
  · intro i byte hbyte hi
    rw [hcells, codes_eq, List.getElem?_map, if_pos ⟨rfl, by omega, by omega⟩,
      Nat.add_sub_cancel_left, hbyte]
    rfl
  · intro x hx hbehind
    have hnone : ((utf8Bytes text).map codeOfByte)[x - column]? = none := by
      refine List.getElem?_eq_none ?_
      rw [List.length_map]
      exact Nat.le_sub_of_add_le' hbehind
    rw [hcells, codes_eq, hnone, if_pos ⟨rfl, by omega, hx⟩]
    rfl
  · intro x y hother
    rw [hcells, if_neg (by omega)]

/-- A letter of two bytes in the lower row of a panel whose rows are full, a text that is longer
than the rest of its row, and one that begins behind it. -/
theorem print_cells_two_bytes :
    let p : CellPanel :=
      ⟨4, 2, #v[#v[0x61, 0x62, 0x63, 0x64], #v[0x77, 0x78, 0x79, 0x7A]], true⟩
    4 * 2 < UInt32.size ∧ Reached 4 2 p ∧
    (∃ q, Surface.perform p (.print "é" 1 1 true) = .ok q ∧
      printStore? 4 p.store [0xC3, 0xA9] 1 1 true = some q.store ∧
      q.get? 0 1 = some 0x77 ∧ q.get? 1 1 = some 0x3F ∧ q.get? 2 1 = some 0x3F ∧
      q.get? 3 1 = some 0x20 ∧ q.get? 3 0 = some 0x64) ∧
    (∃ q, Surface.perform p (.print "long" 2 0 true) = .ok q ∧
      q.get? 3 0 = some 0x6F ∧ q.get? 0 1 = some 0x77) ∧
    Surface.perform p (.print "x" 4 1 false) = .error (.outOfBounds 4 1) := by
  intro p
  let half : CellPanel :=
    ⟨4, 2, #v[#v[0x61, 0x62, 0x63, 0x64], #v[0x20, 0x20, 0x20, 0x20]], true⟩
  have hblank : Reached 4 2 ⟨4, 2, .replicate 2 (.replicate 4 space), true⟩ := .new rfl
  have hhalf : Surface.perform (⟨4, 2, .replicate 2 (.replicate 4 space), true⟩ : CellPanel)
      (.print "abcd" 0 0 false) = .ok half := rfl
  have hfull : Surface.perform half (.print "wxyz" 0 1 false) = .ok p := rfl
  have hp : Reached 4 2 p := .performed (.performed hblank hhalf) hfull
  have hbytes : utf8Bytes "é" = [0xC3, 0xA9] := by decide
  have hfit : 4 * 2 < UInt32.size := by decide
  obtain ⟨-, hprint⟩ := print_cells hfit hp
  refine ⟨hfit, hp, ?_, ?_, ?_⟩
  · obtain ⟨q, hq, -, hstore, hwritten, hblank, hother⟩ :=
      (hprint "é" 1 1 true).2 ⟨by decide, by decide⟩
    rw [hbytes] at hstore hwritten hblank
    refine ⟨q, hq, hstore, ?_, ?_, ?_, ?_, ?_⟩
    · exact hother 0 1 (by decide)
    · exact hwritten 0 0xC3 rfl (by decide)
    · exact hwritten 1 0xA9 rfl (by decide)
    · exact hblank 3 (by decide) (by decide)
    · exact hother 3 0 (by decide)
  · obtain ⟨q, hq, -, -, hwritten, -, hother⟩ := (hprint "long" 2 0 true).2 ⟨by decide, by decide⟩
    exact ⟨q, hq, hwritten 1 0x6F (by decide) (by decide), hother 0 1 (by decide)⟩
  · exact ((hprint "x" 4 1 false).1.1 _).mpr ⟨by decide, rfl⟩

end CellPanel
end MidiPanel
