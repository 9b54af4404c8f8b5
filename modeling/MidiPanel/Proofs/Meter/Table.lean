import MidiPanel.Proofs.Meter.Cells

/-!
# The meter as a table that is written to

The lines of a meter can also be made by writing: a blank table of cells takes one bar after the
other, each from its lowest cell up, and the cell that is filled in part last. Rows are counted from
the top, cells from the bottom, and codes are looked up in a ramp, so that each write has indices
that might not be there. For bars that are no higher than the table all of them are, and the lines
are the ones that the meter prints.

Writing here checks every index, and comes to nothing if one of them is out of range.

Results:
* `putCell?_table`: what one write does.
* `writeBar?_table`: what one bar does.
* `writeBars?_columnsFrom`: the table behind all bars, and that there is one.
* `cellCalls_eq_mapIdx`: the meter prints its lines.
-/

namespace MidiPanel.Meter

open BarGlyph

/-- A table with these cells, the top line first. -/
def table (rows columns : Nat) (cell : Nat → Nat → UInt8) : List (List UInt8) :=
  (List.range rows).map fun row => (List.range columns).map (cell row)

/-- Gives a cell a code; `none` if there is no such cell. -/
def putCell? (lines : List (List UInt8)) (row column : Nat) (code : UInt8) :
    Option (List (List UInt8)) := do
  let cells ← lines[row]?
  if column < cells.length then some (lines.set row (cells.set column code)) else none

/-- The row of a cell, counted from the bottom of a table with so many rows; `none` above it. -/
def rowOf? (rows fromBottom : Nat) : Option Nat :=
  if fromBottom < rows then some (rows - fromBottom - 1) else none

/-- Writes a bar, given by its column and its height: every cell of the column as full or empty,
then the one that is neither. -/
def writeBar? (rows : Nat) (lines : List (List UInt8)) (bar : Nat × Nat) :
    Option (List (List UInt8)) := do
  let full := bar.2 / levelsPerCell
  let rest := bar.2 % levelsPerCell
  let lines ← (List.range rows).foldlM (fun lines fromBottom => do
    let row ← rowOf? rows fromBottom
    putCell? lines row bar.1 (if fromBottom < full then code levelsPerCell else blank)) lines
  if 0 < rest then do
    let row ← rowOf? rows full
    let code ← ramp[rest]?
    putCell? lines row bar.1 code
  else some lines

/-- Writes bars into a blank table. -/
def writeBars? (rows columns : Nat) (bars : List (Nat × Nat)) : Option (List (List UInt8)) :=
  bars.foldlM (writeBar? rows) (table rows columns fun _ _ => blank)

/-! ## Tables -/

variable {rows columns : Nat} {f g : Nat → Nat → UInt8}

theorem table_congr (h : ∀ row < rows, ∀ column < columns, f row column = g row column) :
    table rows columns f = table rows columns g := by
  refine List.map_congr_left fun row hrow => List.map_congr_left fun column hcolumn => ?_
  exact h row (List.mem_range.mp hrow) column (List.mem_range.mp hcolumn)

theorem set_map_range {α : Type} (cell : Nat → α) (n i : Nat) (x : α) :
    ((List.range n).map cell).set i x =
      (List.range n).map fun j => if j = i then x else cell j := by
  refine List.ext_getElem? fun j => ?_
  rw [List.getElem?_set, List.getElem?_map, List.getElem?_map, List.length_map, List.length_range]
  by_cases hj : j < n
  · rw [List.getElem?_range hj]
    by_cases hi : i = j
    · simp [hi, hj]
    · simp [hi, Ne.symm hi]
  · have hnone : (List.range n)[j]? = none := by simpa using hj
    rw [hnone]
    split
    next hi => rw [if_neg (by omega)]; rfl
    next => rfl

/-- A cell of a table can be written to, and nothing else changes. -/
theorem putCell?_table {row column : Nat} (hrow : row < rows) (hcolumn : column < columns)
    (code : UInt8) : putCell? (table rows columns f) row column code =
      some (table rows columns fun r c => if r = row ∧ c = column then code else f r c) := by
  unfold putCell? table
  rw [List.getElem?_map, List.getElem?_range hrow, Option.map_some, Option.bind_eq_bind,
    Option.bind_some, List.length_map, List.length_range, if_pos hcolumn, set_map_range,
    set_map_range]
  refine congrArg some (List.map_congr_left fun r _ => ?_)
  by_cases hr : r = row
  · simp only [hr, if_true, true_and]
  · simp only [hr, if_false, false_and]

theorem rowOf?_of_lt {fromBottom : Nat} (h : fromBottom < rows) :
    rowOf? rows fromBottom = some (rows - fromBottom - 1) := if_pos h

/-! ## Bars -/

/-- The lowest cells of a column, written from the bottom up. -/
theorem foldlM_putCell?_table {column : Nat} (hcolumn : column < columns) (code : Nat → UInt8)
    {n : Nat} (hn : n ≤ rows) :
    (List.range n).foldlM (fun lines fromBottom => do
        let row ← rowOf? rows fromBottom
        putCell? lines row column (code fromBottom)) (table rows columns f) =
      some (table rows columns fun r c =>
        if c = column ∧ rows ≤ r + n then code (rows - 1 - r) else f r c) := by
  induction n with
  | zero =>
    refine congrArg some (table_congr fun r hr c _ => ?_)
    rw [if_neg (by omega)]
  | succ n ih =>
    have hrow : rows - n - 1 < rows := by omega
    rw [List.range_succ, List.foldlM_append, ih (by omega)]
    show (do
      let row ← rowOf? rows n
      putCell? (table rows columns _) row column (code n)) >>= some = _
    rw [rowOf?_of_lt hn, Option.bind_eq_bind, Option.bind_eq_bind, Option.bind_some,
      putCell?_table hrow hcolumn]
    refine congrArg some (table_congr fun r hr c _ => ?_)
    by_cases hnew : r = rows - n - 1 ∧ c = column
    · rw [if_pos hnew, if_pos (by omega), show rows - 1 - r = n by omega]
    · rw [if_neg hnew]
      by_cases hold : c = column ∧ rows ≤ r + n
      · rw [if_pos hold, if_pos (by omega)]
      · rw [if_neg hold, if_neg (by omega)]

/-- The cells of a bar: full ones, one with the rest, blanks. -/
theorem cellCode_eq (height fromBottom : Nat) : cellCode height fromBottom =
    if fromBottom < height / 8 then code 8
    else if fromBottom = height / 8 then code (height % 8) else blank := by
  unfold cellCode levelsPerCell
  split
  next hfull => rw [Nat.min_eq_right (by omega)]
  next =>
    split
    next hpart => rw [show min (height - fromBottom * 8) 8 = height % 8 by omega]
    next =>
      rw [show min (height - fromBottom * 8) 8 = 0 by omega]
      rfl

theorem ramp_getElem? {level : Nat} (h : level < 9) : ramp[level]? = some (code level) := by
  unfold ramp
  rw [List.getElem?_map, List.getElem?_range h, Option.map_some]

/-- A bar that is no higher than the table is written, and fills its column. -/
theorem writeBar?_table {column height : Nat} (hcolumn : column < columns)
    (hheight : height ≤ rows * 8) : writeBar? rows (table rows columns f) (column, height) =
      some (table rows columns fun r c =>
        if c = column then cellCode height (rows - 1 - r) else f r c) := by
  unfold writeBar? levelsPerCell
  dsimp only
  rw [foldlM_putCell?_table hcolumn (fun fromBottom =>
    if fromBottom < height / 8 then code 8 else blank) (Nat.le_refl rows)]
  rw [Option.bind_eq_bind, Option.bind_some]
  split
  next hrest =>
    have hfull : height / 8 < rows := by omega
    rw [rowOf?_of_lt hfull, ramp_getElem? (by omega), Option.bind_eq_bind, Option.bind_some,
      Option.bind_eq_bind, Option.bind_some, putCell?_table (by omega) hcolumn]
    refine congrArg some (table_congr fun r hr c _ => ?_)
    rw [cellCode_eq]
    by_cases hc : c = column
    · simp only [hc, and_true, true_and, if_true]
      by_cases hpart : r = rows - height / 8 - 1
      · rw [if_pos hpart, if_neg (by omega), if_pos (by omega)]
      · rw [if_neg hpart, if_pos (by omega)]
        split
        · rfl
        · rw [if_neg (by omega)]
    · simp only [hc, and_false, false_and, if_false]
  next hrest =>
    have hnone : height % 8 = 0 := by omega
    refine congrArg some (table_congr fun r hr c _ => ?_)
    rw [cellCode_eq, hnone]
    by_cases hc : c = column
    · rw [if_pos ⟨hc, by omega⟩, if_pos hc]
      split
      · rfl
      · exact (ite_self _).symm
    · rw [if_neg (by omega), if_neg hc]

/-- Bars in columns of their own, none of them higher than the table. -/
theorem foldlM_writeBar?_columnsFrom {layout : MeterLayout}
    (h : ∀ level, cellHeight layout level ≤ rows * 8) (levels : List Single) (channel : Nat) :
    (columnsFrom layout columns channel levels).foldlM (writeBar? rows) (table rows columns f) =
      some (table rows columns fun r c =>
        ((columnsFrom layout columns channel levels).lookup c).elim (f r c)
          (cellCode · (rows - 1 - r))) := by
  induction levels generalizing channel f with
  | nil => rfl
  | cons level levels ih =>
    unfold columnsFrom
    dsimp only
    split
    next => rfl
    next hin =>
      rw [List.foldlM_cons, writeBar?_table (Nat.lt_of_not_le hin) (h level), Option.bind_eq_bind,
        Option.bind_some, ih]
      refine congrArg some (table_congr fun r _ c hc => ?_)
      by_cases hsame : c = barColumn layout channel
      · -- the column of this bar is not one of a later bar
        have hlater : (columnsFrom layout columns (channel + 1) levels).lookup c = none := by
          rw [Option.eq_none_iff_forall_ne_some]
          intro height hlookup
          obtain ⟨i, -, -, hcolumn, -⟩ := (lookup_columnsFrom hc).mp hlookup
          have := barColumn_lt_barColumn layout (show channel < channel + 1 + i by omega)
          omega
        rw [hlater, hsame, List.lookup_cons_self]
        exact if_pos rfl
      · have hdiffers : (c == barColumn layout channel) = false := by simp [hsame]
        rw [List.lookup_cons, hdiffers]
        simp only [if_neg hsame]

/-! ## Lines -/

/-- All bars of a meter can be written, and the table is made of the lines of the meter. -/
theorem writeBars?_columnsFrom {layout : MeterLayout}
    (h : ∀ level, cellHeight layout level ≤ rows * 8) (levels : List Single) :
    let bars := columnsFrom layout columns 0 levels
    writeBars? rows columns bars =
      some ((List.range rows).map fun row => cellLine columns bars (rows - 1 - row)) := by
  intro bars
  unfold writeBars?
  rw [foldlM_writeBar?_columnsFrom h]
  refine congrArg some (List.map_congr_left fun row _ => List.map_congr_left fun column _ => ?_)
  show (bars.lookup column).elim blank _ = _
  cases bars.lookup column <;> rfl

/-- On two rows, a bar of nine eighths has a full cell and one eighth above it; one of seventeen
would have its last eighth above the table. -/
example : writeBars? 2 3 [(0, 9), (2, 4)] = some [[0x08, 0x20, 0x20], [0x0F, 0x20, 0x0B]] ∧
    writeBars? 2 3 [(0, 17)] = none := by decide

/-- A meter prints its lines below each other, each as the text of its codes. -/
theorem cellCalls_eq_mapIdx (layout : MeterLayout) (columns : Nat) (levels : List Single)
    (channels : Nat) :
    let bars := columnsFrom layout columns 0 (levels.take channels)
    cellCalls layout columns levels channels =
      ((List.range layout.barHeight).map fun row =>
          cellLine columns bars (layout.barHeight - 1 - row)).mapIdx
        fun row cells => .print (String.ofList (cells.map fun code => Char.ofNat code.toNat)) 0
          (layout.yOffset + row) false := by
  intro bars
  rw [cellCalls_eq]
  refine List.ext_getElem? fun row => ?_
  rw [List.getElem?_mapIdx, List.getElem?_map, List.getElem?_map]
  by_cases hrow : row < layout.barHeight
  · rw [List.getElem?_range hrow]
    rfl
  · have hnone : (List.range layout.barHeight)[row]? = none := by simpa using hrow
    rw [hnone]
    rfl

end MidiPanel.Meter
