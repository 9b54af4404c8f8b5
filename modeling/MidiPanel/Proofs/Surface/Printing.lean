import MidiPanel.Proofs.Text.Ascii
import MidiPanel.Surface.CellPanel

/-!
# What printing writes

A print changes the cells of one row: from its first column on it writes the codes of the text as
far as they fit, and blanks the cells behind them if it is told to. Lines of ASCII codes that are
printed one below the other, each as long as the panel is wide, are found on the panel as they are.

Results:
* `codes_lineText`: the codes of ASCII characters.
* `get?_print`: every cell behind one print.
* `run_lines`: every cell behind lines printed below each other.
-/

namespace MidiPanel.CellPanel

/-- The code in column `x` of row `y`, if there is such a cell. -/
def get? (p : CellPanel) (x y : Nat) : Option UInt8 := p.cells[y]?.bind (·[x]?)

/-- The cells of one column, from the bottom. -/
def columnUp (p : CellPanel) (x : Nat) : List (Option UInt8) :=
  (List.range p.rows).map fun fromBottom => p.get? x (p.rows - 1 - fromBottom)

/-! ## Codes -/

/-- The text of a line of codes. -/
def lineText (line : List UInt8) : String :=
  String.ofList (line.map fun code => Char.ofNat code.toNat)

theorem codes_lineText {line : List UInt8} (h : ∀ code ∈ line, code < 0x80) :
    codes (lineText line) = line := by
  unfold codes lineText
  rw [String.toList_ofList]
  induction line with
  | nil => rfl
  | cons code line ih =>
    have hcode : code < 0x80 := h code List.mem_cons_self
    have hline := ih fun code' hcode' => h code' (List.mem_cons_of_mem code hcode')
    rw [List.map_cons, List.flatMap_cons, utf8EncodeChar_of_ascii hcode, List.map_append, hline]
    simp [hcode]

/-! ## Cells -/

theorem getElem?_writeLine {columns : Nat} (cells : Vector UInt8 columns) (codes : Array UInt8)
    (column : Nat) (clearRest : Bool) (x : Nat) :
    (writeLine cells codes column clearRest)[x]? =
      if column ≤ x ∧ x < columns then
        codes[x - column]?.or (if clearRest then some space else cells[x]?)
      else cells[x]? := by
  unfold writeLine
  by_cases hin : x < columns
  · rw [Vector.getElem?_eq_getElem hin, Vector.getElem?_eq_getElem hin, Vector.getElem_mapFinIdx]
    by_cases hbefore : x < column
    · have hout : ¬(column ≤ x ∧ x < columns) := by omega
      rw [if_pos hbefore, if_neg hout]
    · have hwritten : column ≤ x ∧ x < columns := by omega
      rw [if_neg hbefore, if_pos hwritten]
      cases codes[x - column]? <;> cases clearRest <;> rfl
  · have hout : ¬(column ≤ x ∧ x < columns) := by omega
    rw [Vector.getElem?_eq_none (by omega), Vector.getElem?_eq_none (by omega), if_neg hout]

theorem get?_print {p q : CellPanel} {text : String} {column row : Nat} {clearRest : Bool}
    (h : Surface.perform p (.print text column row clearRest) = .ok q) :
    q.columns = p.columns ∧ q.rows = p.rows ∧ ∀ x y, q.get? x y =
      if y = row ∧ column ≤ x ∧ x < p.columns then
        (codes text)[x - column]?.or (if clearRest then some space else p.get? x y)
      else p.get? x y := by
  replace h : p.perform (.print text column row clearRest) = .ok q := h
  simp only [perform] at h
  split at h
  next hin =>
    cases h
    refine ⟨rfl, rfl, ?_⟩
    intro x y
    show ((p.cells.set row _)[y]?.bind (·[x]?)) = if _ then _ else p.cells[y]?.bind (·[x]?)
    rw [Vector.getElem?_set]
    by_cases hrow : row = y
    · subst hrow
      have hline : p.cells[row]? = some p.cells[row] := Vector.getElem?_eq_getElem hin.1
      rw [if_pos rfl, get?, hline, Option.bind_some, Option.bind_some, getElem?_writeLine]
      simp
    · have hout : ¬(y = row ∧ column ≤ x ∧ x < p.columns) := fun h => hrow h.1.symm
      rw [if_neg hrow, if_neg hout]
  next => cases h

theorem exists_perform_print {p : CellPanel} {column row : Nat} (hcolumn : column < p.columns)
    (hrow : row < p.rows) (text : String) (clearRest : Bool) :
    ∃ q, Surface.perform p (.print text column row clearRest) = .ok q :=
  ⟨_, dif_pos ⟨hrow, hcolumn⟩⟩

/-- Lines as long as the panel is wide, printed from the top on. -/
theorem run_lines {p : CellPanel} (hcolumns : 0 < p.columns) {lines : Nat → List UInt8}
    (hascii : ∀ row, ∀ code ∈ lines row, code < 0x80)
    (hlength : ∀ row, (lines row).length = p.columns) {n : Nat} (hn : n ≤ p.rows) :
    ∃ q, Surface.run p ((List.range n).map fun row => .print (lineText (lines row)) 0 row false) =
        (q, none) ∧
      q.columns = p.columns ∧ q.rows = p.rows ∧
      ∀ x < p.columns, ∀ y, q.get? x y = if y < n then (lines y)[x]? else p.get? x y := by
  induction n with
  | zero => exact ⟨p, rfl, rfl, rfl, by simp⟩
  | succ n ih =>
    obtain ⟨q, hrun, hqcolumns, hqrows, hcells⟩ := ih (by omega)
    have hqcolumn : 0 < q.columns := by omega
    have hqrow : n < q.rows := by omega
    obtain ⟨q', hprint⟩ := exists_perform_print hqcolumn hqrow (lineText (lines n)) false
    obtain ⟨hcolumns', hrows', hcells'⟩ := get?_print hprint
    refine ⟨q', ?_, hcolumns'.trans hqcolumns, hrows'.trans hqrows, ?_⟩
    · rw [List.range_succ, List.map_append, Surface.run_append, hrun]
      simp [Surface.run, hprint]
    · intro x hx y
      rw [hcells', hcells x hx, codes_lineText (hascii n), hqcolumns]
      by_cases hy : y = n
      · have hcode : x < (lines n).length := by
          rw [hlength]
          exact hx
        simp [hy, hx, List.getElem?_eq_getElem hcode]
      · have hbelow : y < n + 1 ↔ y < n := by omega
        simp [hy, hbelow]

end MidiPanel.CellPanel
