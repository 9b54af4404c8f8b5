import MidiPanel.Proofs.Meter.Table

/-!
# Whatever the levels are

Levels and peaks are singles, and nothing is asked of them. A meter draws each by the share that it
comes to: one if it is more, zero if it is less or no number. Negative zeros and what is no number
pass the clamp, but they have no height, as zero has none. So heights never exceed the meter, they
rise with the levels, and every rectangle, row and cell that is drawn from them is there.

Results:
* `Single.isShare_toShare`, `Single.toShare_le_toShare`: what single a level comes to.
* `pixelHeight_toShare`, `cellHeight_toShare`: a level is as high as its share.
* `pixelHeight_mono`, `cellHeight_mono`: heights rise with any levels.
* `pixelCalls_map`, `cellCalls_map`: levels of the same heights are drawn alike.
* `fillRect_of_mem_pixelCalls`: the rectangles, row by row.
* `drawn_within`: what is drawn from any levels lies within the meter.
-/

namespace MidiPanel

namespace Single

/-- The share that a single comes to. -/
def toShare (x : Single) : Single := maximum 0 (x.clamp 0 1)

/-- Zero in the place of what is no number. -/
def orZero (x : Single) : Single := if x = .nan then 0 else x

/-- Clamping leads to the share, or to something without a height. -/
theorem toShare_cases (x : Single) :
    (IsShare (x.clamp 0 1) ∧ x.toShare = x.clamp 0 1) ∨
      (x.toShare = 0 ∧ (x.clamp 0 1 = .nan ∨ Within true 0 0 (x.clamp 0 1))) := by
  unfold toShare
  rcases x.clamp_cases with hnan | hnegative | hshare
  · refine .inr ⟨?_, .inl hnan⟩
    rw [hnan, zero_eq]
    rfl
  · refine .inr ⟨?_, .inr hnegative⟩
    obtain ⟨units, fits, hclamp, -, hunits⟩ := hnegative
    obtain rfl : units = 0 := Nat.le_zero.mp hunits
    have hequal : ¬ finite false 0 fits_zero < finite true 0 fits := by simp [lt_iff, rank]
    rw [hclamp, zero_eq]
    show (if finite false 0 fits_zero < finite true 0 fits then finite true 0 fits
      else finite false 0 fits_zero) = _
    rw [if_neg hequal]
  · refine .inl ⟨hshare, ?_⟩
    obtain ⟨units, fits, hclamp, -, -⟩ := hshare
    rw [hclamp, zero_eq, maximum_finite]
    simp only [Nat.zero_max]

theorem isShare_toShare (x : Single) : IsShare x.toShare := by
  obtain ⟨hshare, htoShare⟩ | ⟨hzero, -⟩ := x.toShare_cases
  · rwa [htoShare]
  · rw [hzero]
    exact isShare_zero

theorem toShare_nan : toShare .nan = 0 := by
  unfold toShare
  rw [zero_eq]
  rfl

theorem toShare_zero : toShare 0 = 0 := by
  unfold toShare
  rw [isShare_zero.clamp_eq, isShare_zero.maximum_zero]

theorem toShare_orZero (x : Single) : x.orZero.toShare = x.toShare := by
  unfold orZero
  split
  next hnan => rw [hnan, toShare_nan, toShare_zero]
  next => rfl

/-! ## Order -/

theorem rank_zero : (0 : Single).rank = some 0 := by
  rw [zero_eq]
  rfl

theorem rank_one : (1 : Single).rank = some (unitsPerOne : Int) := by
  rw [one_eq]
  rfl

theorem rank_clamp {x : Single} {a : Int} (h : x.rank = some a) :
    (x.clamp 0 1).rank = some (max 0 (min a unitsPerOne)) := by
  have hlow : x < 0 ↔ a < 0 := by simp [lt_iff, h, rank_zero]
  have hhigh : 1 < x ↔ (unitsPerOne : Int) < a := by simp [lt_iff, h, rank_one]
  have hone : (0 : Int) < unitsPerOne := by exact_mod_cast unitsPerOne_pos
  by_cases hneg : x < 0
  · have hbelow : a < 0 := hlow.mp hneg
    rw [clamp_of_lt_zero hneg, rank_zero]
    congr 1
    omega
  · have hnotBelow : ¬ a < 0 := fun ha => hneg (hlow.mpr ha)
    unfold clamp
    rw [if_neg hneg]
    dsimp only
    split
    next hmore =>
      have habove : (unitsPerOne : Int) < a := hhigh.mp hmore
      rw [rank_one]
      congr 1
      omega
    next hless =>
      have hnotAbove : ¬ (unitsPerOne : Int) < a := fun ha => hless (hhigh.mpr ha)
      rw [h]
      congr 1
      omega

theorem rank_toShare {x : Single} {a : Int} (h : x.rank = some a) :
    x.toShare.rank = some (max 0 (min a unitsPerOne)) := by
  have hclamp := rank_clamp h
  obtain ⟨-, htoShare⟩ | ⟨hzero, hnan | hnegative⟩ := x.toShare_cases
  · rw [htoShare, hclamp]
  · rw [hnan] at hclamp
    cases hclamp
  · obtain ⟨units, fits, heq, -, hunits⟩ := hnegative
    obtain rfl : units = 0 := Nat.le_zero.mp hunits
    rw [heq] at hclamp
    rw [hzero, rank_zero, ← hclamp]
    rfl

theorem toShare_le_toShare {x y : Single} (h : x ≤ y) : x.toShare ≤ y.toShare := by
  obtain ⟨a, ha, b, hb, hab⟩ := le_iff.mp h
  exact le_iff.mpr ⟨_, rank_toShare ha, _, rank_toShare hb, by omega⟩

/-! ## Products -/

/-- Counting what a whole number has of a single, it makes no difference whether the single is
clamped or its share is taken. -/
theorem countWith_clamp_mul {whole : Nat → Nat} (zero : whole 0 = 0) (x : Single) {n : Nat}
    (fits : Fits (n * unitsPerOne)) :
    countWith whole (x.clamp 0 1 * ofNat n) = countWith whole (x.toShare * ofNat n) := by
  have hn : Within false 0 (n * unitsPerOne) (ofNat n) :=
    within_ofNat fits_zero fits (Nat.zero_le _) le_rfl
  obtain ⟨-, htoShare⟩ | ⟨hzero, hclamp⟩ := x.toShare_cases
  · rw [htoShare]
  · have hright : countWith whole (x.toShare * ofNat n) = 0 := by
      have hproduct : Within false 0 0 (0 * ofNat n) :=
        within_zero.mul hn fits_zero fits_zero (by simp) (by simp)
      rw [hzero, hproduct.eq_finite fits_zero]
      show min (whole 0) countLimit = 0
      rw [zero, Nat.zero_min]
    rw [hright]
    obtain hnan | hnegative := hclamp
    · rw [hnan]
      rfl
    · obtain ⟨units, fits', hproduct, -, -⟩ :=
        hnegative.mul hn fits_zero fits_zero (by simp) (by simp)
      rw [hproduct]
      rfl

end Single

namespace Meter

open Single

variable {layout : MeterLayout}

/-! ## Heights -/

theorem pixelHeight_toShare (level : Single) {top : Nat} (h : top < 2 ^ 24) :
    pixelHeight level.toShare top = pixelHeight level top := by
  rw [pixelHeight_of_isShare level.isShare_toShare]
  refine (countWith_clamp_mul ?_ level (fits_whole h)).symm
  rw [Nat.zero_add]
  exact Nat.div_eq_of_lt (Nat.div_lt_self unitsPerOne_pos (by decide))

theorem cellHeight_toShare (level : Single) (h : layout.barHeight ≤ 2 ^ 24) :
    cellHeight layout level.toShare = cellHeight layout level := by
  have hcount : (level.toShare * Single.ofNat (layout.barHeight * 8)).truncate =
      (level.clamp 0 1 * Single.ofNat (layout.barHeight * 8)).truncate :=
    (@countWith_clamp_mul (· / unitsPerOne) (Nat.zero_div _) level _ (fits_whole_eighths h)).symm
  rw [cellHeight_of_isShare level.isShare_toShare, hcount]
  rfl

theorem pixelHeight_mono {level level' : Single} (hle : level ≤ level') {top : Nat}
    (h : top < 2 ^ 24) : pixelHeight level top ≤ pixelHeight level' top := by
  rw [← pixelHeight_toShare level h, ← pixelHeight_toShare level' h,
    pixelHeight_of_isShare level.isShare_toShare, pixelHeight_of_isShare level'.isShare_toShare]
  exact round_mul_le_round_mul level.isShare_toShare level'.isShare_toShare
    (toShare_le_toShare hle) h

theorem cellHeight_mono {level level' : Single} (hle : level ≤ level')
    (h : layout.barHeight ≤ 2 ^ 24) : cellHeight layout level ≤ cellHeight layout level' := by
  rw [← cellHeight_toShare level h, ← cellHeight_toShare level' h]
  exact cellHeight_le_cellHeight level.isShare_toShare level'.isShare_toShare
    (toShare_le_toShare hle) h

theorem pixelHeight_orZero (level : Single) {top : Nat} (h : top < 2 ^ 24) :
    pixelHeight level.orZero top = pixelHeight level top := by
  rw [← pixelHeight_toShare level.orZero h, toShare_orZero, pixelHeight_toShare level h]

theorem cellHeight_orZero (level : Single) (h : layout.barHeight ≤ 2 ^ 24) :
    cellHeight layout level.orZero = cellHeight layout level := by
  rw [← cellHeight_toShare level.orZero h, toShare_orZero, cellHeight_toShare level h]

/-! ## Levels of the same heights -/

variable {f : Single → Single}

section Pixels

variable (h : ∀ level,
  pixelHeight (f level) (layout.barHeight - 1) = pixelHeight level (layout.barHeight - 1))

include h

theorem barCalls_map (left right : Nat) (level : Single) (peak : Option Single) :
    barCalls layout left right (f level) (peak.map f) = barCalls layout left right level peak := by
  rw [barCalls_eq, barCalls_eq]
  cases peak with
  | none => simp only [Option.map_none, h]
  | some peak => simp only [Option.map_some, h]

theorem barCallsFrom_map (panelWidth width : Nat) (peak? : Nat → Option Single) (channel : Nat)
    (levels : List Single) :
    barCallsFrom layout panelWidth width (fun c => (peak? c).map f) channel (levels.map f) =
      barCallsFrom layout panelWidth width peak? channel levels := by
  induction levels generalizing channel with
  | nil => rfl
  | cons level levels ih =>
    rw [List.map_cons, barCallsFrom_cons, barCallsFrom_cons, barCalls_map h, ih]

/-- Levels and peaks of the same heights make the same bars. -/
theorem pixelCalls_map (panelWidth width : Nat) (levels : List Single)
    (peaks : Option (List Single)) (channels : Nat) :
    pixelCalls layout panelWidth width (levels.map f) (peaks.map (List.map f)) channels =
      pixelCalls layout panelWidth width levels peaks channels := by
  have hpeaks : (fun channel : Nat => (peaks.map (List.map f)).bind (·[channel]?)) =
      fun channel : Nat => (peaks.bind (·[channel]?)).map f := by
    funext channel
    cases peaks with
    | none => rfl
    | some peaks => exact List.getElem?_map
  rw [pixelCalls_eq, pixelCalls_eq, hpeaks, ← List.map_take, barCallsFrom_map h]

end Pixels

section Cells

variable (h : ∀ level, cellHeight layout (f level) = cellHeight layout level)

include h

theorem columnsFrom_map (columns channel : Nat) (levels : List Single) :
    columnsFrom layout columns channel (levels.map f) =
      columnsFrom layout columns channel levels := by
  induction levels generalizing channel with
  | nil => rfl
  | cons level levels ih =>
    rw [List.map_cons]
    unfold columnsFrom
    dsimp only
    rw [h, ih]

/-- Levels of the same heights make the same lines. -/
theorem cellCalls_map (columns : Nat) (levels : List Single) (channels : Nat) :
    cellCalls layout columns (levels.map f) channels =
      cellCalls layout columns levels channels := by
  rw [cellCalls_eq, cellCalls_eq, ← List.map_take, columnsFrom_map h]

end Cells

/-! ## Rectangles -/

/-- A bar reaches from its height down to the lowest row of the meter, a cap is one row at its
height. -/
theorem fillRect_of_mem_barCalls (hheight : layout.barHeight ≤ 2 ^ 24) {left right : Nat}
    {level : Single} {peak : Option Single} {call : Call}
    (h : call ∈ barCalls layout left right level peak) :
    let top := layout.barHeight - 1
    let upper (level : Single) := layout.yOffset + (top - pixelHeight level top)
    call = .fillRect left (upper level) right (layout.yOffset + top) ∨
      ∃ p ∈ peak, call = .fillRect left (upper p) right (upper p) := by
  intro top upper
  have hbase : upper level + pixelHeight level top = layout.yOffset + top := by
    have hle : pixelHeight level top ≤ top :=
      pixelHeight_le level (show layout.barHeight - 1 < 2 ^ 24 by omega)
    rw [Nat.add_assoc, Nat.sub_add_cancel hle]
  rw [barCalls_eq] at h
  rcases List.mem_append.mp h with hbar | hcap
  · split at hbar
    next =>
      left
      rw [← hbase]
      exact List.mem_singleton.mp hbar
    next => cases hbar
  · split at hcap
    next p =>
      split at hcap
      next => exact .inr ⟨p, rfl, List.mem_singleton.mp hcap⟩
      next => cases hcap
    next => cases hcap

theorem fillRect_of_mem_pixelCalls (hheight : layout.barHeight ≤ 2 ^ 24)
    {panelWidth width : Nat} {levels : List Single} {peaks : Option (List Single)} {channels : Nat}
    {call : Call} (h : call ∈ pixelCalls layout panelWidth width levels peaks channels) :
    let top := layout.barHeight - 1
    let upper (level : Single) := layout.yOffset + (top - pixelHeight level top)
    ∃ left right,
      (∃ level ∈ levels, call = .fillRect left (upper level) right (layout.yOffset + top)) ∨
        ∃ heard ∈ peaks, ∃ peak ∈ heard, call = .fillRect left (upper peak) right (upper peak) := by
  rw [pixelCalls_eq] at h
  split at h
  next => cases h
  next =>
    obtain ⟨i, level, hlevel, -, hcall⟩ := mem_barCallsFrom.mp h
    obtain hbar | ⟨peak, hpeak, hcap⟩ := fillRect_of_mem_barCalls hheight hcall
    · exact ⟨_, _, .inl ⟨level, List.mem_of_mem_take (List.mem_of_getElem? hlevel), hbar⟩⟩
    · obtain ⟨heard, hheard, hmem⟩ := Option.bind_eq_some_iff.mp hpeak
      exact ⟨_, _, .inr ⟨heard, hheard, peak, List.mem_of_getElem? hmem, hcap⟩⟩

/-- A meter of at most `2 ^ 24` rows, drawn from any levels and peaks, however many of them. No
height is more than the meter has, so that no difference below zero comes up for a bar. Each
rectangle reaches from the height of a level down to the lowest row, or is a cap of one row at the
height of a peak, and these rows are rows of the meter. Every index with which a table of lines is
written is in range, and the lines are the ones that are printed. What is no number is drawn as
zero, and heights rise with the levels. -/
theorem drawn_within (hpositive : 0 < layout.barHeight) (hheight : layout.barHeight ≤ 2 ^ 24)
    (levels : List Single) (peaks : Option (List Single)) (panelWidth width channels : Nat) :
    let top := layout.barHeight - 1
    let lowest := layout.yOffset + layout.barHeight - 1
    let upper (level : Single) := layout.yOffset + (top - pixelHeight level top)
    let bars := columnsFrom layout panelWidth 0 (levels.take channels)
    (∀ level, pixelHeight level top ≤ top ∧ layout.yOffset ≤ upper level ∧ upper level ≤ lowest) ∧
    (layout.yOffset + layout.barHeight ≤ UInt32.size →
      (∀ left right level peak, ∀ stroke ∈ barStrokes layout left right level peak,
        stroke.fits = true) ∧ ∀ level, (columnStroke layout level).fits = true) ∧
    (∀ call ∈ pixelCalls layout panelWidth width levels peaks channels, ∃ left right,
      (∃ level ∈ levels, call = .fillRect left (upper level) right lowest) ∨
        ∃ heard ∈ peaks, ∃ peak ∈ heard, call = .fillRect left (upper peak) right (upper peak)) ∧
    (∀ level, cellHeight layout level ≤ 8 * layout.barHeight) ∧
    (∃ lines, writeBars? layout.barHeight panelWidth bars = some lines ∧
      cellCalls layout panelWidth levels channels = lines.mapIdx fun row cells =>
        .print (String.ofList (cells.map fun code => Char.ofNat code.toNat)) 0
          (layout.yOffset + row) false) ∧
    (pixelCalls layout panelWidth width (levels.map orZero) (peaks.map (List.map orZero)) channels =
        pixelCalls layout panelWidth width levels peaks channels ∧
      cellCalls layout panelWidth (levels.map orZero) channels =
        cellCalls layout panelWidth levels channels) ∧
    ∀ level level' : Single, level ≤ level' →
      pixelHeight level top ≤ pixelHeight level' top ∧
        cellHeight layout level ≤ cellHeight layout level' := by
  intro top lowest upper bars
  have htop : top < 2 ^ 24 := by omega
  have hlowest : lowest = layout.yOffset + top := by omega
  have hcells (level : Single) : cellHeight layout level ≤ layout.barHeight * 8 :=
    cellHeight_le level hpositive hheight
  refine ⟨fun level => ⟨pixelHeight_le level htop, ?_, ?_⟩, fun hlast => ⟨?_, ?_⟩, ?_, ?_, ?_,
    ⟨?_, ?_⟩, ?_⟩
  · exact Nat.le_add_right _ _
  · rw [hlowest]
    exact Nat.add_le_add_left (Nat.sub_le _ _) _
  · intro left right level peak
    exact (fits_barStrokes_iff hpositive hlast).mpr
      ⟨pixelHeight_le level htop, fun p _ => pixelHeight_le p htop⟩
  · intro level
    refine (fits_columnStroke_iff (hheight.trans_lt (by decide))).mpr ?_
    have := hcells level
    omega
  · intro call hcall
    rw [hlowest]
    exact fillRect_of_mem_pixelCalls hheight hcall
  · intro level
    rw [Nat.mul_comm]
    exact hcells level
  · exact ⟨_, writeBars?_columnsFrom hcells (levels.take channels),
      cellCalls_eq_mapIdx layout panelWidth levels channels⟩
  · exact pixelCalls_map (fun level => pixelHeight_orZero level htop) _ _ _ _ _
  · exact cellCalls_map (fun level => cellHeight_orZero level hheight) _ _ _
  · intro level level' hle
    exact ⟨pixelHeight_mono hle htop, cellHeight_mono hle hheight⟩

/-- What is no number and both infinities, on two rows of characters: the base, all of the cells,
and the base again. -/
theorem drawn_within_infinite :
    let layout : MeterLayout := ⟨0, 0, 0, 2, true⟩
    let levels : List Single := [.nan, .infinite false, .infinite true]
    0 < layout.barHeight ∧ layout.barHeight ≤ 2 ^ 24 ∧
      levels.map (cellHeight layout) = [1, 16, 1] ∧
      ∃ lines, writeBars? 2 20 (columnsFrom layout 20 0 levels) = some lines ∧
        cellCalls layout 20 levels 3 = lines.mapIdx fun row cells =>
          .print (String.ofList (cells.map fun code => Char.ofNat code.toNat)) 0 (0 + row)
            false := by
  intro layout levels
  have hpositive : 0 < layout.barHeight := by decide
  have hheight : layout.barHeight ≤ 2 ^ 24 := by decide
  obtain ⟨-, -, -, -, hlines, -⟩ := drawn_within hpositive hheight levels none 20 1 3
  exact ⟨hpositive, hheight, by decide +kernel, hlines⟩

end Meter
end MidiPanel
