import MidiPanel.Meter.Bars
import Mathlib.Data.List.TakeWhile

/-!
# The calls of the meter

Drawing strokes comes to making the calls of those in front of the first that overflows. On a pixel
panel the calls of the meter are rectangles: bars that end on its lowest line, and caps of one line.
On a character panel they are lines that start in the first column and leave the rest of their row
alone.

Results:
* `Stroke.draw_eq`, `Stroke.draw_of_fits`: a drawing as a run of calls, and the fault behind them.
* `forall_mem_sideBySide`: which bars are placed, and which are drawn.
* `pixelCalls_eq`, `cellCalls_eq`: the calls of all strokes of a meter.
* `isBar_of_mem_pixelStrokes`: what the strokes on a pixel panel are.
* `isMeter_of_mem_callsOf`: the calls of the meter are its own.
-/

namespace MidiPanel

/-- Whether a call is one of those that only the meter makes. -/
def Call.isMeter : Call → Bool
  | .fillRect _ _ _ _ => true
  | .print _ _ _ clearRest => !clearRest
  | _ => false

/-! ## Strokes -/

namespace Stroke

/-- The calls of the strokes in front of the first that overflows. -/
def callsOf (strokes : List Stroke) : List Call := (strokes.takeWhile fits).flatMap calls

/-- What ends a drawing in which no call is refused. -/
def faultOf (strokes : List Stroke) : Option Fault :=
  if strokes.all fits then none else some .overflow

variable {strokes : List Stroke}

theorem draw_eq {σ : Type} [Surface σ] (surface : σ) (strokes : List Stroke) :
    draw surface strokes =
      let drawn := Surface.run surface (callsOf strokes)
      (drawn.1, drawn.2.or (faultOf strokes)) := by
  induction strokes generalizing surface with
  | nil => rfl
  | cons stroke strokes ih =>
    unfold draw callsOf faultOf
    rw [List.takeWhile_cons, List.all_cons]
    cases stroke.fits with
    | false => rfl
    | true =>
      rw [if_pos rfl, if_pos rfl, List.flatMap_cons, Surface.run_append, Bool.true_and]
      obtain ⟨ground, fault⟩ := Surface.run surface stroke.calls
      cases fault with
      | none => exact ih ground
      | some fault => rfl

theorem faultOf_cases (strokes : List Stroke) :
    faultOf strokes = none ∨ faultOf strokes = some .overflow := by
  unfold faultOf
  cases strokes.all fits with
  | true => exact .inl rfl
  | false => exact .inr rfl

theorem faultOf_eq_none_iff : faultOf strokes = none ↔ ∀ stroke ∈ strokes, stroke.fits = true := by
  unfold faultOf
  rw [← List.all_eq_true]
  cases strokes.all fits <;> simp

theorem faultOf_eq_some_iff {fault : Fault} :
    faultOf strokes = some fault ↔
      fault = .overflow ∧ ¬∀ stroke ∈ strokes, stroke.fits = true := by
  rw [← List.all_eq_true]
  unfold faultOf
  cases strokes.all fits with
  | true => simp
  | false => simp [eq_comm]

theorem callsOf_eq (h : ∀ stroke ∈ strokes, stroke.fits = true) :
    callsOf strokes = strokes.flatMap calls := by
  unfold callsOf
  rw [List.takeWhile_eq_self_iff.mpr h]

/-- A drawing in which words hold all numbers is a run of all its calls. -/
theorem draw_of_fits {σ : Type} [Surface σ] (surface : σ)
    (h : ∀ stroke ∈ strokes, stroke.fits = true) :
    draw surface strokes = Surface.run surface (strokes.flatMap calls) := by
  rw [draw_eq, callsOf_eq h, faultOf_eq_none_iff.mpr h]
  exact Prod.ext rfl (Option.or_none)

/-- A drawing that comes to its end has held all its numbers in words. -/
theorem fits_of_draw {σ : Type} [Surface σ] {surface : σ} (h : (draw surface strokes).2 = none) :
    ∀ stroke ∈ strokes, stroke.fits = true := by
  rw [draw_eq] at h
  exact faultOf_eq_none_iff.mp (Option.or_eq_none_iff.mp h).2

/-- Every call that is made is one of a stroke that fits. -/
theorem exists_of_mem_callsOf {call : Call} (h : call ∈ callsOf strokes) :
    ∃ stroke ∈ strokes, stroke.fits = true ∧ call ∈ stroke.calls := by
  obtain ⟨stroke, hstroke, hcall⟩ := List.mem_flatMap.mp h
  exact ⟨stroke, (List.takeWhile_sublist _).subset hstroke, List.mem_takeWhile_imp hstroke, hcall⟩

theorem isWord_of_fits {stroke : Stroke} (h : stroke.fits = true) {number : Int}
    (hnumber : number ∈ stroke.numbers) : IsWord number :=
  of_decide_eq_true (List.all_eq_true.mp h number hnumber)

theorem fits_iff {stroke : Stroke} :
    stroke.fits = true ↔ ∀ number ∈ stroke.numbers, IsWord number := by
  simp [fits]

end Stroke

namespace Meter

variable {layout : MeterLayout} {call : Call}

section

variable {place : Nat → List Int} {crosses : Nat → Bool} {draw : Nat → Single → List Stroke}

theorem sideBySide_cons (channel : Nat) (level : Single) (levels : List Single) :
    sideBySide place crosses draw channel (level :: levels) =
      ⟨place channel, []⟩ ::
        if crosses channel then []
        else draw channel level ++ sideBySide place crosses draw (channel + 1) levels := rfl

/-- What holds of every stroke of bars side by side: each bar is placed unless one before it has
crossed the right edge, and drawn if it does not cross it itself. -/
theorem forall_mem_sideBySide {channel : Nat} {levels : List Single} {P : Stroke → Prop} :
    (∀ stroke ∈ sideBySide place crosses draw channel levels, P stroke) ↔
      ∀ i level, levels[i]? = some level → (∀ j < i, crosses (channel + j) = false) →
        P ⟨place (channel + i), []⟩ ∧
          (crosses (channel + i) = false → ∀ stroke ∈ draw (channel + i) level, P stroke) := by
  induction levels generalizing channel with
  | nil => simp [sideBySide]
  | cons level levels ih =>
    have hshift (i : Nat) : channel + (i + 1) = channel + 1 + i := by omega
    rw [sideBySide_cons, List.forall_mem_cons]
    constructor
    · rintro ⟨hplace, hrest⟩ i level' hlevel hbefore
      cases i with
      | zero =>
        cases hlevel
        refine ⟨hplace, fun hhere stroke hstroke => hrest stroke ?_⟩
        rw [Nat.add_zero] at hhere hstroke
        rw [hhere, if_neg Bool.false_ne_true]
        exact List.mem_append_left _ hstroke
      | succ i =>
        have hhere : crosses channel = false := hbefore 0 (Nat.succ_pos i)
        rw [hhere, if_neg Bool.false_ne_true] at hrest
        rw [hshift]
        refine ih.mp (fun stroke hstroke => hrest stroke (List.mem_append_right _ hstroke)) i level'
          hlevel fun j hj => ?_
        rw [← hshift]
        exact hbefore (j + 1) (Nat.succ_lt_succ hj)
    · intro hall
      obtain ⟨hplace, hdraw⟩ := hall 0 level rfl fun _ hj => absurd hj (Nat.not_lt_zero _)
      refine ⟨hplace, fun stroke hstroke => ?_⟩
      split at hstroke
      next => cases hstroke
      next hcrosses =>
        have hhere : crosses channel = false := Bool.eq_false_iff.mpr hcrosses
        rcases List.mem_append.mp hstroke with hbar | hrest
        · exact hdraw hhere stroke hbar
        · refine ih.mpr (fun i level' hlevel hbefore => ?_) stroke hrest
          rw [← hshift]
          refine hall (i + 1) level' hlevel fun j hj => ?_
          cases j with
          | zero => exact hhere
          | succ j =>
            rw [hshift]
            exact hbefore j (Nat.lt_of_succ_lt_succ hj)

end

/-! ## Rectangles -/

/-- The calls for one bar and its peak cap between the columns `left` and `right`. -/
def barCalls (layout : MeterLayout) (left right : Nat) (level : Single) (peak : Option Single) :
    List Call :=
  (barStrokes layout left right level peak).flatMap Stroke.calls

/-- The calls that draw the first `channels` levels on a pixel panel with bars of the given width.
-/
def pixelCalls (layout : MeterLayout) (panelWidth width : Nat) (levels : List Single)
    (peaks : Option (List Single)) (channels : Nat) : List Call :=
  (pixelStrokes layout panelWidth width levels peaks channels).flatMap Stroke.calls

theorem barCalls_eq (layout : MeterLayout) (left right : Nat) (level : Single)
    (peak : Option Single) :
    let top := layout.barHeight - 1
    let upper (level : Single) := layout.yOffset + (top - pixelHeight level top)
    barCalls layout left right level peak =
      (if 0 < pixelHeight level top ∨ layout.drawBarBases then
        [.fillRect left (upper level) right (upper level + pixelHeight level top)] else []) ++
      (match peak with
        | some peak =>
          if 0 < pixelHeight peak top then [.fillRect left (upper peak) right (upper peak)] else []
        | none => []) := by
  intro top upper
  unfold barCalls barStrokes
  dsimp only
  rw [List.flatMap_append]
  congr 1
  · split <;> rfl
  · cases peak with
    | none => rfl
    | some peak =>
      dsimp only
      split <;> rfl

/-- The calls for the bars from `channel` on, up to the first that crosses the right edge. -/
def barCallsFrom (layout : MeterLayout) (panelWidth width : Nat) (peak? : Nat → Option Single)
    (channel : Nat) (levels : List Single) : List Call :=
  (barsFrom layout panelWidth width peak? channel levels).flatMap Stroke.calls

theorem barCallsFrom_cons (panelWidth width : Nat) (peak? : Nat → Option Single) (channel : Nat)
    (level : Single) (levels : List Single) :
    let left := barLeft layout width channel
    let right := left + width - 1
    barCallsFrom layout panelWidth width peak? channel (level :: levels) =
      if panelWidth ≤ right then []
      else barCalls layout left right level (peak? channel) ++
        barCallsFrom layout panelWidth width peak? (channel + 1) levels := by
  intro left right
  unfold barCallsFrom barsFrom
  rw [sideBySide_cons, List.flatMap_cons, List.nil_append]
  by_cases hout : panelWidth ≤ right
  · rw [if_pos hout, if_pos (decide_eq_true hout)]
    rfl
  · rw [if_neg hout, if_neg (by simpa using hout), List.flatMap_append]
    rfl

theorem pixelCalls_eq (panelWidth width : Nat) (levels : List Single)
    (peaks : Option (List Single)) (channels : Nat) :
    pixelCalls layout panelWidth width levels peaks channels =
      if width = 0 ∨ layout.barHeight = 0 then []
      else barCallsFrom layout panelWidth width (fun channel => peaks.bind (·[channel]?)) 0
        (levels.take channels) := by
  unfold pixelCalls pixelStrokes
  split <;> rfl

/-- The stroke of a bar or its cap: a rectangle that hangs on the height of some level, which is
taken from the height of the meter, and that reaches down from there by no more than that height. -/
def IsBar (layout : MeterLayout) (left right : Nat) (stroke : Stroke) : Prop :=
  ∃ level extent,
    let top := layout.barHeight - 1
    let height := pixelHeight level top
    let upper := layout.yOffset + (top - height)
    extent ≤ height ∧ (top - height : Int) ∈ stroke.numbers ∧
      stroke.calls = [.fillRect left upper right (upper + extent)]

theorem isBar_of_mem_barStrokes {left right : Nat} {level : Single} {peak : Option Single}
    {stroke : Stroke} (h : stroke ∈ barStrokes layout left right level peak) :
    IsBar layout left right stroke := by
  unfold barStrokes at h
  dsimp only at h
  rcases List.mem_append.mp h with hbar | hcap
  · split at hbar
    · rw [List.mem_singleton.mp hbar]
      exact ⟨level, _, le_rfl, List.mem_cons_self, rfl⟩
    · cases hbar
  · split at hcap
    next peak =>
      split at hcap
      · rw [List.mem_singleton.mp hcap]
        exact ⟨peak, 0, Nat.zero_le _, List.mem_cons_self, rfl⟩
      · cases hcap
    next => cases hcap

theorem isBar_of_mem_barsFrom {panelWidth width : Nat} {peak? : Nat → Option Single} {channel : Nat}
    {levels : List Single} :
    ∀ stroke ∈ barsFrom layout panelWidth width peak? channel levels, stroke.calls = [] ∨
      ∃ left, left + width - 1 < panelWidth ∧ IsBar layout left (left + width - 1) stroke := by
  unfold barsFrom
  rw [forall_mem_sideBySide]
  intro i level _ _
  refine ⟨.inl rfl, fun hin stroke hstroke => .inr ⟨_, ?_, isBar_of_mem_barStrokes hstroke⟩⟩
  simpa using hin

/-- The strokes on a pixel panel make no call, or are bars that end before the right edge. -/
theorem isBar_of_mem_pixelStrokes {panelWidth width : Nat} {levels : List Single}
    {peaks : Option (List Single)} {channels : Nat} {stroke : Stroke}
    (h : stroke ∈ pixelStrokes layout panelWidth width levels peaks channels) :
    stroke.calls = [] ∨ (0 < layout.barHeight ∧
      ∃ left right, left ≤ right ∧ right < panelWidth ∧ IsBar layout left right stroke) := by
  unfold pixelStrokes at h
  split at h
  next => cases h
  next hsize =>
    rcases List.mem_cons.mp h with rfl | hbar
    · exact .inl rfl
    · refine (isBar_of_mem_barsFrom stroke hbar).imp_right ?_
      rintro ⟨left, hright, hbar⟩
      exact ⟨by omega, left, _, by omega, hright, hbar⟩

/-! ## Lines -/

/-- The calls that draw the first `channels` levels on a character panel. -/
def cellCalls (layout : MeterLayout) (columns : Nat) (levels : List Single) (channels : Nat) :
    List Call :=
  (cellStrokes layout columns levels channels).flatMap Stroke.calls

/-- Placing bars and filling their columns makes no call. -/
theorem calls_of_mem_columns {columns channel : Nat} {levels : List Single} :
    ∀ stroke ∈ sideBySide (columnPlace layout) (fun channel => columns ≤ barColumn layout channel)
      (fun _ level => [columnStroke layout level]) channel levels, stroke.calls = [] := by
  rw [forall_mem_sideBySide]
  intro i level _ _
  refine ⟨rfl, fun _ stroke hstroke => ?_⟩
  rw [List.mem_singleton.mp hstroke]
  rfl

theorem cellCalls_eq (layout : MeterLayout) (columns : Nat) (levels : List Single)
    (channels : Nat) :
    let bars := columnsFrom layout columns 0 (levels.take channels)
    cellCalls layout columns levels channels =
      (List.range layout.barHeight).map fun row =>
        .print (String.ofList ((cellLine columns bars (layout.barHeight - 1 - row)).map
          fun code => Char.ofNat code.toNat)) 0 (layout.yOffset + row) false := by
  intro bars
  unfold cellCalls cellStrokes
  split
  next hnone =>
    rw [hnone]
    rfl
  next =>
    dsimp only
    rw [List.cons_append, List.flatMap_cons, List.flatMap_append,
      List.flatMap_eq_nil_iff.mpr calls_of_mem_columns, List.nil_append, List.flatMap_map]
    exact (List.map_eq_flatMap ..).symm

/-- The strokes on a character panel make no call, or print a row of the meter. -/
theorem exists_of_mem_cellStrokes {columns : Nat} {levels : List Single} {channels : Nat}
    {stroke : Stroke} (h : stroke ∈ cellStrokes layout columns levels channels) :
    stroke.calls = [] ∨ ∃ text row, row < layout.barHeight ∧
      stroke.calls = [.print text 0 (layout.yOffset + row) false] := by
  unfold cellStrokes at h
  split at h
  next => cases h
  next =>
    rcases List.mem_append.mp h with hfilled | hrow
    · refine .inl ?_
      rcases List.mem_cons.mp hfilled with rfl | hcolumn
      · rfl
      · exact calls_of_mem_columns stroke hcolumn
    · obtain ⟨row, hin, rfl⟩ := List.mem_map.mp hrow
      exact .inr ⟨_, row, List.mem_range.mp hin, rfl⟩

/-! ## Both -/

variable {kind : PanelKind} {panelWidth : Nat} {levels peaks : List Single} {channels : Nat}

/-- The calls that draw a meter on a panel of this kind and width. -/
def calls (kind : PanelKind) (panelWidth : Nat) (layout : MeterLayout) (levels peaks : List Single)
    (channels : Nat) : List Call :=
  (strokes kind panelWidth layout levels peaks channels).flatMap Stroke.calls

theorem calls_graphical : calls .graphical panelWidth layout levels peaks channels =
    pixelCalls layout panelWidth (barWidth panelWidth channels layout.barSpacing) levels
      (some peaks) channels := by
  unfold calls strokes pixelCalls
  dsimp only
  rw [List.flatMap_cons]
  exact List.nil_append _

theorem isMeter_of_mem_callsOf
    (h : call ∈ Stroke.callsOf (strokes kind panelWidth layout levels peaks channels)) :
    call.isMeter = true := by
  obtain ⟨stroke, hstroke, -, hcall⟩ := Stroke.exists_of_mem_callsOf h
  cases kind with
  | graphical =>
    rcases List.mem_cons.mp hstroke with rfl | hstroke
    · cases hcall
    · obtain hnone | ⟨-, left, right, -, -, level, extent, -, -, hbar⟩ :=
        isBar_of_mem_pixelStrokes hstroke
      · rw [hnone] at hcall
        cases hcall
      · rw [hbar] at hcall
        rw [List.mem_singleton.mp hcall]
        rfl
  | character =>
    obtain hnone | ⟨text, row, -, hprint⟩ := exists_of_mem_cellStrokes hstroke
    · rw [hnone] at hcall
      cases hcall
    · rw [hprint] at hcall
      rw [List.mem_singleton.mp hcall]
      rfl

end Meter
end MidiPanel
