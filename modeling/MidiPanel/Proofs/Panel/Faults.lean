import MidiPanel.Proofs.Panel.Inside
import MidiPanel.Proofs.Surface.Willing

/-!
# What ends a run

A run of steps comes to its end unless the surface refuses a call or the meter overflows, and the
meter overflows only if it does not fit on a surface that the calls so far have led to. On a
character panel that the meter fits on, no call of a replay is refused and every run comes to its
end.

Results:
* `ends_drive`, `ends_run`: what ends a step and a run.
* `Surface.Ends.fault_of_willing`: nothing does if nothing is refused and the meter fits.
* `FitsCells.fault_run`: nothing does on a character panel that the meter fits on.
-/

namespace MidiPanel

/-- Words hold all numbers of a meter of the first `channels` channels on this surface, whatever has
been read. -/
def Meter.FitsOn {σ : Type} [Surface σ] (surface : σ) (layout : MeterLayout) (channels : Nat) :
    Prop :=
  ∀ readings : Vector Reading 16, ∀ stroke ∈ Meter.strokes (Surface.kind surface)
    (Surface.width surface) layout (readings.toList.map Reading.level)
    (readings.toList.map Reading.peak) channels, stroke.fits = true

namespace Surface

variable {σ : Type} [Surface σ]

/-- How drawing leads from a surface to another, and the fault that it ends in: by calls, the last
of which may have been refused, or by calls behind which a meter has overflowed that does not fit on
a surface on the way. -/
inductive Ends (layout : MeterLayout) (channels : Nat) (surface ground : σ) :
    Option Fault → Prop
  | called (calls : List Call) {fault : Option Fault} (h : run surface calls = (ground, fault)) :
      Ends layout channels surface ground fault
  | overflows (made later : List Call) (h : run surface (made ++ later) = (ground, none))
      (hmeter : ¬Meter.FitsOn (run surface made).1 layout channels) :
      Ends layout channels surface ground (some .overflow)

namespace Ends

variable {layout : MeterLayout} {channels : Nat} {surface ground last : σ} {fault : Option Fault}

theorem trans (h : Ends layout channels surface ground none)
    (h' : Ends layout channels ground last fault) : Ends layout channels surface last fault := by
  cases h with
  | called calls hcalls =>
    cases h' with
    | called later hlater =>
      refine .called (calls ++ later) ?_
      rw [run_append, hcalls]
      exact hlater
    | overflows made later hlater hmeter =>
      refine .overflows (calls ++ made) later ?_ ?_
      · rw [List.append_assoc, run_append, hcalls]
        exact hlater
      · rw [run_append, hcalls]
        exact hmeter

/-- Nothing ends the drawing if nothing is refused and the meter fits wherever the calls lead. -/
theorem fault_of_willing (h : Ends layout channels surface ground fault)
    (hsurface : Willing surface)
    (hmeter : ∀ calls, Meter.FitsOn (run surface calls).1 layout channels) : fault = none := by
  cases h with
  | called calls hcalls => exact (congrArg Prod.snd hcalls).symm.trans (hsurface calls)
  | overflows made later hcalls hnot => exact absurd (hmeter made) hnot

theorem fixture_eq [Framed σ] (h : Ends layout channels surface ground fault) :
    Framed.fixture ground = Framed.fixture surface := by
  cases h with
  | called calls hcalls => exact Framed.fixture_of_run hcalls
  | overflows made later hcalls hnot => exact Framed.fixture_of_run hcalls

end Ends
end Surface

namespace Panel

variable {σ : Type} [Surface σ]

/-! ## Steps -/

theorem ends_exitPowerSaving (layout : MeterLayout) (channels : Nat) (p : Panel) (surface : σ) :
    let drawn := p.exitPowerSaving surface
    Surface.Ends layout channels surface drawn.surface drawn.fault := by
  refine .called [.setBacklight true] ?_
  unfold exitPowerSaving Surface.run
  obtain ⟨lit, hperform, hexit⟩ | ⟨fault, hperform, hexit⟩ := p.status.exitPowerSaving_cases surface
  · rw [hperform, hexit]
    rfl
  · rw [hperform, hexit]

theorem ends_update (layout : MeterLayout) (channels : Nat) (s : Status) (surface : σ)
    (now : Tick) :
    let drawn := s.update surface now
    Surface.Ends layout channels surface drawn.surface drawn.fault := by
  intro drawn
  obtain ⟨-, hupdate⟩ | ⟨-, dark, hperform, hupdate⟩ | ⟨fault, hperform, hupdate⟩ :=
    s.update_cases surface now
  · rw [show drawn = _ from hupdate]
    exact .called _ rfl
  · have hdark : Surface.run surface [.setBacklight false] = (dark, none) := by
      rw [Surface.run, hperform]
      rfl
    rw [show drawn = _ from hupdate]
    exact .trans (.called _ hdark) (.called _ rfl)
  · rw [show drawn = _ from hupdate]
    refine .called [.setBacklight false] ?_
    rw [Surface.run, hperform]

/-- A frame ends with a refused call or behind the calls of a meter that does not fit. -/
theorem ends_refresh (p : Panel) (surface : σ) (now : Tick) :
    let drawn := p.refresh surface now
    Surface.Ends p.layout (min p.channels 16) surface drawn.surface drawn.fault := by
  intro drawn
  obtain ⟨ground, fault, hopening, hrefresh⟩ | ⟨ground, hopening, hrefresh⟩ :=
    p.refresh_cases surface now
  · rw [show drawn = _ from hrefresh]
    exact .called _ hopening
  · rw [show drawn = _ from hrefresh]
    refine .trans (.called _ hopening) ?_
    unfold compose
    dsimp only
    cases hframe : (Surface.run ground (p.frameCalls ground now)).2 with
    | some fault => exact .called _ (Prod.ext rfl hframe)
    | none =>
      have hrun : Surface.run ground (p.frameCalls ground now) =
          ((Surface.run ground (p.frameCalls ground now)).1, none) := Prod.ext rfl hframe
      rw [Option.none_or]
      cases hended : p.frameFault ground now with
      | none => exact .called _ hrun
      | some fault =>
        obtain ⟨-, hstrokes, rfl⟩ := frameFault_eq_some_iff.mp hended
        exact .overflows [] _ hrun fun hmeter => hstrokes (hmeter (p.monitor.query now).1)

/-- What ends a step. -/
theorem ends_drive (p : Panel) (surface : σ) (drive : Drive) :
    let drawn := p.drive surface drive
    Surface.Ends p.layout (min p.channels 16) surface drawn.surface drawn.fault := by
  cases drive with
  | operation o =>
    cases o with
    | receive | showMessage | dismiss | showImage | enterPowerSaving | query => exact .called [] rfl
    | exitPowerSaving => exact ends_exitPowerSaving _ _ p surface
    | update now => exact ends_update _ _ p.status surface now
    | refresh now => exact p.ends_refresh surface now
  | event e now =>
    show Surface.Ends _ _ surface (e.apply p surface now).surface (e.apply p surface now).fault
    unfold ScriptEvent.apply
    dsimp only
    split
    · exact ends_exitPowerSaving _ _ _ surface
    · exact .called [] rfl

/-! ## Runs -/

theorem layout_drive (p : Panel) (surface : σ) (drive : Drive) :
    (p.drive surface drive).state.layout = p.layout ∧
      (p.drive surface drive).state.channels = p.channels := by
  have hfittings := p.fittings_drive surface drive
  exact ⟨congrArg Fittings.layout hfittings, congrArg Fittings.channels hfittings⟩

/-- What ends a run. -/
theorem ends_run (p : Panel) (surface : σ) (drives : List Drive) :
    let driven := p.run surface drives
    Surface.Ends p.layout (min p.channels 16) surface driven.surface driven.fault := by
  induction drives generalizing p surface with
  | nil => exact .called [] rfl
  | cons drive drives ih =>
    have hstep := p.ends_drive surface drive
    obtain ⟨hlayout, hchannels⟩ := p.layout_drive surface drive
    obtain ⟨q, ground, fault, hdrive⟩ : ∃ q ground fault, p.drive surface drive =
      ⟨q, ground, fault⟩ := ⟨_, _, _, rfl⟩
    rw [hdrive] at hstep hlayout hchannels
    cases fault with
    | some fault =>
      rw [run_cons_of_fault hdrive]
      exact hstep
    | none =>
      have hrest := ih q ground
      rw [hlayout, hchannels] at hrest
      rw [run_cons_of_drive hdrive]
      exact hstep.trans hrest

/-! ## Character panels -/

theorem fault_draw_status_cells {lcd : CellPanel} (hcolumns : 0 < lcd.columns) (s : Status) :
    (s.draw lcd).fault = none := by
  refine Framed.run_of_performs fun call hcall => ?_
  obtain ⟨text, row, hrow, rfl⟩ := Status.exists_print_of_mem_calls hcall
  exact ⟨_, dif_pos ⟨hrow, hcolumns⟩⟩

/-- A meter over the whole of a character panel, which fits on it. -/
structure FitsCells (p : Panel) (lcd : CellPanel) : Prop where
  columns : 0 < lcd.columns
  rows : lcd.rows ≤ 2 ^ 24
  offset : p.layout.yOffset = 0
  height : p.layout.barHeight = lcd.rows
  meter : Meter.CellsFit p.layout lcd.columns (min p.channels 16)

namespace FitsCells

variable {p : Panel} {lcd : CellPanel}

theorem fault_drive (h : p.FitsCells lcd) (drive : Drive) : (p.drive lcd drive).fault = none := by
  cases drive with
  | operation o =>
    cases o with
    | receive | showMessage | dismiss | showImage | enterPowerSaving | query | exitPowerSaving =>
      rfl
    | update now =>
      show (p.status.update lcd now).fault = none
      obtain ⟨-, hupdate⟩ | ⟨-, dark, hperform, hupdate⟩ | ⟨fault, hperform, -⟩ :=
        p.status.update_cases lcd now
      · rw [hupdate]
        exact fault_draw_status_cells h.columns _
      · cases hperform
        have hcolumns : 0 < ({ lcd with backlight := false } : CellPanel).columns := h.columns
        rw [hupdate]
        exact fault_draw_status_cells hcolumns _
      · cases hperform
    | refresh now =>
      refine Option.eq_none_iff_forall_ne_some.mpr fun fault hfault => ?_
      obtain ⟨-, hmeter, -⟩ :=
        (fault_refresh_cells h.columns h.offset h.height h.rows fault).mp hfault
      exact hmeter h.meter
  | event e now =>
    show (e.apply p lcd now).fault = none
    unfold ScriptEvent.apply
    dsimp only
    split <;> rfl

theorem drive (h : p.FitsCells lcd) (drive : Drive) :
    (p.drive lcd drive).state.FitsCells (p.drive lcd drive).surface := by
  obtain ⟨hlayout, hchannels⟩ := p.layout_drive lcd drive
  obtain ⟨hcolumns, hrows⟩ := Prod.mk.inj (p.ends_drive lcd drive).fixture_eq
  refine ⟨?_, ?_, ?_, ?_, ?_⟩
  · rw [hcolumns]
    exact h.columns
  · rw [hrows]
    exact h.rows
  · rw [hlayout]
    exact h.offset
  · rw [hlayout, hrows]
    exact h.height
  · rw [hlayout, hchannels, hcolumns]
    exact h.meter

/-- Nothing ends a run on a character panel that the meter fits on. -/
theorem fault_run (h : p.FitsCells lcd) (drives : List Drive) :
    (p.run lcd drives).fault = none := by
  induction drives generalizing p lcd with
  | nil => rfl
  | cons drive drives ih =>
    rw [run_cons_of_drive (congrArg (Drawn.mk _ _) (h.fault_drive drive))]
    exact ih (h.drive drive)

end FitsCells

end Panel
end MidiPanel
