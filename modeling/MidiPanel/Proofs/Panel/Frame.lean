import MidiPanel.Panel
import MidiPanel.Proofs.Meter.Calls
import MidiPanel.Proofs.Overlay.Request
import MidiPanel.Proofs.Surface.Framed

/-!
# What a frame is made of

A frame opens with blanking the surface, and with the light going off if it goes off with this
frame. What is drawn then is the meter or the overlay, as the overlay is once its timers have been
looked at. A frame that is refused its opening leaves the panel as it was; behind that the panel has
moved on, however far the drawing comes.

Results:
* `refresh_cases`: a frame as one list of calls.
* `refresh_composition`: the calls of a frame, those of one that fails, and what they leave behind.
-/

namespace MidiPanel

/-- Whether a call is one of those that come before anything is drawn. -/
def Call.isOpening : Call → Bool
  | .clear | .setBacklight _ => true
  | _ => false

namespace Panel

/-! ## The calls of a frame -/

/-- The calls before anything is drawn. -/
def openingCalls (p : Panel) (now : Tick) : List Call :=
  .clear :: if p.status.goesDark now then [.setBacklight false] else []

/-- The strokes that draw the meter. -/
def meterStrokes (p : Panel) (kind : PanelKind) (width : Nat) (now : Tick) : List Stroke :=
  let readings := (p.monitor.query now).1.toList
  Meter.strokes kind width p.layout (readings.map Reading.level) (readings.map Reading.peak)
    (min p.channels 16)

/-- The calls that draw a frame: those of the meter up to an overflow, or those of the overlay that
is up. -/
def bodyCalls (p : Panel) (kind : PanelKind) (width height : Nat) (now : Tick) : List Call :=
  let status := p.status.afterTimers now
  if status.overlay = .idle then Stroke.callsOf (p.meterStrokes kind width now)
  else status.calls kind height

/-- The overflow behind the calls that draw a frame, if there is one. -/
def bodyFault (p : Panel) (kind : PanelKind) (width : Nat) (now : Tick) : Option Fault :=
  if (p.status.afterTimers now).overlay = .idle then Stroke.faultOf (p.meterStrokes kind width now)
  else none

/-- The panel behind a frame. -/
def composed (p : Panel) (now : Tick) : Panel :=
  let status := p.status.afterTimers now
  { p with
    status := status
    monitor := if status.overlay = .idle then (p.monitor.query now).2 else p.monitor }

theorem isBacklight_of_mem_lights {p : Panel} {now : Tick} :
    ∀ call ∈ (if p.status.goesDark now then [Call.setBacklight false] else []),
      call.isBacklight = true := by
  intro call h
  split at h
  · rw [List.mem_singleton.mp h]
    rfl
  · cases h

theorem isOpening_of_mem_openingCalls {p : Panel} {now : Tick} {call : Call}
    (h : call ∈ p.openingCalls now) : call.isOpening = true := by
  rcases List.mem_cons.mp h with rfl | hlight
  · rfl
  · have hbacklight := isBacklight_of_mem_lights call hlight
    cases call <;> first | rfl | cases hbacklight

theorem isMeter_of_mem_callsOf {p : Panel} {kind : PanelKind} {width : Nat} {now : Tick}
    {call : Call} (h : call ∈ Stroke.callsOf (p.meterStrokes kind width now)) :
    call.isMeter = true :=
  Meter.isMeter_of_mem_callsOf h

theorem isMeter_or_isOverlay_of_mem_bodyCalls {p : Panel} {kind : PanelKind} {width height : Nat}
    {now : Tick} {call : Call} (h : call ∈ p.bodyCalls kind width height now) :
    call.isMeter = true ∨ call.isOverlay = true := by
  unfold bodyCalls at h
  dsimp only at h
  split at h
  · exact .inl (isMeter_of_mem_callsOf h)
  · exact .inr (Status.isOverlay_calls h)

section

variable {σ : Type}

@[simp] theorem andThen_none (p : Panel) (surface : σ) (next : Panel → σ → Drawn Panel σ) :
    andThen ⟨p, surface, none⟩ next = next p surface := rfl

@[simp] theorem andThen_some (p : Panel) (surface : σ) (fault : Fault)
    (next : Panel → σ → Drawn Panel σ) :
    andThen ⟨p, surface, some fault⟩ next = ⟨p, surface, some fault⟩ := rfl

theorem andThen_congr {drawn : Drawn Panel σ} {next next' : Panel → σ → Drawn Panel σ}
    (h : next drawn.state drawn.surface = next' drawn.state drawn.surface) :
    andThen drawn next = andThen drawn next' := by
  unfold andThen
  split
  · exact h
  · rfl

end

variable {σ : Type} [Surface σ]

/-- The overflow that ends a frame on a surface, if none of its calls is refused. -/
def frameFault (p : Panel) (surface : σ) (now : Tick) : Option Fault :=
  p.bodyFault (Surface.kind surface) (Surface.width surface) now

/-- The calls of a frame on a surface, its opening apart. A frame that overflows is not shown. -/
def frameCalls (p : Panel) (surface : σ) (now : Tick) : List Call :=
  p.bodyCalls (Surface.kind surface) (Surface.width surface) (Surface.height surface) now ++
    if p.frameFault surface now = none then [.flush] else []

/-- What a frame leaves behind its opening. -/
def compose (p : Panel) (ground : σ) (now : Tick) : Drawn Panel σ :=
  let drawn := Surface.run ground (p.frameCalls ground now)
  ⟨p.composed now, drawn.1, drawn.2.or (p.frameFault ground now)⟩

theorem mem_frameCalls {p : Panel} {surface : σ} {now : Tick} {call : Call}
    (h : call ∈ p.frameCalls surface now) :
    call ∈ p.bodyCalls (Surface.kind surface) (Surface.width surface) (Surface.height surface)
      now ∨ call = .flush := by
  refine (List.mem_append.mp h).imp_right fun hflush => ?_
  split at hflush
  · exact List.mem_singleton.mp hflush
  · cases hflush

/-- A frame overflows if it shows the meter, and words do not hold all numbers of the meter. -/
theorem frameFault_eq_some_iff {p : Panel} {surface : σ} {now : Tick} {fault : Fault} :
    p.frameFault surface now = some fault ↔
      (p.status.afterTimers now).overlay = .idle ∧
        (¬∀ stroke ∈ p.meterStrokes (Surface.kind surface) (Surface.width surface) now,
          stroke.fits = true) ∧ fault = .overflow := by
  unfold frameFault bodyFault
  split
  next hidle => rw [Stroke.faultOf_eq_some_iff, and_iff_right hidle, and_comm]
  next hoverlay => exact iff_of_false (Option.some_ne_none fault).symm fun h => hoverlay h.1

theorem frameCalls_of_fits {p : Panel} {surface : σ} {now : Tick}
    (h : p.frameFault surface now = none) :
    p.frameCalls surface now =
      p.bodyCalls (Surface.kind surface) (Surface.width surface) (Surface.height surface) now ++
        [.flush] := by
  unfold frameCalls
  rw [if_pos h]

/-- What is drawn behind the opening of a frame neither blanks it nor switches the light. -/
theorem isOpening_of_mem_frameCalls {p : Panel} {surface : σ} {now : Tick} {call : Call}
    (h : call ∈ p.frameCalls surface now) : call.isOpening = false := by
  rcases mem_frameCalls h with hbody | rfl
  · have hdraws := isMeter_or_isOverlay_of_mem_bodyCalls hbody
    cases call <;> first | rfl | simp [Call.isMeter, Call.isOverlay] at hdraws
  · rfl

theorem isBacklight_of_mem_frameCalls {p : Panel} {surface : σ} {now : Tick} {call : Call}
    (h : call ∈ p.frameCalls surface now) : call.isBacklight = false := by
  have hopening := isOpening_of_mem_frameCalls h
  cases call <;> first | rfl | cases hopening

/-- A meter of at most sixteen channels is drawn from the readings of all of them. -/
theorem drawLevels_draw (p : Panel) (surface : σ) (layout : MeterLayout) {channels : Nat}
    (h : channels ≤ 16) (now : Tick) :
    let readings := (p.monitor.query now).1.toList
    let drawn := Stroke.draw surface (Meter.strokes (Surface.kind surface) (Surface.width surface)
      layout (readings.map Reading.level) (readings.map Reading.peak) channels)
    (p.drawLevels surface layout channels now).surface = drawn.1 ∧
      (p.drawLevels surface layout channels now).fault = drawn.2 := by
  unfold drawLevels
  rw [Nat.min_eq_left h]
  exact ⟨rfl, rfl⟩

theorem drawLevels_eq (p : Panel) (surface : σ) (now : Tick) :
    p.drawLevels surface p.layout p.channels now =
      let strokes := p.meterStrokes (Surface.kind surface) (Surface.width surface) now
      let drawn := Surface.run surface (Stroke.callsOf strokes)
      ⟨{ p with monitor := (p.monitor.query now).2 }, drawn.1,
        drawn.2.or (Stroke.faultOf strokes)⟩ := by
  unfold drawLevels
  dsimp only
  rw [Stroke.draw_eq]
  rfl

/-- Calls behind others, unless those have ended in a fault. -/
theorem andThen_draw (p : Panel) (surface : σ) (calls rest : List Call) (fault : Option Fault) :
    let all := calls ++ if fault = none then rest else []
    andThen ⟨p, (Surface.run surface calls).1, (Surface.run surface calls).2.or fault⟩
        (fun p surface => p.draw surface rest) =
      ⟨p, (Surface.run surface all).1, (Surface.run surface all).2.or fault⟩ := by
  intro all
  cases fault with
  | none =>
    rw [show all = calls ++ rest from rfl, Surface.run_append]
    unfold andThen draw
    obtain ⟨surface, fault⟩ := Surface.run surface calls
    cases fault with
    | none => simp
    | some fault => rfl
  | some fault =>
    rw [show all = calls from List.append_nil calls]
    obtain ⟨surface, fault'⟩ := Surface.run surface calls
    cases fault' <;> rfl

/-- Overlay or meter, and showing them: a frame behind its opening. -/
theorem andThen_status_draw (p : Panel) (ground : σ) (now : Tick) :
    let drawn := (p.status.afterTimers now).draw ground
    (andThen ⟨{ p with status := drawn.state }, drawn.surface, drawn.fault⟩ fun p surface =>
      andThen (if p.status.overlay = .idle then p.drawLevels surface p.layout p.channels now
        else ⟨p, surface, none⟩) fun p surface => p.draw surface [.flush]) =
      p.compose ground now := by
  intro drawn
  unfold compose frameCalls frameFault bodyCalls bodyFault composed
  dsimp only
  by_cases hidle : (p.status.afterTimers now).overlay = .idle
  · have hdrawn : drawn = ⟨p.status.afterTimers now, ground, none⟩ := by
      show Drawn.mk _ _ _ = _
      unfold Status.calls
      rw [hidle]
      rfl
    simp only [hdrawn, hidle, if_true, andThen_none]
    rw [drawLevels_eq]
    exact andThen_draw ⟨(p.monitor.query now).2, p.status.afterTimers now, p.layout, p.channels⟩
      ground _ [.flush] _
  · have hdraw := andThen_draw { p with status := p.status.afterTimers now } ground
      ((p.status.afterTimers now).calls (Surface.kind ground) (Surface.height ground)) [.flush] none
    simp only [hidle, if_false, if_true, Option.or_none] at hdraw ⊢
    refine Eq.trans (andThen_congr ?_) hdraw
    have hstate : drawn.state.overlay ≠ .idle := hidle
    dsimp only
    rw [if_neg hstate, andThen_none]

/-- A frame is refused its opening and changes nothing, or moves the panel on and draws. -/
theorem refresh_cases (p : Panel) (surface : σ) (now : Tick) :
    (∃ ground fault, Surface.run surface (p.openingCalls now) = (ground, some fault) ∧
      p.refresh surface now = ⟨p, ground, some fault⟩) ∨
    (∃ ground, Surface.run surface (p.openingCalls now) = (ground, none) ∧
      p.refresh surface now = p.compose ground now) := by
  unfold refresh openingCalls
  cases hclear : Surface.perform surface .clear with
  | error fault =>
    have hrun (rest : List Call) : Surface.run surface (.clear :: rest) =
        (Surface.afterFault surface .clear, some fault) := by
      rw [Surface.run, hclear]
    refine .inl ⟨Surface.afterFault surface .clear, fault, hrun _, ?_⟩
    rw [draw, hrun, andThen_some]
  | ok blank =>
    have hrun (rest : List Call) :
        Surface.run surface (.clear :: rest) = Surface.run blank rest := by
      rw [Surface.run, hclear]
    rw [draw, hrun, hrun]
    dsimp only [Surface.run]
    rw [andThen_none, updateStatus, Status.update]
    cases p.status.goesDark now with
    | false => exact .inr ⟨blank, rfl, p.andThen_status_draw blank now⟩
    | true =>
      cases hlight : Surface.perform blank (.setBacklight false) with
      | ok dark =>
        refine .inr ⟨dark, ?_, p.andThen_status_draw dark now⟩
        rw [if_pos rfl, Surface.run, hlight]
        rfl
      | error fault =>
        refine .inl ⟨Surface.afterFault blank (.setBacklight false), fault, ?_, rfl⟩
        rw [if_pos rfl, Surface.run, hlight]

theorem refresh_of_opening {p : Panel} {surface ground : σ} {now : Tick}
    (h : Surface.run surface (p.openingCalls now) = (ground, none)) :
    p.refresh surface now = p.compose ground now := by
  obtain ⟨ground', fault, hrefused, -⟩ | ⟨ground', hopening, hrefresh⟩ :=
    p.refresh_cases surface now
  · cases h.symm.trans hrefused
  · cases h.symm.trans hopening
    exact hrefresh

theorem exists_opening_of_refresh {p : Panel} {surface : σ} {now : Tick}
    (h : (p.refresh surface now).fault = none) :
    ∃ ground, Surface.run surface (p.openingCalls now) = (ground, none) := by
  obtain ⟨ground, fault, -, hrefresh⟩ | ⟨ground, hopening, -⟩ := p.refresh_cases surface now
  · rw [hrefresh] at h
    cases h
  · exact ⟨ground, hopening⟩

theorem state_refresh {p : Panel} {surface : σ} {now : Tick}
    (h : (p.refresh surface now).fault = none) :
    (p.refresh surface now).state = p.composed now := by
  obtain ⟨ground, hopening⟩ := exists_opening_of_refresh h
  rw [refresh_of_opening hopening]
  rfl

/-! ## The light -/

/-- The opening of a frame turns the light off if it comes to its end in a frame that goes dark. -/
theorem backlight_opening [Backlit σ] {p : Panel} {surface ground : σ} {fault : Option Fault}
    {now : Tick} (h : Surface.run surface (p.openingCalls now) = (ground, fault)) :
    Backlit.backlight ground =
      (Backlit.backlight surface && !(p.status.goesDark now && fault.isNone)) := by
  unfold openingCalls Surface.run at h
  cases hclear : Surface.perform surface .clear with
  | error fault' =>
    rw [hclear] at h
    cases h
    rw [Backlit.backlight_of_error hclear]
    simp
  | ok blank =>
    have hblank : Backlit.backlight blank = Backlit.backlight surface :=
      Backlit.backlight_of_ok hclear
    rw [hclear] at h
    cases hdark : p.status.goesDark now with
    | false =>
      rw [hdark] at h
      cases h
      rw [hblank]
      simp
    | true =>
      rw [hdark] at h
      dsimp only at h
      rw [if_pos rfl] at h
      unfold Surface.run at h
      cases hlight : Surface.perform blank (.setBacklight false) with
      | error fault' =>
        rw [hlight] at h
        cases h
        rw [Backlit.backlight_of_error hlight, hblank]
        simp
      | ok dark =>
        rw [hlight] at h
        cases h
        rw [Backlit.backlight_of_ok hlight]
        simp [Call.lightAfter]

/-- A frame leaves panel and light alone, or moves the panel on and turns the light off if it goes
dark. -/
theorem backlight_refresh [Backlit σ] (p : Panel) (surface : σ) (now : Tick) :
    let drawn := p.refresh surface now
    (drawn.state = p ∧ Backlit.backlight drawn.surface = Backlit.backlight surface ∧
      drawn.fault ≠ none) ∨
    (drawn.state = p.composed now ∧
      Backlit.backlight drawn.surface =
        (Backlit.backlight surface && !p.status.goesDark now)) := by
  intro drawn
  obtain ⟨ground, fault, hopening, hrefresh⟩ | ⟨ground, hopening, hrefresh⟩ :=
    p.refresh_cases surface now
  · have hdrawn : drawn = ⟨p, ground, some fault⟩ := hrefresh
    have hlight := backlight_opening hopening
    rw [hdrawn]
    exact .inl ⟨rfl, by simpa using hlight, Option.some_ne_none fault⟩
  · have hlight := backlight_opening hopening
    refine .inr ⟨congrArg Drawn.state hrefresh, ?_⟩
    calc Backlit.backlight drawn.surface
        = Backlit.backlight (Surface.run ground (p.frameCalls ground now)).1 :=
          congrArg (fun drawn => Backlit.backlight drawn.surface) hrefresh
      _ = Backlit.backlight ground :=
          Backlit.run (fun call => isBacklight_of_mem_frameCalls) ground
      _ = _ := by simpa using hlight

/-- The calls of a frame none of whose calls is refused, whether it overflows behind them or not. -/
theorem calls_refresh {p : Panel} {surface : σ} {now : Tick} {ground : Traced σ}
    (hopening : Surface.run (⟨surface, []⟩ : Traced σ) (p.openingCalls now) = (ground, none))
    (hframe : (Surface.run ground (p.frameCalls ground now)).2 = none) :
    (p.refresh (⟨surface, []⟩ : Traced σ) now).calls =
      p.openingCalls now ++ p.frameCalls ground now := by
  have hground := Traced.calls_run (congrArg Prod.snd hopening)
  rw [hopening] at hground
  rw [refresh_of_opening hopening]
  show (Surface.run ground _).1.calls.reverse = _
  rw [Traced.calls_run hframe, hground]
  simp

theorem frameFault_congr [Framed σ] {s t : σ} (h : Framed.fixture s = Framed.fixture t) (p : Panel)
    (now : Tick) : p.frameFault s now = p.frameFault t now := by
  obtain ⟨hkind, hwidth, -⟩ := Framed.geometry_congr h
  unfold frameFault
  rw [hkind, hwidth]

theorem frameCalls_congr [Framed σ] {s t : σ} (h : Framed.fixture s = Framed.fixture t) (p : Panel)
    (now : Tick) : p.frameCalls s now = p.frameCalls t now := by
  obtain ⟨hkind, hwidth, hheight⟩ := Framed.geometry_congr h
  unfold frameCalls
  rw [hkind, hwidth, hheight, frameFault_congr h]

/-- Two panels that draw alike show alike behind the openings of their frames, whatever was shown
before. -/
theorem refresh_congr [Framed σ] {s t ground ground' : σ}
    (h : Framed.fixture s = Framed.fixture t) {p q : Panel} {now : Tick}
    (hs : Surface.run s (p.openingCalls now) = (ground, none))
    (ht : Surface.run t (q.openingCalls now) = (ground', none))
    (hbody : ∀ kind width height, q.bodyCalls kind width height now =
      p.bodyCalls kind width height now)
    (hfault : ∀ kind width, q.bodyFault kind width now = p.bodyFault kind width now) :
    (q.refresh t now).fault = (p.refresh s now).fault ∧
      ((p.refresh s now).fault = none →
        Framed.frame (q.refresh t now).surface = Framed.frame (p.refresh s now).surface) := by
  have hfixture : Framed.fixture ground = Framed.fixture ground' :=
    (Framed.fixture_of_run hs).trans (h.trans (Framed.fixture_of_run ht).symm)
  have hblank : Framed.frame ground = Framed.frame ground' :=
    Framed.blanked_congr h isBacklight_of_mem_lights isBacklight_of_mem_lights hs ht
  have hended : q.frameFault ground' now = p.frameFault ground now := by
    rw [frameFault_congr hfixture p now]
    exact hfault _ _
  have hcalls : q.frameCalls ground' now = p.frameCalls ground now := by
    rw [frameCalls_congr hfixture p now]
    unfold frameCalls
    rw [hbody, hended, frameFault_congr hfixture p now]
  obtain ⟨hsame, hshown⟩ := Framed.run_congr hfixture (p.frameCalls ground now)
  rw [refresh_of_opening hs, refresh_of_opening ht]
  unfold compose
  dsimp only
  rw [hcalls, hended, hsame]
  exact ⟨rfl, fun hnone => (hshown (Option.or_eq_none_iff.mp hnone).1 hblank).symm⟩

/-- The fault of a frame that comes to the end of its opening. -/
theorem fault_refresh [Framed σ] {p : Panel} {surface : σ} {now : Tick}
    (h : (Surface.run surface (p.openingCalls now)).2 = none) :
    (p.refresh surface now).fault =
      (Surface.run surface (p.frameCalls surface now)).2.or (p.frameFault surface now) := by
  obtain ⟨ground, hopening⟩ : ∃ ground, Surface.run surface (p.openingCalls now) = (ground, none) :=
    ⟨_, Prod.ext rfl h⟩
  have hfixture := Framed.fixture_of_run hopening
  rw [refresh_of_opening hopening, ← frameCalls_congr hfixture p now,
    ← frameFault_congr hfixture p now]
  exact congrArg (Option.or · _) (Framed.run_congr hfixture.symm _).1

/-- The calls of a frame, of one that has failed too. -/
theorem mem_calls_refresh [Framed σ] {p : Panel} {surface : σ} {now : Tick} {call : Call}
    (h : call ∈ (p.refresh (⟨surface, []⟩ : Traced σ) now).calls) :
    call ∈ p.openingCalls now ∨ call ∈ p.frameCalls surface now := by
  have hopening {ground : Traced σ} {fault : Option Fault} (hmem : call ∈ ground.calls)
      (hrun : Surface.run (⟨surface, []⟩ : Traced σ) (p.openingCalls now) = (ground, fault)) :
      call ∈ p.openingCalls now := by
    have hmade : call ∈ (Surface.run (⟨surface, []⟩ : Traced σ) (p.openingCalls now)).1.calls := by
      rw [hrun]
      exact hmem
    exact (Traced.mem_of_mem_run hmade).resolve_right List.not_mem_nil
  obtain ⟨ground, fault, hrun, hrefresh⟩ | ⟨ground, hrun, hrefresh⟩ :=
    p.refresh_cases (⟨surface, []⟩ : Traced σ) now
  · rw [hrefresh] at h
    exact .inl (hopening (List.mem_reverse.mp h) hrun)
  · rw [hrefresh] at h
    rcases Traced.mem_of_mem_run (List.mem_reverse.mp h) with hframe | hground
    · have hplain := Traced.run_plain hrun
      have hfixture := Framed.fixture_of_run hplain
      rw [← frameCalls_congr hfixture p now]
      exact .inr hframe
    · exact .inl (hopening hground hrun)

/-- What is shown behind a frame does not depend on what was shown before it. -/
theorem frame_refresh_congr [Framed σ] {s t : σ} (h : Framed.fixture s = Framed.fixture t)
    {p : Panel} {now : Tick} (hfault : (p.refresh s now).fault = none) :
    (p.refresh t now).fault = none ∧
      Framed.frame (p.refresh t now).surface = Framed.frame (p.refresh s now).surface := by
  obtain ⟨ground, hs⟩ := exists_opening_of_refresh hfault
  have ht : Surface.run t (p.openingCalls now) =
      ((Surface.run t (p.openingCalls now)).1, none) := by
    refine Prod.ext rfl ?_
    rw [(Framed.run_congr h _).1, hs]
  obtain ⟨hsame, hshown⟩ := refresh_congr h hs ht (fun _ _ _ => rfl) (fun _ _ => rfl)
  exact ⟨hsame.trans hfault, hshown hfault⟩

end Panel
end MidiPanel
