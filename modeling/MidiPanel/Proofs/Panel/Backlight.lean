import MidiPanel.Proofs.Panel.Frame
import MidiPanel.Proofs.Panel.Operation
import MidiPanel.Script.Player
import Mathlib.Data.List.Induction

/-!
# When the panel is dark

A panel goes dark when it enters power saving, and only leaving power saving lights it up again. A
message, an image, a dismissal or a second entry take the mode away from power saving and leave
the light off: the panel is dark exactly if it has been in power saving since it was last lit, not
exactly if it is. Where nothing of the kind interrupts power saving, the two are the same.

Results:
* `drive_effect`: what one step does to the overlay and the light.
* `dark_iff_unwoken`: when the panel is dark, over whole runs.
* `dark_behind_message`: dark without power saving.
-/

namespace MidiPanel

/-- What drives a panel: an operation, or an event of a script at a tick. -/
inductive Drive where
  | operation (operation : Operation)
  | event (event : ScriptEvent) (now : Tick)
  deriving DecidableEq

namespace Drive

/-- Lights the panel up. -/
def wakes : Drive → Bool
  | .operation o => o = .exitPowerSaving
  | .event e _ => e.powerSaving = some .exit

/-- Changes the overlay at once, and not by lighting the panel up. -/
def interrupts : Drive → Bool
  | .operation (.showMessage _ _ _) | .operation .dismiss | .operation (.showImage _ _)
  | .operation (.enterPowerSaving _) => true
  | .operation _ => false
  | .event e _ => e.powerSaving ≠ some .exit &&
    (e.message.isSome || e.clearSpinner || e.image.isSome || e.powerSaving.isSome)

/-- What a step that has met no fault does to overlay and light: it lights the panel up, it looks
at the timers, or it leaves the light alone and does not lead into power saving. -/
inductive Effect (drive : Drive) (s s' : Status) (light light' : Bool) : Prop
  | wake (wakes : drive.wakes = true) (idle : s'.overlay = .idle) (lit : light' = true)
  | look (wakes : drive.wakes = false) (now : Tick) (state : s' = s.afterTimers now)
      (light : light' = (light && !s.goesDark now))
  | quiet (wakes : drive.wakes = false) (light : light' = light)
      (state : s' = s ∨ (drive.interrupts = true ∧ s'.overlay ≠ .inPowerSaving))

namespace Effect

variable {drive : Drive} {s s' : Status} {light light' : Bool}

/-- Dark behind a step: in power saving then, or dark before and not woken. -/
theorem light_iff (h : Effect drive s s' light light')
    (hdark : s.overlay = .inPowerSaving → light = false) :
    light' = false ↔ s'.overlay = .inPowerSaving ∨ (drive.wakes = false ∧ light = false) := by
  cases h with
  | wake wakes idle lit => simp [wakes, idle, lit]
  | look wakes now state hlight =>
    rw [state, Status.afterTimers_eq_inPowerSaving_iff, hlight, wakes]
    cases s.goesDark now with
    | true => simp
    | false => simpa using hdark
  | quiet wakes hlight state =>
    rw [wakes, hlight]
    constructor
    · intro hoff
      exact .inr ⟨rfl, hoff⟩
    · rintro (hsaving | ⟨-, hoff⟩)
      · obtain rfl | ⟨-, hne⟩ := state
        · exact hdark hsaving
        · exact absurd hsaving hne
      · exact hoff

/-- Power saving stays, unless it is left. -/
theorem stays (h : Effect drive s s' light light') (hwakes : drive.wakes = false)
    (hinterrupts : drive.interrupts = false) (hs : s.overlay = .inPowerSaving) :
    s'.overlay = .inPowerSaving := by
  cases h with
  | wake wakes _ _ => exact absurd (hwakes.symm.trans wakes) Bool.false_ne_true
  | look _ now state _ =>
    rw [state]
    exact Status.afterTimers_eq_inPowerSaving_iff.mpr (.inl hs)
  | quiet _ _ state =>
    obtain rfl | ⟨hinterrupts', -⟩ := state
    · exact hs
    · exact absurd (hinterrupts.symm.trans hinterrupts') Bool.false_ne_true

end Effect

end Drive

/-! ## The frame -/

namespace Panel

theorem exists_of_andThen {σ : Type} {drawn : Drawn Panel σ} {next : Panel → σ → Drawn Panel σ}
    (h : (andThen drawn next).fault = none) :
    ∃ p surface, drawn = ⟨p, surface, none⟩ ∧ andThen drawn next = next p surface := by
  obtain ⟨p, surface, fault⟩ := drawn
  cases fault with
  | none => exact ⟨p, surface, rfl, rfl⟩
  | some fault => exact absurd h (Option.some_ne_none fault)

variable {σ : Type} [Surface σ]

/-- Performs an operation, or what happens at an event. -/
def drive (p : Panel) (surface : σ) : Drive → Drawn Panel σ
  | .operation o => p.operate surface o
  | .event e now => e.apply p surface now

/-- Drives a panel step after step, up to the first fault. -/
def run (p : Panel) (surface : σ) (drives : List Drive) : Drawn Panel σ :=
  drives.foldl (fun drawn drive => andThen drawn fun p surface => p.drive surface drive)
    ⟨p, surface, none⟩

theorem run_concat (p : Panel) (surface : σ) (drives : List Drive) (drive : Drive) :
    p.run surface (drives ++ [drive]) =
      andThen (p.run surface drives) fun p surface => p.drive surface drive := by
  unfold run
  rw [List.foldl_append]
  rfl

section

variable {p q : Panel} {surface ground : σ}

@[simp] theorem run_nil (p : Panel) (surface : σ) : p.run surface [] = ⟨p, surface, none⟩ := rfl

theorem run_cons_of_drive {drive : Drive} (h : p.drive surface drive = ⟨q, ground, none⟩)
    (drives : List Drive) : p.run surface (drive :: drives) = q.run ground drives := by
  unfold run
  rw [List.foldl_cons, ← h]
  rfl

theorem run_append_of_run {drives : List Drive} (h : p.run surface drives = ⟨q, ground, none⟩)
    (later : List Drive) : p.run surface (drives ++ later) = q.run ground later := by
  unfold run at h ⊢
  rw [List.foldl_append, h]

/-- Behind a fault nothing is done any more. -/
theorem run_append_of_fault {drives : List Drive} {fault : Fault}
    (h : p.run surface drives = ⟨q, ground, some fault⟩) (later : List Drive) :
    p.run surface (drives ++ later) = ⟨q, ground, some fault⟩ := by
  induction later using List.reverseRecOn with
  | nil => rwa [List.append_nil]
  | append_singleton later last ih =>
    rw [← List.append_assoc, run_concat, ih]
    rfl

theorem run_cons_of_fault {drive : Drive} {fault : Fault}
    (h : p.drive surface drive = ⟨q, ground, some fault⟩) (drives : List Drive) :
    p.run surface (drive :: drives) = ⟨q, ground, some fault⟩ := by
  have hfirst : p.run surface [drive] = ⟨q, ground, some fault⟩ := h
  exact run_append_of_fault hfirst drives

end

variable [Backlit σ]

theorem updateStatus_effect {p p' : Panel} {surface surface' : σ} {now : Tick}
    (h : p.updateStatus surface now = ⟨p', surface', none⟩) :
    p'.status = p.status.afterTimers now ∧
      Backlit.backlight surface' = (Backlit.backlight surface && !p.status.goesDark now) := by
  have hfault : (p.status.update surface now).fault = none := congrArg Drawn.fault h
  obtain rfl : _ = p' := congrArg Drawn.state h
  obtain rfl : _ = surface' := congrArg Drawn.surface h
  obtain hdone | ⟨-, -, hrefused⟩ := p.status.backlight_update surface now
  · exact hdone
  · exact absurd hfault hrefused

theorem exitPowerSaving_effect {p : Panel} {surface : σ}
    (h : (p.exitPowerSaving surface).fault = none) :
    (p.exitPowerSaving surface).state.status.overlay = .idle ∧
      Backlit.backlight (p.exitPowerSaving surface).surface = true := by
  obtain ⟨hstate, hlight⟩ | ⟨-, -, hrefused⟩ := p.status.backlight_exitPowerSaving surface
  · exact ⟨congrArg Status.overlay hstate, hlight⟩
  · exact absurd h hrefused

/-- What a frame does to overlay and light is what its update of the overlay does. -/
theorem refresh_effect {p : Panel} {surface : σ} {now : Tick}
    (h : (p.refresh surface now).fault = none) :
    (p.refresh surface now).state.status = p.status.afterTimers now ∧
      Backlit.backlight (p.refresh surface now).surface =
        (Backlit.backlight surface && !p.status.goesDark now) := by
  obtain ⟨-, -, hrefused⟩ | ⟨hstate, hlight⟩ := p.backlight_refresh surface now
  · exact absurd h hrefused
  · exact ⟨congrArg Panel.status hstate, hlight⟩

/-- What an event does before it makes a call: nothing to the overlay, or it interrupts. -/
theorem status_quietActions (e : ScriptEvent) (p : Panel) (now : Tick)
    (h : e.powerSaving ≠ some .exit) :
    (e.quietActions p now).status = p.status ∨
      ((Drive.event e now).interrupts = true ∧
        (e.quietActions p now).status.overlay ≠ .inPowerSaving) := by
  obtain ⟨atMs, midi, message, clearSpinner, image, powerSaving⟩ := e
  -- The last action on the overlay decides.
  match powerSaving, image, clearSpinner, message with
  | some .exit, _, _, _ => exact absurd rfl h
  | some .enter, _, _, _ => exact .inr ⟨by simp [Drive.interrupts], Overlay.noConfusion⟩
  | none, some id, _, _ => exact .inr ⟨by simp [Drive.interrupts], Overlay.noConfusion⟩
  | none, none, true, _ => exact .inr ⟨by simp [Drive.interrupts], Overlay.noConfusion⟩
  | none, none, false, some ⟨text, true⟩ => exact .inr ⟨rfl, Overlay.noConfusion⟩
  | none, none, false, some ⟨text, false⟩ => exact .inr ⟨rfl, Overlay.noConfusion⟩
  | none, none, false, none => cases midi <;> exact .inl rfl

/-- What one step does to overlay and light. -/
theorem drive_effect {p : Panel} {surface : σ} {drive : Drive}
    (h : (p.drive surface drive).fault = none) :
    drive.Effect p.status (p.drive surface drive).state.status (Backlit.backlight surface)
      (Backlit.backlight (p.drive surface drive).surface) := by
  cases drive with
  | operation o =>
    cases o with
    | receive | query => exact .quiet rfl rfl (.inl rfl)
    | showMessage text spinner now =>
      refine .quiet rfl rfl (.inr ⟨rfl, ?_⟩)
      cases spinner <;> exact Overlay.noConfusion
    | dismiss | showImage | enterPowerSaving =>
      exact .quiet rfl rfl (.inr ⟨rfl, Overlay.noConfusion⟩)
    | exitPowerSaving =>
      obtain ⟨hidle, hlit⟩ := exitPowerSaving_effect h
      exact .wake rfl hidle hlit
    | update now =>
      obtain ⟨hstate, hlight⟩ := updateStatus_effect (congrArg (Drawn.mk _ _) h)
      exact .look rfl now hstate hlight
    | refresh now =>
      obtain ⟨hstate, hlight⟩ := refresh_effect h
      exact .look rfl now hstate hlight
  | event e now =>
    by_cases hexit : e.powerSaving = some .exit
    · have hdrive : p.drive surface (.event e now) =
          (e.quietActions p now).exitPowerSaving surface := by
        show e.apply p surface now = _
        unfold ScriptEvent.apply
        rw [hexit]
      rw [hdrive] at h ⊢
      obtain ⟨hidle, hlit⟩ := exitPowerSaving_effect h
      exact .wake (decide_eq_true hexit) hidle hlit
    · have hdrive : p.drive surface (.event e now) = ⟨e.quietActions p now, surface, none⟩ := by
        show e.apply p surface now = _
        unfold ScriptEvent.apply
        dsimp only
        split
        next hsome => exact absurd hsome hexit
        next => rfl
      rw [hdrive]
      exact .quiet (decide_eq_false hexit) rfl (status_quietActions e p now hexit)

/-! ## Runs -/

/-- A property of some part of a list and of what is behind it, for a list and one more. -/
theorem exists_split_concat {α : Type} {P : List α → Prop} {Q : α → Prop} {xs : List α} {x : α} :
    (∃ before rest, xs ++ [x] = before ++ rest ∧ P before ∧ ∀ y ∈ rest, Q y) ↔
      P (xs ++ [x]) ∨ (Q x ∧ ∃ before rest, xs = before ++ rest ∧ P before ∧ ∀ y ∈ rest, Q y) := by
  constructor
  · rintro ⟨before, rest, hsplit, hbefore, hrest⟩
    obtain rfl | ⟨rest, y, rfl⟩ := List.eq_nil_or_concat rest
    · rw [hsplit, List.append_nil]
      exact .inl hbefore
    · rw [List.concat_eq_append] at hsplit hrest
      rw [← List.append_assoc] at hsplit
      obtain ⟨hxs, hlast⟩ := List.append_inj' hsplit rfl
      obtain rfl : x = y := List.singleton_inj.mp hlast
      refine .inr ⟨hrest x (by simp), before, rest, hxs, hbefore, ?_⟩
      intro y hy
      exact hrest y (List.mem_append_left _ hy)
  · rintro (hall | ⟨hx, before, rest, rfl, hbefore, hrest⟩)
    · exact ⟨xs ++ [x], [], by simp, hall, by simp⟩
    · refine ⟨before, rest ++ [x], by simp, hbefore, ?_⟩
      intro y hy
      rcases List.mem_append.mp hy with hy | hy
      · exact hrest y hy
      · rw [List.mem_singleton.mp hy]
        exact hx

/-- The last step of a run without a fault. -/
theorem effect_of_run_concat {p : Panel} {surface : σ} {drives : List Drive} {drive : Drive}
    (h : (p.run surface (drives ++ [drive])).fault = none) :
    (p.run surface drives).fault = none ∧
      drive.Effect (p.run surface drives).state.status
        (p.run surface (drives ++ [drive])).state.status
        (Backlit.backlight (p.run surface drives).surface)
        (Backlit.backlight (p.run surface (drives ++ [drive])).surface) := by
  rw [run_concat] at h ⊢
  obtain ⟨q, surface', hrun, hnext⟩ := exists_of_andThen h
  rw [hnext] at h ⊢
  rw [hrun]
  exact ⟨rfl, drive_effect h⟩

section

variable {p : Panel} {surface : σ} {drives : List Drive}

theorem run_dark_iff (hlit : Backlit.backlight surface = true)
    (hawake : p.status.overlay ≠ .inPowerSaving) (hfault : (p.run surface drives).fault = none) :
    Backlit.backlight (p.run surface drives).surface = false ↔
      ∃ before rest, drives = before ++ rest ∧
        (p.run surface before).state.status.overlay = .inPowerSaving ∧
        ∀ drive ∈ rest, drive.wakes = false := by
  induction drives using List.reverseRecOn with
  | nil =>
    constructor
    · intro hoff
      exact absurd (hoff.symm.trans hlit) Bool.false_ne_true
    · rintro ⟨before, rest, hsplit, hbefore, -⟩
      obtain ⟨rfl, -⟩ := List.append_eq_nil_iff.mp hsplit.symm
      exact absurd hbefore hawake
  | append_singleton drives drive ih =>
    obtain ⟨hinit, heffect⟩ := effect_of_run_concat hfault
    have hdark : (p.run surface drives).state.status.overlay = .inPowerSaving →
        Backlit.backlight (p.run surface drives).surface = false := by
      intro hsaving
      exact (ih hinit).mpr ⟨drives, [], by simp, hsaving, by simp⟩
    rw [heffect.light_iff hdark, exists_split_concat, ih hinit]

theorem run_dark_iff_of_uninterrupted (hlit : Backlit.backlight surface = true)
    (hawake : p.status.overlay ≠ .inPowerSaving) (hfault : (p.run surface drives).fault = none)
    (hcalm : ∀ before drive rest, drives = before ++ drive :: rest →
      (p.run surface before).state.status.overlay = .inPowerSaving → drive.interrupts = false) :
    Backlit.backlight (p.run surface drives).surface = false ↔
      (p.run surface drives).state.status.overlay = .inPowerSaving := by
  induction drives using List.reverseRecOn with
  | nil =>
    constructor
    · intro hoff
      exact absurd (hoff.symm.trans hlit) Bool.false_ne_true
    · intro hsaving
      exact absurd hsaving hawake
  | append_singleton drives drive ih =>
    obtain ⟨hinit, heffect⟩ := effect_of_run_concat hfault
    have hdark := ih hinit fun before later rest hsplit =>
      hcalm before later (rest ++ [drive]) (by rw [hsplit, List.append_assoc, List.cons_append])
    rw [heffect.light_iff hdark.mpr]
    constructor
    · rintro (hsaving | ⟨hwakes, hoff⟩)
      · exact hsaving
      · have hsaving := hdark.mp hoff
        exact heffect.stays hwakes (hcalm drives drive [] rfl hsaving) hsaving
    · exact .inl

end

/-- Over every run of a fresh panel without a fault, on a surface whose light is on at first and
touched by nothing else: the light is off exactly if the panel has been in power saving at some
time and nothing has lit it up since. If power saving is never interrupted, that is exactly if it
is in power saving. -/
theorem dark_iff_unwoken (envelope : EnvelopeTimings) (overlay : OverlayTimings)
    (layout : MeterLayout) (channels : Nat) {surface : σ} {drives : List Drive}
    (hlit : Backlit.backlight surface = true)
    (hfault : ((new envelope overlay layout channels).run surface drives).fault = none) :
    let panel := new envelope overlay layout channels
    (Backlit.backlight (panel.run surface drives).surface = false ↔
      ∃ before rest, drives = before ++ rest ∧
        (panel.run surface before).state.status.overlay = .inPowerSaving ∧
        ∀ drive ∈ rest, drive.wakes = false) ∧
    ((∀ before drive rest, drives = before ++ drive :: rest →
        (panel.run surface before).state.status.overlay = .inPowerSaving →
          drive.interrupts = false) →
      (Backlit.backlight (panel.run surface drives).surface = false ↔
        (panel.run surface drives).state.status.overlay = .inPowerSaving)) := by
  intro panel
  have hawake : panel.status.overlay ≠ .inPowerSaving := Overlay.noConfusion
  exact ⟨run_dark_iff hlit hawake hfault, run_dark_iff_of_uninterrupted hlit hawake hfault⟩

/-- A panel that is sent to sleep, and an image that a script shows on it then. -/
theorem dark_iff_unwoken_image :
    let surface : CellPanel := ⟨20, 2, .replicate 2 (.replicate 20 CellPanel.space), true⟩
    let drives : List Drive := [.operation (.enterPowerSaving 0), .operation (.refresh 3000000),
      .event ⟨4000, none, none, false, some 7, none⟩ 4000000, .operation (.update 5000000)]
    Backlit.backlight ((new .standard .standard (.forSurface surface) 16).run surface
      drives).surface = false := by
  intro surface drives
  have hfault : ((new .standard .standard (.forSurface surface) 16).run surface
      drives).fault = none := by decide +kernel
  refine (dark_iff_unwoken .standard .standard (.forSurface surface) 16 rfl hfault).1.mpr ?_
  exact ⟨drives.take 2, drives.drop 2, rfl, by decide +kernel, by decide⟩

/-- Dark without power saving: a message while the panel sleeps, and the frame that shows it. -/
theorem dark_behind_message :
    let surface : CellPanel := ⟨20, 2, .replicate 2 (.replicate 20 CellPanel.space), true⟩
    let drawn := (forSurface surface).run surface [.operation (.enterPowerSaving 0),
      .operation (.refresh 3000000), .operation (.showMessage "Hello" false 4000000),
      .operation (.refresh 4000000)]
    Backlit.backlight surface = true ∧ drawn.fault = none ∧
      Backlit.backlight drawn.surface = false ∧ drawn.state.status.overlay.mode = .message := by
  decide +kernel

end Panel
end MidiPanel
