import MidiPanel.CommandLine.Run
import MidiPanel.Proofs.Monitor.Envelope
import MidiPanel.Proofs.Settings.Loaded
import MidiPanel.Proofs.Surface.Bitmap
import MidiPanel.Proofs.Surface.Filling

/-!
# Usable settings

The rules look at what is set, the program at what is in effect, where a default stands for all that
is unset. Each default obeys the rule for its setting, whatever kind of panel it is for, so that the
rules find nothing exactly if every setting in effect is usable.

From settings that have been loaded a panel can be made, its name plate registered and a meter laid
out, and nothing that a replay divides by is zero.

Results:
* `isSetTo_eq_getD`, `bind_eq_none_iff_getD`: settings and sections whose defaults obey the rules.
* `violation?_eq_none_iff`: the rules and the settings in effect.
* `CommandLine.exists_pixelPanel`, `CellPanel.new_cases`: panels of either kind.
* `validates_iff_usable`: all of it, for settings that have been loaded.
-/

namespace MidiPanel

namespace Settings

variable {s : Settings}

/-- Every setting in effect is usable. -/
structure Usable (s : Settings) : Prop where
  width : 1 ≤ s.displayInEffect.sizeInEffect.1
  height : 1 ≤ s.displayInEffect.sizeInEffect.2
  channels : 1 ≤ s.displayInEffect.channelsInEffect ∧ s.displayInEffect.channelsInEffect ≤ 16
  fps : 1 ≤ s.displayInEffect.fpsInEffect
  envelope : s.envelopeTimings.Usable
  displayMs : 1 ≤ s.overlayTimings.displayMs
  frameMs : 1 ≤ s.overlayTimings.frameMs

/-! ## Defaults -/

/-- A setting whose default is good is set to something bad if what is in effect is bad. -/
theorem isSetTo_eq_getD {α : Type} {bad : α → Bool} {standard : α} (h : bad standard = false)
    (setting : Option α) : isSetTo setting bad = bad (setting.getD standard) := by
  cases setting with
  | none => exact h.symm
  | some x => rfl

/-- The rules for a section find nothing in one that is missing, nor in one with nothing set. -/
theorem bind_eq_none_iff_getD {α : Type} {rules : α → Option Violation} {unset : α}
    (h : rules unset = none) (part : Option α) :
    part.bind rules = none ↔ rules (part.getD unset) = none := by
  cases part with
  | none => exact iff_of_true rfl h
  | some x => rfl

theorem rule_eq_none_iff {violated : Bool} {violation : Violation} {others : Option Violation} :
    (if violated then some violation else others) = none ↔ violated = false ∧ others = none := by
  cases violated <;> simp

theorem isUselessTime_eq_false_iff {x : Single} : isUselessTime x = false ↔ x.IsPositive := by
  unfold isUselessTime Single.IsPositive
  simp

/-! ## Sections -/

theorem displayViolation?_eq_none_iff {d : DisplaySettings} :
    displayViolation? d = none ↔ (1 ≤ d.sizeInEffect.1 ∧ 1 ≤ d.sizeInEffect.2) ∧
      (1 ≤ d.channelsInEffect ∧ d.channelsInEffect ≤ 16) ∧ 1 ≤ d.fpsInEffect := by
  have hwidth : isSetTo d.width (· = 0) = decide (d.sizeInEffect.1 = 0) :=
    isSetTo_eq_getD (by cases d.kindInEffect <;> rfl) d.width
  have hheight : isSetTo d.height (· = 0) = decide (d.sizeInEffect.2 = 0) :=
    isSetTo_eq_getD (by cases d.kindInEffect <;> rfl) d.height
  have hchannels : isSetTo d.channels (fun n => n = 0 || 16 < n) =
      (d.channelsInEffect = 0 || 16 < d.channelsInEffect) := isSetTo_eq_getD rfl d.channels
  have hfps : isSetTo d.fps (· = 0) = decide (d.fpsInEffect = 0) := isSetTo_eq_getD rfl d.fps
  unfold displayViolation?
  rw [hwidth, hheight, hchannels, hfps, rule_eq_none_iff, rule_eq_none_iff, rule_eq_none_iff]
  simp only [Bool.or_eq_false_iff, decide_eq_false_iff_not, and_true]
  omega

theorem monitorViolation?_eq_none_iff {m : MonitorSettings} :
    monitorViolation? m = none ↔
      (m.releaseMs.getD EnvelopeTimings.standard.releaseMs).IsPositive ∧
        (m.holdMs.getD EnvelopeTimings.standard.holdMs).IsPositive ∧
        (m.falloffMs.getD EnvelopeTimings.standard.falloffMs).IsPositive := by
  obtain ⟨hrelease, hhold, hfalloff⟩ := EnvelopeTimings.standard_usable
  unfold monitorViolation?
  rw [isSetTo_eq_getD (isUselessTime_eq_false_iff.mpr hrelease),
    isSetTo_eq_getD (isUselessTime_eq_false_iff.mpr hhold),
    isSetTo_eq_getD (isUselessTime_eq_false_iff.mpr hfalloff)]
  simp only [rule_eq_none_iff, isUselessTime_eq_false_iff, and_true]

theorem overlayViolation?_eq_none_iff {o : OverlaySettings} :
    overlayViolation? o = none ↔
      1 ≤ o.displayMs.getD OverlayTimings.standard.displayMs ∧
        1 ≤ o.frameMs.getD OverlayTimings.standard.frameMs := by
  have hpos (n : UInt32) : decide (n = 0) = false ↔ 1 ≤ n := by
    rw [decide_eq_false_iff_not, UInt32.le_iff_toNat_le, ← UInt32.toNat_inj]
    show ¬n.toNat = 0 ↔ 1 ≤ n.toNat
    omega
  have hdisplay : isSetTo o.displayMs (· = 0) =
      decide (o.displayMs.getD OverlayTimings.standard.displayMs = 0) :=
    isSetTo_eq_getD rfl o.displayMs
  have hframe : isSetTo o.frameMs (· = 0) =
      decide (o.frameMs.getD OverlayTimings.standard.frameMs = 0) :=
    isSetTo_eq_getD rfl o.frameMs
  unfold overlayViolation?
  rw [hdisplay, hframe, rule_eq_none_iff, Bool.or_eq_false_iff, hpos, hpos]
  simp only [and_true]

/-- The rules find nothing exactly if every setting in effect is usable. -/
theorem violation?_eq_none_iff : s.violation? = none ↔ s.Usable := by
  have hnoDisplay : displayViolation? .unset = none := rfl
  have hnoMonitor : monitorViolation? .unset = none := rfl
  have hnoOverlay : overlayViolation? .unset = none := rfl
  have hdisplay := (bind_eq_none_iff_getD hnoDisplay s.display).trans displayViolation?_eq_none_iff
  have hmonitor := (bind_eq_none_iff_getD hnoMonitor s.monitor).trans monitorViolation?_eq_none_iff
  have hoverlay := (bind_eq_none_iff_getD hnoOverlay s.overlay).trans overlayViolation?_eq_none_iff
  unfold violation?
  rw [Option.orElse_eq_none, Option.orElse_eq_none, hdisplay, hmonitor, hoverlay]
  constructor
  · rintro ⟨⟨⟨hwidth, hheight⟩, hchannels, hfps⟩, ⟨hrelease, hhold, hfalloff⟩, hshown, hframe⟩
    exact ⟨hwidth, hheight, hchannels, hfps, ⟨hrelease, hhold, hfalloff⟩, hshown, hframe⟩
  · rintro ⟨hwidth, hheight, hchannels, hfps, ⟨hrelease, hhold, hfalloff⟩, hshown, hframe⟩
    exact ⟨⟨⟨hwidth, hheight⟩, hchannels, hfps⟩, ⟨hrelease, hhold, hfalloff⟩, hshown, hframe⟩

theorem usable_of_load {files : Files} {home : Option String} {options : Options}
    (h : load files home options = .ok s) : s.Usable := by
  obtain ⟨-, -, -, hvalid⟩ := exists_layer_of_load h
  exact violation?_eq_none_iff.mp hvalid

end Settings

/-! ## Panels -/

/-- A name plate is as large as its panel. -/
theorem Logo.size_frame (width height : Nat) :
    (Logo.frame width height).width = width ∧ (Logo.frame width height).height = height := by
  have hpaint := FrameBuffer.sameSize_paint (.filled width height false) ⟨0, 0, width, height⟩
    (Logo.onBorder width height)
  unfold Logo.frame
  exact hpaint.trans (FrameBuffer.sameSize_plotAll _ _ _)

/-- A panel that has pixels can be made, and its name plate registered with it. -/
theorem CommandLine.exists_pixelPanel {width height : Nat} (hwidth : 1 ≤ width)
    (hheight : 1 ≤ height) : ∃ lcd known, PixelPanel.new width height = .ok lcd ∧
      lcd.register 1 width (Logo.frame width height).toImageBytes.toArray = .ok known ∧
      pixelPanel width height = .ok known := by
  obtain ⟨hplateWidth, hplateHeight⟩ := Logo.size_frame width height
  have hnew : PixelPanel.new width height = .ok ⟨.filled width height false, [], true, 0⟩ :=
    if_neg (by omega)
  obtain ⟨-, known, hknown⟩ := PixelPanel.exists_register (Logo.frame width height)
    (by omega) (by omega) ⟨.filled width height false, [], true, 0⟩ 1
  rw [hplateWidth] at hknown
  refine ⟨_, known, hnew, hknown, ?_⟩
  unfold pixelPanel
  rw [hnew]
  exact hknown

/-- A panel that has cells can be made, unless no word counts them. -/
theorem CellPanel.new_cases {columns rows : Nat} (hcolumns : 1 ≤ columns) (hrows : 1 ≤ rows) :
    (columns * rows < UInt32.size ∧ ∃ lcd, CellPanel.new columns rows = .ok lcd) ∨
      (UInt32.size ≤ columns * rows ∧ CellPanel.new columns rows = .error .overflow) := by
  have hcells : ¬(columns = 0 ∨ rows = 0) := by omega
  rcases Nat.lt_or_ge (columns * rows) UInt32.size with hcount | hcount
  · exact .inl ⟨hcount, _, (if_neg hcells).trans (if_neg (Nat.not_le.mpr hcount))⟩
  · exact .inr ⟨hcount, (if_neg hcells).trans (if_pos hcount)⟩

/-! ## Divisions -/

/-- A quotient; `none` if it is by zero. -/
def divide? (n d : Nat) : Option Nat := if d = 0 then none else some (n / d)

theorem divide?_of_pos {d : Nat} (h : 1 ≤ d) (n : Nat) : divide? n d = some (n / d) :=
  if_neg (by omega)

namespace Replay

/-- The time of a frame, if it can be told. -/
def frameTime? (fps frame : Nat) : Option UInt32 :=
  (divide? (frame * 1000) fps).map UInt32.ofNat

/-- The length of a frame, if it can be told. -/
def frameMicros? (fps : Nat) : Option Nat := divide? 1000000 (max fps 1)

end Replay

/-- The width of each bar, if it can be told. -/
def barWidth? (panelWidth channels spacing : Nat) : Option Nat :=
  divide? (panelWidth - channels * spacing) channels

namespace Settings

variable {s : Settings}

/-- Any settings pass if, and only if, every setting in effect is usable, and pass as they are. For
settings that have been loaded, a panel of pixels can be made in the size in effect, and the name
plate registered; so can a panel of characters, unless no word counts its cells; a replay tells the
time and the length of its frames and the width of its bars without dividing by zero; and a panel
with the channels in effect has so many. -/
theorem validates_iff_usable (s : Settings) :
    (∀ t, s.validate = .ok t ↔ t = s ∧ s.Usable) ∧
    ∀ (files : Files) (home : Option String) (options : Options), load files home options = .ok s →
      let d := s.displayInEffect
      (∃ lcd known, PixelPanel.new d.sizeInEffect.1 d.sizeInEffect.2 = .ok lcd ∧
        lcd.register 1 d.sizeInEffect.1
          (Logo.frame d.sizeInEffect.1 d.sizeInEffect.2).toImageBytes.toArray = .ok known ∧
        CommandLine.pixelPanel d.sizeInEffect.1 d.sizeInEffect.2 = .ok known) ∧
      ((d.sizeInEffect.1 * d.sizeInEffect.2 < UInt32.size ∧
          ∃ lcd, CellPanel.new d.sizeInEffect.1 d.sizeInEffect.2 = .ok lcd) ∨
        (UInt32.size ≤ d.sizeInEffect.1 * d.sizeInEffect.2 ∧
          CellPanel.new d.sizeInEffect.1 d.sizeInEffect.2 = .error .overflow)) ∧
      ((∀ frame, Replay.frameTime? d.fpsInEffect frame =
          some (Replay.frameTime d.fpsInEffect frame)) ∧
        Replay.frameMicros? d.fpsInEffect = some (Replay.frameMicros d.fpsInEffect) ∧
        ∀ width spacing, barWidth? width d.channelsInEffect spacing =
          some (barWidth width d.channelsInEffect spacing)) ∧
      ∀ envelope overlay layout, (Panel.new envelope overlay layout d.channelsInEffect).channels =
        d.channelsInEffect := by
  constructor
  · intro t
    rw [validate_eq_ok_iff, violation?_eq_none_iff, eq_comm]
  · intro files home options hload d
    obtain ⟨hwidth, hheight, ⟨hsome, hmost⟩, hfps, -, -, -⟩ := usable_of_load hload
    refine ⟨CommandLine.exists_pixelPanel hwidth hheight, CellPanel.new_cases hwidth hheight,
      ⟨?_, ?_, ?_⟩, ?_⟩
    · intro frame
      exact congrArg (Option.map UInt32.ofNat) (divide?_of_pos hfps _)
    · exact divide?_of_pos (Nat.le_max_right _ _) _
    · intro width spacing
      exact divide?_of_pos hsome _
    · intro envelope overlay layout
      show min (max s.displayInEffect.channelsInEffect 1) 16 = s.displayInEffect.channelsInEffect
      omega

/-- Settings of a file with one row of characters and a peak that is held for the least time there
is: they pass, and a panel is made. With a time that is no number they do not. -/
theorem validates_iff_usable_row :
    let files : Files := ⟨fun path => path = "midimon.yaml",
      fun _ => .ok "display:\n  kind: character\n  height: 1\nmonitor:\n  peak_hold_ms: 1e-45\n"⟩
    let least := Single.ofBits 1
    let row : DisplaySettings :=
      { DisplaySettings.unset with kind := some .character, height := some 1 }
    let s : Settings := { Settings.unset with
      display := some row, monitor := some { MonitorSettings.unset with holdMs := some least } }
    let t : Settings :=
      { s with monitor := some { MonitorSettings.unset with holdMs := some .nan } }
    load files none Options.unset = .ok s ∧ s.validate = .ok s ∧
      (∃ lcd, CellPanel.new 20 1 = .ok lcd) ∧ (∃ known, CommandLine.pixelPanel 20 1 = .ok known) ∧
      Replay.frameTime? 30 31 = some 1033 ∧ ¬t.validate = .ok t := by
  intro files least row s t
  have hload : load files none Options.unset = .ok s := eq_ok_of_toOption (by decide +kernel)
  obtain ⟨hvalidate, hpanels⟩ := validates_iff_usable s
  obtain ⟨⟨-, known, -, -, hknown⟩, hpanel, ⟨htime, -⟩, -⟩ := hpanels files none .unset hload
  have hcells : ∃ lcd, CellPanel.new 20 1 = .ok lcd := by
    obtain ⟨-, hcells⟩ | ⟨hmany, -⟩ := hpanel
    · exact hcells
    · exact absurd hmany (by decide)
  refine ⟨hload, (hvalidate s).mpr ⟨rfl, usable_of_load hload⟩, hcells, ⟨known, hknown⟩,
    (htime 31).trans (by decide), ?_⟩
  intro ht
  obtain ⟨-, husable⟩ := ((validates_iff_usable t).1 t).mp ht
  exact absurd husable.envelope.holdMs (by decide)

end Settings
end MidiPanel
