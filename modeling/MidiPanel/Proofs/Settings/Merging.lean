import MidiPanel.Proofs.Settings.Layers

/-!
# Layers of settings form a monoid

A layer is a value or nothing for each of fifteen settings, and the sections that are there. Settings
with the same values and sections are the same, so a law about layers is one about a single setting
and one about a single section. Of two layers the upper one's value counts where it has one, and a
section is there if either has it: an associative operation, for which the layer with nothing set is
neutral, and for which a layer put over itself is that layer.

The command line changes one setting at a time and adds a display section where one is missing. That
comes to merging the layer that the options make, and its laws are those of merging.

Results:
* `ext_value?`: settings are their values and their sections.
* `value?_merge`, `has_merge`: the values and the sections of merged layers.
* `merge_assoc`, `unset_merge`, `merge_unset`, `merge_self`: the laws of merging.
* `override_eq_merge`: options put over settings one by one.
* `merge_monoid`: all of it.
-/

namespace MidiPanel

/-- A single setting. -/
inductive Setting where
  | logLevel
  | script
  | releaseMs
  | holdMs
  | falloffMs
  | displayMs
  | frameMs
  | kind
  | width
  | height
  | channels
  | barSpacing
  | barXOffset
  | drawBarBases
  | fps

/-- What a setting can be set to. -/
def Setting.Value : Setting → Type
  | .logLevel | .script => String
  | .releaseMs | .holdMs | .falloffMs => Single
  | .displayMs | .frameMs => UInt32
  | .kind => PanelKind
  | .width | .height | .channels | .barSpacing | .barXOffset | .fps => Nat
  | .drawBarBases => Bool

/-- A section of settings. -/
inductive Settings.Section where
  | monitor
  | overlay
  | display

/-- The options say something about the display. -/
def Options.setsDisplay (options : Options) : Bool :=
  options.displayKind.isSome || options.displayWidth.isSome || options.displayHeight.isSome
    || options.channels.isSome

namespace Settings

/-- The value of a setting; none where its section is missing. -/
def value? (s : Settings) : (x : Setting) → Option x.Value
  | .logLevel => s.logLevel
  | .script => s.script
  | .releaseMs => s.monitor.bind (·.releaseMs)
  | .holdMs => s.monitor.bind (·.holdMs)
  | .falloffMs => s.monitor.bind (·.falloffMs)
  | .displayMs => s.overlay.bind (·.displayMs)
  | .frameMs => s.overlay.bind (·.frameMs)
  | .kind => s.display.bind (·.kind)
  | .width => s.display.bind (·.width)
  | .height => s.display.bind (·.height)
  | .channels => s.display.bind (·.channels)
  | .barSpacing => s.display.bind (·.barSpacing)
  | .barXOffset => s.display.bind (·.barXOffset)
  | .drawBarBases => s.display.bind (·.drawBarBases)
  | .fps => s.display.bind (·.fps)

/-- Whether a section is there, with whatever values. -/
def has (s : Settings) : Section → Bool
  | .monitor => s.monitor.isSome
  | .overlay => s.overlay.isSome
  | .display => s.display.isSome

/-! ## Settings are their values and their sections -/

/-- Sections are the same if both are missing, or both are there with the same in them. -/
theorem eq_of_isSome_eq {α : Type} {first second : Option α} (h : first.isSome = second.isSome)
    (hsame : ∀ x y, first = some x → second = some y → x = y) : first = second := by
  cases first with
  | none => exact (Option.isNone_iff_eq_none.mp (Option.isSome_eq_false_iff.mp h.symm)).symm
  | some x =>
    obtain ⟨y, rfl⟩ := Option.isSome_iff_exists.mp h.symm
    rw [hsame x y rfl rfl]

theorem ext_value? {s t : Settings} (hhas : ∀ part, s.has part = t.has part)
    (hvalue : ∀ x, s.value? x = t.value? x) : s = t := by
  obtain ⟨logLevel, monitor, overlay, display, script⟩ := s
  obtain ⟨logLevel', monitor', overlay', display', script'⟩ := t
  have hmonitor : monitor = monitor' := by
    refine eq_of_isSome_eq (hhas .monitor) ?_
    rintro ⟨releaseMs, holdMs, falloffMs⟩ ⟨releaseMs', holdMs', falloffMs'⟩ rfl rfl
    rw [MonitorSettings.mk.injEq]
    exact ⟨hvalue .releaseMs, hvalue .holdMs, hvalue .falloffMs⟩
  have hoverlay : overlay = overlay' := by
    refine eq_of_isSome_eq (hhas .overlay) ?_
    rintro ⟨displayMs, frameMs⟩ ⟨displayMs', frameMs'⟩ rfl rfl
    rw [OverlaySettings.mk.injEq]
    exact ⟨hvalue .displayMs, hvalue .frameMs⟩
  have hdisplay : display = display' := by
    refine eq_of_isSome_eq (hhas .display) ?_
    rintro ⟨kind, width, height, channels, barSpacing, barXOffset, drawBarBases, fps⟩
      ⟨kind', width', height', channels', barSpacing', barXOffset', drawBarBases', fps'⟩ rfl rfl
    rw [DisplaySettings.mk.injEq]
    exact ⟨hvalue .kind, hvalue .width, hvalue .height, hvalue .channels, hvalue .barSpacing,
      hvalue .barXOffset, hvalue .drawBarBases, hvalue .fps⟩
  rw [Settings.mk.injEq]
  exact ⟨hvalue .logLevel, hmonitor, hoverlay, hdisplay, hvalue .script⟩

/-! ## Merging -/

section Merged

variable {α β : Type} {merge : α → α → α}

theorem isSome_mergeSection (lower upper : Option α) :
    (mergeSection merge lower upper).isSome = (lower.isSome || upper.isSome) := by
  cases lower <;> cases upper <;> rfl

/-- What merging does to a field it does to the field of a section that may be missing. -/
theorem bind_mergeSection {field : α → Option β}
    (h : ∀ lower upper, field (merge lower upper) = (field upper <|> field lower))
    (lower upper : Option α) :
    (mergeSection merge lower upper).bind field = (upper.bind field <|> lower.bind field) := by
  cases lower with
  | none => cases upper <;> simp [mergeSection]
  | some x =>
    cases upper with
    | none => rfl
    | some y => exact h x y

end Merged

variable (a b c : Settings)

theorem has_merge (part : Section) : (a.merge b).has part = (a.has part || b.has part) := by
  cases part <;> exact isSome_mergeSection _ _

/-- The upper layer's value counts where there is one. -/
theorem value?_merge (x : Setting) : (a.merge b).value? x = (b.value? x <|> a.value? x) := by
  cases x with
  | logLevel | script => rfl
  | releaseMs | holdMs | falloffMs => exact bind_mergeSection (fun _ _ => rfl) _ _
  | displayMs | frameMs => exact bind_mergeSection (fun _ _ => rfl) _ _
  | kind | width | height | channels | barSpacing | barXOffset | drawBarBases | fps =>
    exact bind_mergeSection (fun _ _ => rfl) _ _

theorem has_unset (part : Section) : unset.has part = false := by
  cases part <;> rfl

theorem value?_unset (x : Setting) : unset.value? x = none := by
  cases x <;> rfl

theorem merge_assoc : (a.merge b).merge c = a.merge (b.merge c) := by
  refine ext_value? ?_ ?_
  · intro part
    simp only [has_merge, Bool.or_assoc]
  · intro x
    simp only [value?_merge]
    cases c.value? x <;> rfl

theorem unset_merge : unset.merge a = a := by
  refine ext_value? ?_ ?_
  · intro part
    rw [has_merge, has_unset, Bool.false_or]
  · intro x
    rw [value?_merge, value?_unset]
    cases a.value? x <;> rfl

theorem merge_unset : a.merge unset = a := by
  refine ext_value? ?_ ?_
  · intro part
    rw [has_merge, has_unset, Bool.or_false]
  · intro x
    rw [value?_merge, value?_unset]
    rfl

theorem merge_self : a.merge a = a := by
  refine ext_value? ?_ ?_
  · intro part
    rw [has_merge, Bool.or_self]
  · intro x
    rw [value?_merge]
    cases a.value? x <;> rfl

/-! ## The command line -/

/-- Options over settings, one by one. A display section that is missing is made if an option needs
it. -/
def override (s : Settings) (options : Options) : Settings :=
  let display := if options.setsDisplay && s.display.isNone then some .unset else s.display
  { s with
    logLevel := options.logLevel <|> s.logLevel
    script := options.script <|> s.script
    display := display.map fun d =>
      { d with
        kind := options.displayKind <|> d.kind
        width := options.displayWidth <|> d.width
        height := options.displayHeight <|> d.height
        channels := options.channels <|> d.channels } }

theorem overlays_override (options : Options) (s : Settings) :
    Overlays options s (s.override options) := by
  refine ⟨rfl, rfl, rfl, rfl, ?_, ?_⟩
  · cases hdisplay : s.display <;> simp [override, Options.setsDisplay, hdisplay, or_assoc]
  · intro d hd
    cases hdisplay : s.display with
    | none =>
      simp only [override, hdisplay] at hd
      split at hd
      · exact (Option.some.inj hd).symm
      · cases hd
    | some lower =>
      simp only [override, hdisplay, Option.isNone_some, Bool.and_false] at hd
      exact (Option.some.inj hd).symm

/-- Options over settings, one by one, are the layer that the options make, merged. -/
theorem override_eq_merge (s : Settings) (options : Options) :
    s.override options = s.merge options.settings :=
  overlays_iff_eq_merge.mp (overlays_override options s)

/-- For any layers: merging them takes the value of each setting from the upper one if it has one
there, else from the lower one, and a section is there if either has it. It is associative, and the
layer with nothing set is neutral on both sides. To put options over settings one by one is to merge
the layer that they make, as loading does; to do so twice is to do it once, and it makes no
difference whether it is done before or after the settings are put over others. -/
theorem merge_monoid (a b c : Settings) (options : Options) :
    (∀ x, (a.merge b).value? x = (b.value? x <|> a.value? x)) ∧
      (∀ part, (a.merge b).has part = true ↔ a.has part = true ∨ b.has part = true) ∧
      (a.merge b).merge c = a.merge (b.merge c) ∧
      (unset.merge a = a ∧ a.merge unset = a) ∧
      a.override options = a.merge options.settings ∧
      (a.override options).override options = a.override options ∧
      (a.merge b).override options = a.merge (b.override options) := by
  refine ⟨value?_merge a b, ?_, merge_assoc a b c, ⟨unset_merge a, merge_unset a⟩,
    override_eq_merge a options, ?_, ?_⟩
  · intro part
    rw [has_merge, Bool.or_eq_true]
  · rw [override_eq_merge, override_eq_merge, merge_assoc, merge_self]
  · rw [override_eq_merge, override_eq_merge, merge_assoc]

end Settings
end MidiPanel
