import MidiPanel.Proofs.Script.Playable
import MidiPanel.Settings.Load

/-!
# Settings in layers

The settings of the program come from one file at most, with the command line over it. Which file is
consulted hangs only on the path that the command line names and on the places where something is
there: what stands in the file plays no part in it, so that a file that is no good ends the search.
The two layers are put together setting by setting, and only the outcome is checked.

Results:
* `Consults`: where a file is looked for, and which one is consulted.
* `consults_cases`, `Consults.unique`: one file is consulted, or none, or the named one is missing.
* `overlays_iff_eq_merge`: what the command line over a file comes to, one setting at a time.
* `load_of_missing`, `load_of_unreadable`, `load_of_unparsable`, `load_of_file`, `load_of_no_file`:
  what becomes of each case.
* `load_layers`: all of them together.
-/

namespace MidiPanel

theorem DisplaySettings.unset_merge (d : DisplaySettings) : unset.merge d = d := by
  simp [merge, unset]

namespace Settings

variable {files : Files} {home : Option String} {options : Options} {file s : Settings}
  {path : String}

/-! ## The file -/

/-- Nothing is there in either of the two places under a home directory, if there is one. -/
def NoneAtHome (files : Files) (home : Option String) : Prop :=
  ∀ directory ∈ home, files.isThere (directory ++ "/.config/midimon/config.yaml") = false ∧
    files.isThere (directory ++ "/.config/midimon.yaml") = false

/-- The file that is consulted: the one that is named, or else the first that is there of four
places, two under the home directory and two under the one that the program runs in. -/
inductive Consults (files : Files) : (home config consulted : Option String) → Prop
  | named {home : Option String} (path : String) (there : files.isThere path = true) :
      Consults files home (some path) (some path)
  | ownDirectory (directory : String)
      (there : files.isThere (directory ++ "/.config/midimon/config.yaml") = true) :
      Consults files (some directory) none (some (directory ++ "/.config/midimon/config.yaml"))
  | ownFile (directory : String)
      (missing : files.isThere (directory ++ "/.config/midimon/config.yaml") = false)
      (there : files.isThere (directory ++ "/.config/midimon.yaml") = true) :
      Consults files (some directory) none (some (directory ++ "/.config/midimon.yaml"))
  | localFile {home : Option String} (missing : NoneAtHome files home)
      (there : files.isThere "midimon.yaml" = true) :
      Consults files home none (some "midimon.yaml")
  | localDirectory {home : Option String} (missing : NoneAtHome files home)
      (missing' : files.isThere "midimon.yaml" = false)
      (there : files.isThere "config/midimon.yaml" = true) :
      Consults files home none (some "config/midimon.yaml")
  | nowhere {home : Option String} (missing : NoneAtHome files home)
      (missing' : files.isThere "midimon.yaml" = false)
      (missing'' : files.isThere "config/midimon.yaml" = false) : Consults files home none none

/-- Places under a home directory with nothing in them are passed over. -/
theorem NoneAtHome.find?_candidates (h : NoneAtHome files home) :
    (candidates home).find? files.isThere =
      ["midimon.yaml", "config/midimon.yaml"].find? files.isThere := by
  cases home with
  | none => rfl
  | some directory =>
    obtain ⟨hdirectory, hfile⟩ := h directory rfl
    show ([directory ++ "/.config/midimon/config.yaml", directory ++ "/.config/midimon.yaml"] ++
      ["midimon.yaml", "config/midimon.yaml"]).find? files.isThere = _
    rw [List.cons_append, List.find?_cons_of_neg (by simp [hdirectory]), List.cons_append,
      List.find?_cons_of_neg (by simp [hfile]), List.nil_append]

theorem Consults.filePath?_eq {config consulted : Option String}
    (h : Consults files home config consulted) :
    filePath? files home config = .ok consulted := by
  cases h with
  | named path there => exact if_pos there
  | ownDirectory directory there => exact congrArg Except.ok (List.find?_cons_of_pos there)
  | ownFile directory missing there =>
    have hfirst : ¬files.isThere (directory ++ "/.config/midimon/config.yaml") = true := by
      simp [missing]
    exact congrArg Except.ok
      ((List.find?_cons_of_neg hfirst).trans (List.find?_cons_of_pos there))
  | localFile missing there =>
    refine congrArg Except.ok (missing.find?_candidates.trans ?_)
    exact List.find?_cons_of_pos there
  | localDirectory missing missing' there =>
    refine congrArg Except.ok (missing.find?_candidates.trans ?_)
    simp [missing', there]
  | nowhere missing missing' missing'' =>
    refine congrArg Except.ok (missing.find?_candidates.trans ?_)
    simp [missing', missing'']

/-- There is a file to consult, or none, or the one that is named is missing. -/
theorem consults_cases (files : Files) (home config : Option String) :
    (∃ path, config = some path ∧ files.isThere path = false) ∨
      ∃ consulted, Consults files home config consulted := by
  -- what is not found at home is found where the program runs, or nowhere
  have hlocal (h : NoneAtHome files home) : ∃ consulted, Consults files home none consulted := by
    cases hfile : files.isThere "midimon.yaml" with
    | true => exact ⟨_, .localFile h hfile⟩
    | false =>
      cases hdirectory : files.isThere "config/midimon.yaml" with
      | true => exact ⟨_, .localDirectory h hfile hdirectory⟩
      | false => exact ⟨_, .nowhere h hfile hdirectory⟩
  cases config with
  | some path =>
    cases hthere : files.isThere path with
    | false => exact .inl ⟨path, rfl, hthere⟩
    | true => exact .inr ⟨some path, .named path hthere⟩
  | none =>
    right
    cases home with
    | none => exact hlocal nofun
    | some directory =>
      cases hdirectory : files.isThere (directory ++ "/.config/midimon/config.yaml") with
      | true => exact ⟨_, .ownDirectory directory hdirectory⟩
      | false =>
        cases hfile : files.isThere (directory ++ "/.config/midimon.yaml") with
        | true => exact ⟨_, .ownFile directory hdirectory hfile⟩
        | false =>
          refine hlocal ?_
          rintro _ ⟨⟩
          exact ⟨hdirectory, hfile⟩

theorem Consults.unique {config consulted consulted' : Option String}
    (h : Consults files home config consulted) (h' : Consults files home config consulted') :
    consulted = consulted' :=
  Except.ok.inj (h.filePath?_eq.symm.trans h'.filePath?_eq)

/-! ## The layers -/

/-- The command line over a file, setting by setting. What the command line says counts, else what
the file says. Of the display it can set the kind, the size and the channels, which makes a display
section where the file has none; the settings that have no option are those of the file. -/
structure Overlays (options : Options) (file s : Settings) : Prop where
  logLevel : s.logLevel = (options.logLevel <|> file.logLevel)
  script : s.script = (options.script <|> file.script)
  monitor : s.monitor = file.monitor
  overlay : s.overlay = file.overlay
  isSome_display : s.display.isSome = true ↔
    file.display.isSome = true ∨ options.displayKind.isSome = true ∨
      options.displayWidth.isSome = true ∨ options.displayHeight.isSome = true ∨
      options.channels.isSome = true
  display : ∀ d ∈ s.display,
    let lower := file.display.getD .unset
    d = { lower with
      kind := options.displayKind <|> lower.kind
      width := options.displayWidth <|> lower.width
      height := options.displayHeight <|> lower.height
      channels := options.channels <|> lower.channels }

/-- The two layers leave no choice. -/
theorem Overlays.unique {t : Settings} (hs : Overlays options file s)
    (ht : Overlays options file t) : s = t := by
  have hdisplay : s.display = t.display := by
    have hpresent := hs.isSome_display.trans ht.isSome_display.symm
    cases hd : s.display with
    | none =>
      cases hd' : t.display with
      | none => rfl
      | some d' => simp [hd, hd'] at hpresent
    | some d =>
      cases hd' : t.display with
      | none => simp [hd, hd'] at hpresent
      | some d' => rw [hs.display d hd, ht.display d' hd']
  obtain ⟨logLevel, monitor, overlay, display, script⟩ := s
  obtain ⟨logLevel', monitor', overlay', display', script'⟩ := t
  rw [Settings.mk.injEq]
  exact ⟨hs.logLevel.trans ht.logLevel.symm, hs.monitor.trans ht.monitor.symm,
    hs.overlay.trans ht.overlay.symm, hdisplay, hs.script.trans ht.script.symm⟩

/-- The options say nothing about the display. -/
theorem displaySettings_eq_unset_iff :
    options.displaySettings = .unset ↔
      options.displayKind = none ∧ options.displayWidth = none ∧ options.displayHeight = none ∧
        options.channels = none := by
  simp [Options.displaySettings, DisplaySettings.unset]

theorem mergeSection_none_right {α : Type} (merge : α → α → α) (lower : Option α) :
    mergeSection merge lower none = lower := by
  cases lower <;> rfl

/-- The display of a file under the options: they leave it as it is, or lie over what is there. -/
theorem display_merge (options : Options) (file : Settings) :
    (file.merge options.settings).display =
      if options.displaySettings = .unset then file.display
      else some ((file.display.getD .unset).merge options.displaySettings) := by
  show mergeSection _ file.display (if _ then _ else _) = _
  split
  · exact mergeSection_none_right _ _
  · cases file.display with
    | none => exact congrArg some (DisplaySettings.unset_merge _).symm
    | some lower => rfl

theorem overlays_merge (options : Options) (file : Settings) :
    Overlays options file (file.merge options.settings) := by
  have hunset := @displaySettings_eq_unset_iff options
  refine ⟨rfl, rfl, mergeSection_none_right .., mergeSection_none_right .., ?_, ?_⟩
  · rw [display_merge]
    split
    next h =>
      obtain ⟨hkind, hwidth, hheight, hchannels⟩ := hunset.mp h
      simp [hkind, hwidth, hheight, hchannels]
    next h =>
      simp only [hunset, ← Option.not_isSome_iff_eq_none] at h
      simp only [Option.isSome_some, true_iff]
      tauto
  · intro d hd lower
    rw [display_merge] at hd
    split at hd
    next h =>
      -- what is unset leaves the section of the file as it is
      have hd' : file.display = some d := hd
      have hlower : lower = d := by simp [lower, hd']
      obtain ⟨hkind, hwidth, hheight, hchannels⟩ := hunset.mp h
      rw [hlower, hkind, hwidth, hheight, hchannels]
      rfl
    next =>
      cases hd
      rfl

theorem overlays_iff_eq_merge : Overlays options file s ↔ s = file.merge options.settings := by
  constructor
  · intro h
    exact h.unique (overlays_merge options file)
  · rintro rfl
    exact overlays_merge options file

/-! ## Loading -/

theorem validate_eq_ok_iff {t : Settings} : s.validate = .ok t ↔ s = t ∧ s.violation? = none := by
  unfold validate
  cases s.violation? <;> simp

theorem validate_eq_error_iff {e : LoadError} :
    s.validate = .error e ↔
      ∃ violation, s.violation? = some violation ∧ e = .invalid violation := by
  unfold validate
  cases s.violation? <;> simp [eq_comm]

/-- What becomes of a file that has been read: the command line is put over it, and the outcome is
the result unless a rule is violated. -/
structure Outcome (options : Options) (file : Settings) (result : Except LoadError Settings) :
    Prop where
  ok_iff : ∀ s, result = .ok s ↔ Overlays options file s ∧ s.violation? = none
  error_iff : ∀ e, result = .error e ↔ ∃ s violation, Overlays options file s ∧
    s.violation? = some violation ∧ e = .invalid violation

theorem outcome_validate (options : Options) (file : Settings) :
    Outcome options file (file.merge options.settings).validate where
  ok_iff s := by
    rw [validate_eq_ok_iff, overlays_iff_eq_merge]
    constructor
    · rintro ⟨rfl, hvalid⟩
      exact ⟨rfl, hvalid⟩
    · rintro ⟨rfl, hvalid⟩
      exact ⟨rfl, hvalid⟩
  error_iff e := by
    simp only [validate_eq_error_iff, overlays_iff_eq_merge]
    constructor
    · rintro ⟨violation, hviolation, he⟩
      exact ⟨_, violation, rfl, hviolation, he⟩
    · rintro ⟨s, violation, rfl, hviolation, he⟩
      exact ⟨violation, hviolation, he⟩

theorem load_of_missing (hconfig : options.config = some path)
    (hmissing : files.isThere path = false) :
    load files home options = .error (.invalid (.fileNotFound path)) := by
  unfold load filePath?
  rw [hconfig]
  simp [hmissing, bind, Except.bind]

/-- What is read decides, and nothing else that is there. -/
theorem load_of_consults (h : Consults files home options.config (some path)) :
    load files home options =
      (readFile files path).bind fun file => (file.merge options.settings).validate := by
  unfold load
  rw [h.filePath?_eq]
  rfl

theorem load_of_no_file (h : Consults files home options.config none) :
    load files home options = (Settings.unset.merge options.settings).validate := by
  unfold load
  rw [h.filePath?_eq]
  rfl

theorem load_of_unreadable (h : Consults files home options.config (some path)) {cause : FileError}
    (hread : files.read path = .error cause) : load files home options = .error (.io cause) := by
  rw [load_of_consults h, readFile, hread]
  rfl

theorem load_of_unparsable (h : Consults files home options.config (some path)) {text : String}
    (hread : files.read path = .ok text) {cause : Yaml.Error} (hparse : parse text = .error cause) :
    load files home options = .error (.yaml cause) := by
  rw [load_of_consults h, readFile, hread]
  dsimp only
  rw [hparse]
  rfl

theorem load_of_file (h : Consults files home options.config (some path)) {text : String}
    (hread : files.read path = .ok text) (hparse : parse text = .ok file) :
    load files home options = (file.merge options.settings).validate := by
  rw [load_of_consults h, readFile, hread]
  dsimp only
  rw [hparse]
  rfl

/-- The settings of the program, for any options and any files. A file that is named must be there,
whatever else is. Otherwise one file is consulted, the first that is there of four places, or none.
If that file cannot be read, or what it holds is not settings, there are no settings, whatever the
other places hold. If it can, or if there is none, the command line is put over it, and that is the
result unless it violates a rule. -/
theorem load_layers (files : Files) (home : Option String) (options : Options) :
    ((∃ path, options.config = some path ∧ files.isThere path = false) ∨
      ∃ consulted, Consults files home options.config consulted) ∧
    (∀ path, options.config = some path → files.isThere path = false →
      load files home options = .error (.invalid (.fileNotFound path))) ∧
    (∀ path, Consults files home options.config (some path) →
      (∀ cause, files.read path = .error cause → load files home options = .error (.io cause)) ∧
      (∀ text cause, files.read path = .ok text → parse text = .error cause →
        load files home options = .error (.yaml cause)) ∧
      ∀ text file, files.read path = .ok text → parse text = .ok file →
        Outcome options file (load files home options)) ∧
    (Consults files home options.config none →
      Outcome options .unset (load files home options)) := by
  refine ⟨consults_cases files home options.config, ?_, ?_, ?_⟩
  · intro path hconfig hmissing
    exact load_of_missing hconfig hmissing
  · intro path hconsults
    refine ⟨?_, ?_, ?_⟩
    · intro cause hread
      exact load_of_unreadable hconsults hread
    · intro text cause hread hparse
      exact load_of_unparsable hconsults hread hparse
    · intro text file hread hparse
      rw [load_of_file hconsults hread hparse]
      exact outcome_validate options file
  · intro hconsults
    rw [load_of_no_file hconsults]
    exact outcome_validate options .unset

theorem exists_error_of_toOption {ε α : Type} {read : Except ε α} (h : read.toOption = none) :
    ∃ cause, read = .error cause := by
  cases read with
  | error cause => exact ⟨cause, rfl⟩
  | ok x => cases h

/-- A file whose width is useless, in the third place, and a text that is no mapping in the fourth:
under a width of the command line the file is good, named on the command line the text is not, and
neither is a file that is missing. -/
theorem load_layers_overridden :
    let files : Files := ⟨fun path => path = "midimon.yaml" || path = "config/midimon.yaml",
      fun path => .ok (if path = "midimon.yaml" then "display:\n  width: 0\n  fps: 5\n" else "[]")⟩
    let wide : Options := { Options.unset with displayWidth := some 64 }
    let shown : DisplaySettings := { DisplaySettings.unset with width := some 64, fps := some 5 }
    load files (some "/home") wide = .ok { Settings.unset with display := some shown } ∧
    (∃ cause, load files (some "/home") { wide with config := some "config/midimon.yaml" } =
      .error (.yaml cause)) ∧
    load files (some "/home") { wide with config := some "there.yaml" } =
      .error (.invalid (.fileNotFound "there.yaml")) := by
  intro files wide shown
  have hfile : parse "display:\n  width: 0\n  fps: 5\n" =
      .ok { Settings.unset with
        display := some { DisplaySettings.unset with width := some 0, fps := some 5 } } :=
    eq_ok_of_toOption (by decide +kernel)
  have hconsults : Consults files (some "/home") wide.config (some "midimon.yaml") :=
    .localFile (by rintro _ ⟨⟩; decide) (by decide)
  have houtcome := ((load_layers files (some "/home") wide).2.2.1 _ hconsults).2.2 _ _ rfl hfile
  refine ⟨(houtcome.ok_iff _).mpr ⟨⟨rfl, rfl, rfl, rfl, by decide, ?_⟩, rfl⟩, ?_, ?_⟩
  · rintro d ⟨⟩
    rfl
  · obtain ⟨cause, hcause⟩ : ∃ cause, parse "[]" = .error cause :=
      exists_error_of_toOption (by decide +kernel)
    have hnamed : Consults files (some "/home") (some "config/midimon.yaml")
        (some "config/midimon.yaml") := .named _ (by decide)
    exact ⟨cause, ((load_layers files (some "/home") _).2.2.1 _ hnamed).2.1 "[]" cause rfl hcause⟩
  · exact (load_layers files (some "/home") _).2.1 "there.yaml" rfl (by decide)

end Settings
end MidiPanel
