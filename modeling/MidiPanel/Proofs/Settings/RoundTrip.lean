import MidiPanel.CommandLine.Run
import MidiPanel.Proofs.Settings.Loaded
import MidiPanel.Proofs.Settings.Merging
import MidiPanel.Proofs.Yaml.Values

/-!
# Settings that are printed and loaded again

What is printed of loaded settings, stored in a file, is loaded from it as the same settings. Each
setting is a line whose scalar is read back as its value, each section a mapping of such lines, or
null if it is not there; a section without settings is a mapping of nulls and stays there.

Numbers have the room of their types, and texts are meant to be printable ASCII characters on one
line. A time is only as good as its digits: they are read by way of a double, so that there are
times that come back as their neighbour (`next_of_halfway`).

Results:
* `restores_monitor`, `restores_overlay`, `restores_display`: a section that is there.
* `parse_dump`: the whole text.
* `dump_reloads`: from loading settings to loading them again.
-/

namespace MidiPanel

open Yaml

/-- The digits of every time read back as that time. -/
def MonitorSettings.ReadsBack (m : MonitorSettings) : Prop :=
  ∀ x, m.releaseMs = some x ∨ m.holdMs = some x ∨ m.falloffMs = some x →
    singleOf? (singleScalar x) = some x

/-- The time `7.038531e-26` reads back as the next greater one, since the double of these digits
lies halfway between both. -/
theorem next_of_halfway :
    singleOf? (singleScalar (.ofBits 0x15AE43FD)) = some (.ofBits 0x15AE43FE) := by
  decide +kernel

namespace Settings

/-! ## Entries -/

/-- The text is an entry of the printed settings, whose value is read back as this setting. -/
def RestoresEntry {α : Type} (read : Reader α) (name text : String) (value : Option α) : Prop :=
  ∃ (e : Entry) (node : Node), e.chars = text.toList ∧ e.pair = (keyNode name.toList, node) ∧
    Reader.optional read node = pure value

/-- The name and the text of a line. -/
def field (l : Line) : String × String := (String.ofList l.name, String.ofList l.value)

section Entries

variable {α : Type} {read : Reader α} {text : String}

/-- No scalar on one line ends it. -/
theorem toList_line (l : Line) :
    (line (String.ofList l.name) (String.ofList l.value)).toList = l.chars 0 := by
  have hlast : l.value.getLast?.any isBreak = false := by
    cases h : l.value.getLast? with
    | none => rfl
    | some c => exact isBreak_of_isShown (l.reads.isShown c (List.mem_of_getLast? h))
  simp [line, hlast, Line.chars, String.toList_append]

theorem restores_line {value : Option α} (name : String) (hname : isFieldName name.toList = true)
    (h : RestoresField read text value) : RestoresEntry read name (line name text) value := by
  obtain ⟨c, hreads, hread⟩ := h
  have hline := toList_line ⟨name.toList, text.toList, c, hname, hreads⟩
  rw [String.ofList_toList, String.ofList_toList] at hline
  exact ⟨.line _, .scalar c, hline.symm, rfl, hread⟩

/-- A section that is there. -/
theorem restores_block {name : String} {value : α} {lines : α → List (String × String)}
    (hname : isFieldName name.toList = true) (ls : List Line) (hne : ls ≠ [])
    (hlines : lines value = ls.map field)
    (hread : read (.mapping (ls.map Line.pair)) = pure value) :
    RestoresEntry read name (dumpSection name lines (some value)) (some value) := by
  refine ⟨.block name.toList ls hname hne, .mapping (ls.map Line.pair), ?_, rfl, ?_⟩
  · have hchars (l : Line) : ("  " ++ line (field l).1 (field l).2).toList = l.chars 2 := by
      rw [String.toList_append, field, toList_line]
      rfl
    rw [dumpSection, hlines]
    simp [Entry.chars, String.toList_append, String.toList_join, List.flatMap_map, hchars]
  · show (pure (Node.mapping _) >>= _ : Resolving (Option α)) = _
    rw [pure_bind]
    show some <$> read (.mapping (ls.map Line.pair)) = _
    rw [hread, map_pure]

end Entries

/-! ## Sections -/

/-- The line of a setting, which is read back from it. -/
structure IsLine {α : Type} (read : Reader α) (name text : String) (value : Option α) (l : Line) :
    Prop where
  field_eq : field l = (name, text)
  read_eq : Reader.optional read (.scalar l.scalar) = pure value

theorem exists_line {α : Type} {read : Reader α} {text : String} {value : Option α} (name : String)
    (hname : isFieldName name.toList = true) (h : RestoresField read text value) :
    ∃ l, IsLine read name text value l := by
  obtain ⟨c, hreads, hread⟩ := h
  refine ⟨⟨name.toList, text.toList, c, hname, hreads⟩, ?_, hread⟩
  simp [field]

/-- Lines as the fields of a mapping. -/
def nodes (ls : List Line) : Fields := ls.map fun l => ((field l).1, .scalar l.scalar)

section Nodes

variable {known : List String} {ls : List Line}

/-- A mapping whose lines are what is known. -/
theorem fieldsOf_lines (hnames : ls.map (fun l => (field l).1) = known) (hnodup : known.Nodup) :
    fieldsOf known (.mapping (ls.map Line.pair)) = pure (nodes ls).reverse := by
  have hpairs : ls.map Line.pair =
      (nodes ls).map fun field => (keyNode field.1.toList, field.2) := by
    simp [nodes, field, Line.pair, Function.comp_def]
  rw [hpairs]
  refine fieldsOf_mapping ?_ ?_
  · intro node hnode
    obtain ⟨l, hl, rfl⟩ := List.mem_map.mp hnode
    exact hnames ▸ List.mem_map_of_mem hl
  · simpa [nodes, Function.comp_def, hnames] using hnodup

theorem IsLine.optional {α : Type} {read : Reader α} {name text : String} {value : Option α}
    {l : Line} (h : IsLine read name text value l) (hl : l ∈ ls)
    (hnames : ls.map (fun l => (field l).1) = known) (hnodup : known.Nodup) :
    Fields.optional (nodes ls).reverse name read = pure value := by
  have hmem : (name, Node.scalar l.scalar) ∈ nodes ls := by
    have := List.mem_map_of_mem (f := fun l => ((field l).1, Node.scalar l.scalar)) hl
    rwa [h.field_eq] at this
  rw [optional_field (by simpa [nodes, Function.comp_def, hnames] using hnodup) hmem]
  exact h.read_eq

end Nodes

theorem restores_monitor {m : MonitorSettings} (h : m.ReadsBack) :
    RestoresEntry monitorSection "monitor" (dumpSection "monitor" monitorLines (some m))
      (some m) := by
  obtain ⟨l₁, h₁⟩ := exists_line "decay_release_ms" (by decide)
    (.option fun x hx => restores_single (h x (.inl hx)))
  obtain ⟨l₂, h₂⟩ := exists_line "peak_hold_ms" (by decide)
    (.option fun x hx => restores_single (h x (.inr (.inl hx))))
  obtain ⟨l₃, h₃⟩ := exists_line "peak_falloff_ms" (by decide)
    (.option fun x hx => restores_single (h x (.inr (.inr hx))))
  have hnames : [l₁, l₂, l₃].map (fun l => (field l).1) =
      ["decay_release_ms", "peak_hold_ms", "peak_falloff_ms"] := by
    simp [h₁.field_eq, h₂.field_eq, h₃.field_eq]
  refine restores_block (by decide) [l₁, l₂, l₃] (by simp) ?_ ?_
  · simp [monitorLines, h₁.field_eq, h₂.field_eq, h₃.field_eq]
  · unfold monitorSection
    rw [fieldsOf_lines hnames (by decide), pure_bind,
      h₁.optional (by simp) hnames (by decide), pure_bind,
      h₂.optional (by simp) hnames (by decide), pure_bind,
      h₃.optional (by simp) hnames (by decide), pure_bind]

theorem restores_overlay (o : OverlaySettings) :
    RestoresEntry overlaySection "ui" (dumpSection "ui" overlayLines (some o)) (some o) := by
  obtain ⟨l₁, h₁⟩ := exists_line "message_display_ms" (by decide)
    (.option fun (x : UInt32) (_ : x ∈ o.displayMs) => restores_word x)
  obtain ⟨l₂, h₂⟩ := exists_line "spinner_frame_ms" (by decide)
    (.option fun (x : UInt32) (_ : x ∈ o.frameMs) => restores_word x)
  have hnames : [l₁, l₂].map (fun l => (field l).1) =
      ["message_display_ms", "spinner_frame_ms"] := by
    simp [h₁.field_eq, h₂.field_eq]
  refine restores_block (by decide) [l₁, l₂] (by simp) ?_ ?_
  · simp [overlayLines, h₁.field_eq, h₂.field_eq]
  · unfold overlaySection
    rw [fieldsOf_lines hnames (by decide), pure_bind,
      h₁.optional (by simp) hnames (by decide), pure_bind,
      h₂.optional (by simp) hnames (by decide), pure_bind]

theorem restores_kind (kind : PanelKind) : Restores panelKind kind.name kind := by
  have hreads := Reads.plain kind.name.toList (by cases kind <;> decide) (by cases kind <;> decide)
  refine ⟨_, hreads, by cases kind <;> decide, ?_⟩
  show (pure (Node.scalar _) >>= _ : Resolving PanelKind) = _
  rw [pure_bind]
  cases kind <;> rfl

theorem restores_display {d : DisplaySettings} (h : d.Fits) :
    RestoresEntry displaySection "display" (dumpSection "display" displayLines (some d))
      (some d) := by
  obtain ⟨l₁, h₁⟩ := exists_line "kind" (by decide)
    (.option fun (kind : PanelKind) (_ : kind ∈ d.kind) => restores_kind kind)
  obtain ⟨l₂, h₂⟩ := exists_line "width" (by decide)
    (.option fun n hn => restores_below (h.width n hn))
  obtain ⟨l₃, h₃⟩ := exists_line "height" (by decide)
    (.option fun n hn => restores_below (h.height n hn))
  obtain ⟨l₄, h₄⟩ := exists_line "channels" (by decide)
    (.option fun n hn => restores_below (h.channels n hn))
  obtain ⟨l₅, h₅⟩ := exists_line "bar_spacing" (by decide)
    (.option fun n hn => restores_below (h.barSpacing n hn))
  obtain ⟨l₆, h₆⟩ := exists_line "bar_x_offset" (by decide)
    (.option fun n hn => restores_below (h.barXOffset n hn))
  obtain ⟨l₇, h₇⟩ := exists_line "draw_bar_bases" (by decide)
    (.option fun (b : Bool) (_ : b ∈ d.drawBarBases) => restores_bool b)
  obtain ⟨l₈, h₈⟩ := exists_line "fps" (by decide)
    (.option fun n hn => restores_below (h.fps n hn))
  have hnames : [l₁, l₂, l₃, l₄, l₅, l₆, l₇, l₈].map (fun l => (field l).1) =
      ["kind", "width", "height", "channels", "bar_spacing", "bar_x_offset", "draw_bar_bases",
        "fps"] := by
    simp [h₁.field_eq, h₂.field_eq, h₃.field_eq, h₄.field_eq, h₅.field_eq, h₆.field_eq,
      h₇.field_eq, h₈.field_eq]
  refine restores_block (by decide) [l₁, l₂, l₃, l₄, l₅, l₆, l₇, l₈] (by simp) ?_ ?_
  · simp [displayLines, h₁.field_eq, h₂.field_eq, h₃.field_eq, h₄.field_eq, h₅.field_eq,
      h₆.field_eq, h₇.field_eq, h₈.field_eq]
  · unfold displaySection
    rw [fieldsOf_lines hnames (by decide), pure_bind]
    dsimp only
    rw [h₁.optional (by simp) hnames (by decide), pure_bind,
      h₂.optional (by simp) hnames (by decide), pure_bind,
      h₃.optional (by simp) hnames (by decide), pure_bind,
      h₄.optional (by simp) hnames (by decide), pure_bind,
      h₅.optional (by simp) hnames (by decide), pure_bind,
      h₆.optional (by simp) hnames (by decide), pure_bind,
      h₇.optional (by simp) hnames (by decide), pure_bind,
      h₈.optional (by simp) hnames (by decide), pure_bind]

/-! ## The whole text -/

/-- A section that is not there is null. -/
theorem restores_section {α : Type} {read : Reader α} {value : Option α}
    {lines : α → List (String × String)} (name : String) (hname : isFieldName name.toList = true)
    (h : ∀ x ∈ value, RestoresEntry read name (dumpSection name lines (some x)) (some x)) :
    RestoresEntry read name (dumpSection name lines value) value := by
  cases value with
  | none =>
    have hnull : RestoresField read "null" none := by
      have hoption := @RestoresField.option α read (fun _ => "null") none (by simp)
      exact hoption
    exact restores_line name hname hnull
  | some x => exact h x rfl

/-- The texts are printable ASCII characters on one line. -/
def IsPrintable (s : Settings) : Prop :=
  ∀ text, s.logLevel = some text ∨ s.script = some text → ∀ c ∈ text.toList, isShown c = true

/-- The text that is printed, with the line break behind it. -/
theorem parse_dump {s : Settings} (htexts : IsPrintable s) (htimes : ∀ m ∈ s.monitor, m.ReadsBack)
    (hnumbers : ∀ d ∈ s.display, d.Fits) : parse (s.dump ++ "\n") = .ok s := by
  obtain ⟨e₁, n₁, hchars₁, hpair₁, hread₁⟩ := restores_line "log_level" (by decide)
    (.option fun text ht => restores_string (htexts text (.inl ht)))
  obtain ⟨e₂, n₂, hchars₂, hpair₂, hread₂⟩ := restores_section "monitor" (by decide)
    fun m hm => restores_monitor (htimes m hm)
  obtain ⟨e₃, n₃, hchars₃, hpair₃, hread₃⟩ := restores_section "ui" (by decide)
    fun (o : OverlaySettings) (_ : o ∈ s.overlay) => restores_overlay o
  obtain ⟨e₄, n₄, hchars₄, hpair₄, hread₄⟩ := restores_section "display" (by decide)
    fun d hd => restores_display (hnumbers d hd)
  obtain ⟨e₅, n₅, hchars₅, hpair₅, hread₅⟩ := restores_line "script" (by decide)
    (.option fun text ht => restores_string (htexts text (.inr ht)))
  have htext : s.dump ++ "\n" =
      String.ofList ([e₁, e₂, e₃, e₄, e₅].flatMap Entry.chars ++ ['\n']) := by
    rw [← String.toList_inj, String.toList_ofList]
    simp [dump, String.toList_append, hchars₁, hchars₂, hchars₃, hchars₄, hchars₅]
  let fields : Fields := [("log_level", n₁), ("monitor", n₂), ("ui", n₃), ("display", n₄),
    ("script", n₅)]
  have hpairs : [e₁, e₂, e₃, e₄, e₅].map Entry.pair =
      fields.map fun field => (keyNode field.1.toList, field.2) := by
    simp [fields, hpair₁, hpair₂, hpair₃, hpair₄, hpair₅]
  have hnodup : (fields.map Prod.fst).Nodup := by
    simp [fields]
  have hfields := @fieldsOf_mapping ["log_level", "monitor", "ui", "display", "script"] fields
    (by simp [fields]) hnodup
  have hsettings : settings (.mapping ([e₁, e₂, e₃, e₄, e₅].map Entry.pair)) = pure s := by
    unfold settings
    rw [hpairs, hfields, pure_bind,
      optional_field hnodup (show ("log_level", n₁) ∈ fields by simp [fields]), hread₁, pure_bind,
      optional_field hnodup (show ("monitor", n₂) ∈ fields by simp [fields]), hread₂, pure_bind,
      optional_field hnodup (show ("ui", n₃) ∈ fields by simp [fields]), hread₃, pure_bind,
      optional_field hnodup (show ("display", n₄) ∈ fields by simp [fields]), hread₄, pure_bind,
      optional_field hnodup (show ("script", n₅) ∈ fields by simp [fields]), hread₅, pure_bind]
  unfold parse readDocument
  rw [htext, parse_entries _ (by simp)]
  show (settings _).run _ = _
  rw [hsettings]
  rfl

/-! ## Printed and loaded again -/

section Reload

variable {files files' : Files} {home home' : Option String} {options : Options} {s : Settings}
  {path : String}

/-- What is printed instead of running. -/
theorem printed_dump (h : load files home options = .ok s) :
    (CommandLine.runWith files home { options with dumpConfig := true }).printed =
      s.dump ++ "\n" := by
  have hload : load files home { options with dumpConfig := true } = .ok s := h
  unfold CommandLine.runWith
  rw [hload]
  rfl

/-- Whatever settings are loaded from, what is printed of them is loaded again as the same settings,
by itself from a file anywhere, and then printed as the same text. The numbers of the options have
the room of their types, as those of every command line do (`Options.fits_of_parse`). -/
theorem dump_reloads (hload : load files home options = .ok s) (hoptions : options.Fits)
    (htexts : IsPrintable s) (htimes : ∀ m ∈ s.monitor, m.ReadsBack)
    (hthere : files'.isThere path = true)
    (hread : files'.read path =
      .ok (CommandLine.runWith files home { options with dumpConfig := true }).printed) :
    load files' home' { Options.unset with config := some path } = .ok s ∧
      (CommandLine.runWith files' home'
        { Options.unset with config := some path, dumpConfig := true }).printed =
      (CommandLine.runWith files home { options with dumpConfig := true }).printed := by
  have hprinted := printed_dump hload
  have hparse := parse_dump htexts htimes (fits_of_load hoptions hload)
  rw [hprinted] at hread ⊢
  obtain ⟨-, -, -, hvalid⟩ := exists_layer_of_load hload
  have hreload : load files' home' { Options.unset with config := some path } = .ok s := by
    rw [load_of_file (.named path hthere) hread hparse]
    show (s.merge .unset).validate = _
    rw [merge_unset]
    exact validate_eq_ok_iff.mpr ⟨rfl, hvalid⟩
  exact ⟨hreload, printed_dump hreload⟩

/-- A text that looks like null is quoted, a section without settings stays there, and the width of
the command line is in the file afterwards. -/
theorem dump_reloads_null :
    let text := "log_level: 'null'\nmonitor:\n  peak_hold_ms: 0.1\nui: \x7b\x7d\nscript: it's\n"
    let files : Files := ⟨fun _ => true, fun _ => .ok text⟩
    let options : Options := { Options.unset with displayWidth := some 64 }
    let printed := (CommandLine.runWith files none { options with dumpConfig := true }).printed
    let s : Settings := ⟨some "null", some ⟨none, some (.ofBits 0x3DCCCCCD), none⟩, some .unset,
      some { DisplaySettings.unset with width := some 64 }, some "it's"⟩
    load files none options = .ok s ∧
    load ⟨fun _ => true, fun _ => .ok printed⟩ none { Options.unset with config := some "out" } =
      .ok s := by
  intro text files options printed s
  have hparse : parse text = .ok { s with display := none } :=
    eq_ok_of_toOption (by decide +kernel)
  have hconsults : Consults files none options.config (some "midimon.yaml") :=
    .localFile nofun rfl
  have hload : load files none options = .ok s := by
    rw [load_of_file hconsults rfl hparse]
    exact validate_eq_ok_iff.mpr ⟨rfl, by decide +kernel⟩
  have htexts : IsPrintable s := by
    rintro text (⟨⟨⟩⟩ | ⟨⟨⟩⟩)
    · exact List.all_eq_true.mp (by decide)
    · exact List.all_eq_true.mp (by decide)
  have htimes : ∀ m ∈ s.monitor, m.ReadsBack := by
    rintro m ⟨⟩ x (⟨⟨⟩⟩ | ⟨⟨⟩⟩ | ⟨⟨⟩⟩)
    decide +kernel
  have hoptions : options.Fits :=
    Options.fits_of_parse (show Options.parse ["--display-width", "64"] = .ok options by decide)
  exact ⟨hload, (dump_reloads hload hoptions htexts htimes rfl rfl).1⟩

end Reload

end Settings
end MidiPanel
