import MidiPanel.Proofs.Settings.Layers

/-!
# What loaded settings can be

The numbers of loaded settings have the room of their types, since a file with greater ones is no
settings file and a command line with greater ones is refused.

Results:
* `Resolving.Gives`: what holds of the result of a reading that succeeds, one reader at a time.
* `Settings.fits_of_parse`: the numbers of a file.
* `Options.fits_of_parse`: the numbers of a command line.
* `exists_layer_of_load`, `fits_of_load`: both together.
-/

namespace MidiPanel

namespace Yaml

/-! ## Successful readings -/

/-- If the reading succeeds, its result satisfies the condition. -/
def Resolving.Gives {α : Type} (reading : Resolving α) (p : α → Prop) : Prop :=
  ∀ anchors left x left', reading anchors left = .ok (x, left') → p x

namespace Resolving.Gives

variable {α β : Type} {p : α → Prop} {q : β → Prop}

theorem pure {x : α} (h : p x) : Gives (Pure.pure x) p := by
  rintro anchors left y left' ⟨⟩
  exact h

theorem throw (cause : Error) : Gives (MonadExcept.throw cause) p := by
  rintro anchors left y left' ⟨⟩

/-- The result of a second reading that uses the first one's. -/
theorem bind {reading : Resolving α} {more : α → Resolving β} (h : Gives reading p)
    (hmore : ∀ x, p x → Gives (more x) q) : Gives (reading >>= more) q := by
  intro anchors left y left' heq
  have hsplit : (reading anchors left).bind (fun result => more result.1 anchors result.2) =
      .ok (y, left') := heq
  cases hfirst : reading anchors left with
  | error cause =>
    rw [hfirst] at hsplit
    cases hsplit
  | ok result =>
    rw [hfirst] at hsplit
    exact hmore result.1 (h anchors left _ _ hfirst) anchors result.2 y left' hsplit

theorem any (reading : Resolving α) : Gives reading fun _ => True :=
  fun _ _ _ _ _ => trivial

theorem expect {value : Option α} (h : ∀ x ∈ value, p x) : Gives (Reader.expect value) p := by
  cases value with
  | none => exact throw _
  | some x => exact pure (h x rfl)

theorem below (limit : Nat) (node : Node) : Gives (Reader.below limit node) (· < limit) := by
  refine bind (any _) fun target _ => ?_
  split
  · refine expect fun n hn => ?_
    split at hn
    · simpa using (Option.filter_eq_some_iff.mp hn).2
    · cases hn
  · exact throw _

theorem optional {read : Reader α} (h : ∀ node, Gives (read node) p) (node : Node) :
    Gives (Reader.optional read node) fun value => ∀ x ∈ value, p x := by
  have hnone : ∀ x ∈ (none : Option α), p x := by simp
  have hsome (node : Node) : Gives (some <$> read node) fun value => ∀ x ∈ value, p x := by
    rw [map_eq_pure_bind]
    refine bind (h node) fun x hx => pure ?_
    rintro y ⟨⟩
    exact hx
  refine bind (any _) fun target _ => ?_
  split
  · split
    · split
      · exact pure hnone
      · exact throw _
    · split
      · exact pure hnone
      · exact hsome _
  · exact hsome _

theorem field {read : Reader α} (h : ∀ node, Gives (read node) p) (fields : Fields)
    (name : String) :
    Gives (Fields.optional fields name read) fun value => ∀ x ∈ value, p x := by
  unfold Fields.optional Fields.withDefault
  split
  · exact optional h _
  · exact pure (by simp)

end Resolving.Gives

end Yaml

/-! ## Settings of a file -/

open Yaml Resolving

/-- The numbers are those that their types have room for. -/
structure DisplaySettings.Fits (d : DisplaySettings) : Prop where
  width : ∀ n ∈ d.width, n < UInt32.size
  height : ∀ n ∈ d.height, n < UInt32.size
  channels : ∀ n ∈ d.channels, n < UInt64.size
  barSpacing : ∀ n ∈ d.barSpacing, n < UInt32.size
  barXOffset : ∀ n ∈ d.barXOffset, n < UInt32.size
  fps : ∀ n ∈ d.fps, n < UInt32.size

namespace Settings

theorem gives_displaySection (node : Node) : Gives (displaySection node) DisplaySettings.Fits := by
  have hlength (fields : Fields) (name : String) :
      Gives (Fields.optional fields name (Reader.below UInt32.size))
        fun value => ∀ n ∈ value, n < UInt32.size := .field (.below _) fields name
  have hcount (fields : Fields) (name : String) :
      Gives (Fields.optional fields name (Reader.below UInt64.size))
        fun value => ∀ n ∈ value, n < UInt64.size := .field (.below _) fields name
  refine .bind (.any _) fun fields _ => ?_
  refine .bind (.any _) fun kind _ => ?_
  refine .bind (hlength fields _) fun width hwidth => ?_
  refine .bind (hlength fields _) fun height hheight => ?_
  refine .bind (hcount fields _) fun channels hchannels => ?_
  refine .bind (hlength fields _) fun barSpacing hspacing => ?_
  refine .bind (hlength fields _) fun barXOffset hoffset => ?_
  refine .bind (.any _) fun drawBarBases _ => ?_
  refine .bind (hlength fields _) fun fps hfps => ?_
  exact .pure ⟨hwidth, hheight, hchannels, hspacing, hoffset, hfps⟩

theorem gives_settings (node : Node) :
    Gives (settings node) fun s => ∀ d ∈ s.display, d.Fits := by
  refine .bind (.any _) fun fields _ => ?_
  refine .bind (.any _) fun logLevel _ => ?_
  refine .bind (.any _) fun monitor _ => ?_
  refine .bind (.any _) fun overlay _ => ?_
  refine .bind (.field gives_displaySection fields _) fun display hdisplay => ?_
  refine .bind (.any _) fun script _ => ?_
  exact .pure hdisplay

theorem fits_of_parse {text : String} {s : Settings} (h : parse text = .ok s) :
    ∀ d ∈ s.display, d.Fits := by
  unfold parse readDocument at h
  cases hdocument : Yaml.parse text with
  | error cause =>
    rw [hdocument] at h
    cases h
  | ok document =>
    rw [hdocument] at h
    have hrun :
        ((settings document.root document.anchors (100 * document.root.size)).map Prod.fst) =
          .ok s := h
    cases hread : settings document.root document.anchors (100 * document.root.size) with
    | error cause =>
      rw [hread] at hrun
      cases hrun
    | ok result =>
      rw [hread] at hrun
      cases hrun
      exact gives_settings _ _ _ _ _ hread

end Settings

/-! ## Options -/

/-- The numbers are those that their types have room for. -/
structure Options.Fits (o : Options) : Prop where
  displayWidth : ∀ n ∈ o.displayWidth, n < UInt32.size
  displayHeight : ∀ n ∈ o.displayHeight, n < UInt32.size
  channels : ∀ n ∈ o.channels, n < UInt64.size

namespace Options

variable {o o' : Options} {minus : Bool} {limit n : Nat} {text : String}

theorem lt_of_number? (hlimit : 0 < limit) (h : number? minus limit text = some n) : n < limit := by
  unfold number? at h
  dsimp only at h
  split at h
  · simpa using (Option.filter_eq_some_iff.mp h).2
  · split at h
    · have hzero : n = 0 := by simpa using (Option.filter_eq_some_iff.mp h).2
      rwa [hzero]
    · cases h
  · simpa using (Option.filter_eq_some_iff.mp h).2

theorem exists_of_put {α : Type} {old : Option α} {value : Except UsageError α}
    {set : α → Options} (h : put old value set = .ok o') : ∃ v, value = .ok v ∧ o' = set v := by
  unfold put at h
  split at h
  · cases h
  · cases value with
    | error cause => cases h
    | ok v =>
      cases h
      exact ⟨v, rfl, rfl⟩

theorem eq_some_of_good {α : Type} {value : Option α} {v : α} (h : good value = .ok v) :
    value = some v := by
  cases value <;> cases h
  rfl

theorem Fits.setKey {key : Key} (ho : o.Fits) (h : o.setKey key text = .ok o') : o'.Fits := by
  cases key with
  | displayWidth =>
    obtain ⟨n, hn, rfl⟩ := exists_of_put h
    refine { ho with displayWidth := ?_ }
    rintro m ⟨⟩
    exact lt_of_number? (by decide) (eq_some_of_good hn)
  | displayHeight =>
    obtain ⟨n, hn, rfl⟩ := exists_of_put h
    refine { ho with displayHeight := ?_ }
    rintro m ⟨⟩
    exact lt_of_number? (by decide) (eq_some_of_good hn)
  | channels =>
    obtain ⟨n, hn, rfl⟩ := exists_of_put h
    refine { ho with channels := ?_ }
    rintro m ⟨⟩
    exact lt_of_number? (by decide) (eq_some_of_good hn)
  | _ =>
    obtain ⟨v, -, rfl⟩ := exists_of_put h
    exact { ho with }

theorem Fits.setSwitch {switch : Switch} (ho : o.Fits) (h : o.setSwitch switch = .ok o') :
    o'.Fits := by
  cases switch with
  | help => cases h
  | version => cases h
  | _ =>
    simp only [Options.setSwitch] at h
    split at h
    · cases h
    · cases h
      exact { ho with }

theorem exists_of_bind {ε α β : Type} {first : Except ε α} {more : α → Except ε β} {y : β}
    (h : first >>= more = .ok y) : ∃ x, first = .ok x ∧ more x = .ok y := by
  cases first with
  | error cause => cases h
  | ok x => exact ⟨x, rfl, h⟩

section State

variable {s s' : State} {key : Key} {switch : Switch}

theorem Fits.settle (hs : s.options.Fits) (h : s.settle = .ok o) : o.Fits := by
  unfold State.settle at h
  split at h
  · cases h
    exact hs
  · exact hs.setKey h
  · cases h

theorem Fits.withValue (hs : s.options.Fits) (h : s.withValue key text = .ok s') :
    s'.options.Fits := by
  obtain ⟨o, ho, h⟩ := exists_of_bind h
  obtain ⟨o', ho', h⟩ := exists_of_bind h
  cases h
  exact (hs.settle ho).setKey ho'

theorem Fits.opening (hs : s.options.Fits) (h : s.opening key = .ok s') : s'.options.Fits := by
  obtain ⟨o, ho, h⟩ := exists_of_bind h
  cases h
  exact hs.settle ho

theorem Fits.withSwitch (hs : s.options.Fits) (h : s.withSwitch switch = .ok s') :
    s'.options.Fits := by
  obtain ⟨o, ho, h⟩ := exists_of_bind h
  obtain ⟨o', ho', h⟩ := exists_of_bind h
  cases h
  exact (hs.settle ho).setSwitch ho'

theorem Fits.long {body : List Char} (hs : s.options.Fits) (h : s.long body = .ok s') :
    s'.options.Fits := by
  unfold State.long at h
  dsimp only at h
  split at h
  · cases h
  · cases h
  · exact hs.withSwitch h
  · exact hs.withValue h
  · exact hs.opening h

theorem Fits.short {names : List Char} (hs : s.options.Fits) (h : s.short names = .ok s') :
    s'.options.Fits := by
  induction names generalizing s with
  | nil =>
    cases h
    exact hs
  | cons c names ih =>
    unfold State.short at h
    split at h
    · cases h
    · obtain ⟨t, ht, h⟩ := exists_of_bind h
      exact ih (hs.withSwitch ht) h
    · split at h
      · exact hs.opening h
      · exact hs.withValue h
      · exact hs.withValue h

theorem Fits.next {arg : String} (hs : s.options.Fits) (h : s.next arg = .ok s') :
    s'.options.Fits := by
  unfold State.next at h
  split at h
  · exact hs.long h
  · exact hs.short h
  · unfold State.plain at h
    split at h
    · cases h
      exact hs
    · cases h

theorem Fits.parseFrom {args : List String} (hs : s.options.Fits)
    (h : Options.parseFrom s args = .ok o) : o.Fits := by
  induction args generalizing s with
  | nil => exact hs.settle h
  | cons arg args ih =>
    unfold Options.parseFrom at h
    split at h
    · split at h
      · exact hs.settle h
      · cases h
    · obtain ⟨t, ht, h⟩ := exists_of_bind h
      exact ih (hs.next ht) h

end State

/-- The numbers of a command line have room. -/
theorem fits_of_parse {args : List String} (h : parse args = .ok o) : o.Fits :=
  Fits.parseFrom (s := ⟨unset, none⟩) (by constructor <;> simp [unset]) h

end Options

namespace Settings

variable {files : Files} {home : Option String} {options : Options} {s : Settings}

theorem fits_merge {file : Settings} (hfile : ∀ d ∈ file.display, d.Fits)
    (hoptions : options.Fits) :
    ∀ d ∈ (file.merge options.settings).display, d.Fits := by
  have hlower : (file.display.getD .unset).Fits := by
    cases hdisplay : file.display with
    | none => constructor <;> simp [DisplaySettings.unset]
    | some d => exact hfile d hdisplay
  have hover {setting under : Option Nat} {limit : Nat} (hsetting : ∀ n ∈ setting, n < limit)
      (hunder : ∀ n ∈ under, n < limit) : ∀ n ∈ setting <|> under, n < limit := by
    cases setting with
    | none => exact hunder
    | some n => exact hsetting
  intro d hd
  rw [(overlays_merge options file).display d hd]
  exact ⟨hover hoptions.displayWidth hlower.width, hover hoptions.displayHeight hlower.height,
    hover hoptions.channels hlower.channels, hlower.barSpacing, hlower.barXOffset, hlower.fps⟩

/-- Loaded settings are those of the command line over what was read from a file, if there is one,
and violate no rule. -/
theorem exists_layer_of_load (h : load files home options = .ok s) :
    ∃ file, (file = .unset ∨ ∃ text, parse text = .ok file) ∧ s = file.merge options.settings ∧
      s.violation? = none := by
  have hvalid {file : Settings} (hfile : file = .unset ∨ ∃ text, parse text = .ok file)
      (h : (file.merge options.settings).validate = .ok s) :
      ∃ file, (file = .unset ∨ ∃ text, parse text = .ok file) ∧ s = file.merge options.settings ∧
        s.violation? = none := by
    obtain ⟨rfl, hnone⟩ := validate_eq_ok_iff.mp h
    exact ⟨file, hfile, rfl, hnone⟩
  rcases consults_cases files home options.config with
    ⟨path, hconfig, hmissing⟩ | ⟨consulted, hconsults⟩
  · rw [load_of_missing hconfig hmissing] at h
    cases h
  · cases consulted with
    | none => exact hvalid (.inl rfl) ((load_of_no_file hconsults).symm.trans h)
    | some path =>
      cases hread : files.read path with
      | error cause =>
        rw [load_of_unreadable hconsults hread] at h
        cases h
      | ok text =>
        cases hparse : parse text with
        | error cause =>
          rw [load_of_unparsable hconsults hread hparse] at h
          cases h
        | ok file =>
          exact hvalid (.inr ⟨text, hparse⟩) ((load_of_file hconsults hread hparse).symm.trans h)

/-- The numbers of loaded settings come from a file or from the options. -/
theorem fits_of_load (hoptions : options.Fits) (h : load files home options = .ok s) :
    ∀ d ∈ s.display, d.Fits := by
  obtain ⟨file, hfile, rfl, -⟩ := exists_layer_of_load h
  refine fits_merge ?_ hoptions
  rcases hfile with rfl | ⟨text, hparse⟩
  · simp [Settings.unset]
  · exact fits_of_parse hparse

end Settings
end MidiPanel
