import MidiPanel.Settings.Basic

/-!
# Command line options

Arguments are read from left to right. An option takes its value from the same argument or from the
next one, unless that looks like an option; short switches combine. There are no positional
arguments.

A value that stands in an argument of its own is only looked at when the next known option is met or
the arguments end. So an unknown argument is reported rather than the bad value before it.
-/

namespace MidiPanel

/-- Why arguments are not options, or what is shown instead of running. -/
inductive UsageError where
  | unknownArgument
  | badValue
  | missingValue
  | repeated
  | needlessValue
  | help
  | version
  deriving DecidableEq

/-- What the command line sets. -/
structure Options where
  config : Option String
  debug : Bool
  logLevel : Option String
  displayKind : Option PanelKind
  displayWidth : Option Nat
  displayHeight : Option Nat
  channels : Option Nat
  script : Option String
  pbm : Option String
  realtime : Bool
  dumpConfig : Bool
  deriving DecidableEq

namespace Options

/-- Nothing is set. -/
def unset : Options := ⟨none, false, none, none, none, none, none, none, none, false, false⟩

/-- Options without a value. -/
inductive Switch where
  | debug
  | realtime
  | dumpConfig
  | help
  | version
  deriving DecidableEq

/-- Options with a value. -/
inductive Key where
  | config
  | logLevel
  | displayKind
  | displayWidth
  | displayHeight
  | channels
  | script
  | pbm
  deriving DecidableEq

/-- An option of either sort. -/
inductive Name where
  | switch (s : Switch)
  | key (k : Key)

/-- The option with this long name. -/
def longName? (name : String) : Option Name :=
  [("config", .key .config), ("debug", .switch .debug), ("log-level", .key .logLevel),
    ("display-kind", .key .displayKind), ("display-width", .key .displayWidth),
    ("display-height", .key .displayHeight), ("channels", .key .channels),
    ("script", .key .script), ("pbm", .key .pbm), ("realtime", .switch .realtime),
    ("dump-config", .switch .dumpConfig), ("help", .switch .help),
    ("version", Name.switch .version)].lookup name

/-- The option with this short name. -/
def shortName? : Char → Option Name
  | 'c' => some (.key .config)
  | 'v' => some (.switch .debug)
  | 's' => some (.key .script)
  | 'h' => some (.switch .help)
  | 'V' => some (.switch .version)
  | _ => none

/-! ## Values -/

/-- A whole number of decimal digits below `limit`; a sign may stand in front, a minus only before
zero and only where `minus` says so. -/
def number? (minus : Bool) (limit : Nat) (text : String) : Option Nat :=
  let digits? (ds : List Char) : Option Nat :=
    if ds ≠ [] ∧ ds.all Char.isDigit then
      some (ds.foldl (fun n c => 10 * n + (c.toNat - '0'.toNat)) 0)
    else none
  match text.toList with
  | '+' :: ds => (digits? ds).filter (· < limit)
  | '-' :: ds => if minus then (digits? ds).filter (· = 0) else none
  | ds => (digits? ds).filter (· < limit)

/-- A length in pixels or cells. -/
def length? (text : String) : Option Nat := number? true UInt32.size text

/-- The names of the kinds of panel, whatever their case. -/
def kind? (text : String) : Option PanelKind :=
  [("character", .character), ("char", .character), ("text", .character),
    ("graphical", .graphical), ("graphic", .graphical), ("pixel", PanelKind.graphical)].lookup
    (text.map Char.toLower)

/-- Sets an option that must not be set yet, to a value that must be good. -/
def put {α : Type} (old : Option α) (value : Except UsageError α) (set : α → Options) :
    Except UsageError Options :=
  if old.isSome then .error .repeated else value.map set

/-- A path is not empty. -/
def path (text : String) : Except UsageError String :=
  if text.isEmpty then .error .missingValue else .ok text

/-- A value, or a complaint about it. -/
def good {α : Type} : Option α → Except UsageError α
  | some value => .ok value
  | none => .error .badValue

/-- Takes the value of an option in. -/
def setKey (o : Options) (key : Key) (text : String) : Except UsageError Options :=
  match key with
  | .config => put o.config (path text) fun v => { o with config := some v }
  | .logLevel => put o.logLevel (.ok text) fun v => { o with logLevel := some v }
  | .displayKind => put o.displayKind (good (kind? text)) fun v => { o with displayKind := some v }
  | .displayWidth =>
    put o.displayWidth (good (length? text)) fun v => { o with displayWidth := some v }
  | .displayHeight =>
    put o.displayHeight (good (length? text)) fun v => { o with displayHeight := some v }
  | .channels =>
    put o.channels (good (number? false UInt64.size text)) fun v => { o with channels := some v }
  | .script => put o.script (path text) fun v => { o with script := some v }
  | .pbm => put o.pbm (path text) fun v => { o with pbm := some v }

/-- Takes a switch in. -/
def setSwitch (o : Options) : Switch → Except UsageError Options
  | .debug => if o.debug then .error .repeated else .ok { o with debug := true }
  | .realtime => if o.realtime then .error .repeated else .ok { o with realtime := true }
  | .dumpConfig => if o.dumpConfig then .error .repeated else .ok { o with dumpConfig := true }
  | .help => .error .help
  | .version => .error .version

/-! ## Arguments -/

/-- The options so far, and one whose value stands in an argument of its own: still to come, or not
looked at yet. -/
structure State where
  options : Options
  open? : Option (Key × Option String)

namespace State

/-- Looks at the value of the open option. -/
def settle (s : State) : Except UsageError Options :=
  match s.open? with
  | none => .ok s.options
  | some (key, some text) => s.options.setKey key text
  | some (_, none) => .error .missingValue

/-- An option with a value in the same argument. -/
def withValue (s : State) (key : Key) (text : String) : Except UsageError State := do
  return ⟨← (← s.settle).setKey key text, none⟩

/-- An option whose value is the next argument. -/
def opening (s : State) (key : Key) : Except UsageError State := do
  return ⟨← s.settle, some (key, none)⟩

def withSwitch (s : State) (switch : Switch) : Except UsageError State := do
  return ⟨← (← s.settle).setSwitch switch, none⟩

/-- An argument with a long name and perhaps a value. -/
def long (s : State) (body : List Char) : Except UsageError State :=
  let name := String.ofList (body.takeWhile (· ≠ '='))
  let value? := match body.dropWhile (· ≠ '=') with
    | _ :: value => some (String.ofList value)
    | [] => none
  match longName? name, value? with
  | none, _ => .error .unknownArgument
  | some (.switch _), some _ => .error .needlessValue
  | some (.switch switch), none => s.withSwitch switch
  | some (.key key), some value => s.withValue key value
  | some (.key key), none => s.opening key

/-- An argument of short names; what follows a short option with a value is that value. -/
def short (s : State) : List Char → Except UsageError State
  | [] => .ok s
  | c :: rest =>
    match shortName? c with
    | none => .error .unknownArgument
    | some (.switch switch) => do short (← s.withSwitch switch) rest
    | some (.key key) =>
      match rest with
      | [] => s.opening key
      | '=' :: value => s.withValue key (String.ofList value)
      | value => s.withValue key (String.ofList value)

/-- An argument that does not look like an option: the value of the open one. -/
def plain (s : State) (text : String) : Except UsageError State :=
  match s.open? with
  | some (key, none) => .ok { s with open? := some (key, some text) }
  | _ => .error .unknownArgument

/-- The next argument. -/
def next (s : State) (arg : String) : Except UsageError State :=
  match arg.toList with
  | '-' :: '-' :: body => s.long body
  | '-' :: c :: body => s.short (c :: body)
  | _ => s.plain arg

end State

/-- Reads the arguments from a state on. Behind two dashes there are positional arguments only. -/
def parseFrom (s : State) : List String → Except UsageError Options
  | [] => s.settle
  | arg :: args =>
    if arg = "--" then if args.isEmpty then s.settle else .error .unknownArgument
    else do parseFrom (← s.next arg) args

/-- Reads the arguments. -/
def parse (args : List String) : Except UsageError Options := parseFrom ⟨unset, none⟩ args

/-- What the options say about the display. -/
def displaySettings (o : Options) : DisplaySettings :=
  { DisplaySettings.unset with
    kind := o.displayKind
    width := o.displayWidth
    height := o.displayHeight
    channels := o.channels }

/-- The settings that the options make. -/
def settings (o : Options) : Settings :=
  { Settings.unset with
    logLevel := o.logLevel
    script := o.script
    display := if o.displaySettings = .unset then none else some o.displaySettings }

end Options
end MidiPanel
