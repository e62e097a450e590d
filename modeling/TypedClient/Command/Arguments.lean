import TypedClient.Command.Basic

/-!
Command lines read from arguments. Each command has options of its own, and options before the name
of a command belong to the command above it. The value of an option is taken when the next option
comes or the arguments end, so that of two faults the earlier option decides.
-/

namespace TypedClient

open Text

inductive UsageError
  | helpAsked
  | versionAsked
  /-- Nothing is given where a command has to be. -/
  | helpNeeded
  | noCommand
  | unknownCommand
  | unknownArgument
  | badValue
  /-- A flag with a value. -/
  | extraValue
  /-- An option given twice, or together with one that rules it out. -/
  | conflict
  | missingArgument
  deriving DecidableEq, Repr

def UsageError.exitCode : UsageError → Nat
  | helpAsked | versionAsked => 0
  | _ => 2

/-- The forms of a command line. -/
def usage : Text :=
  join "\n"
    ["Usage: list (paths | tags) --input FILE [--exclude-tag TAG]",
      "       generate [--config FILE] [--server NAME]... [--output DIR] [--verbose | --quiet]",
      "",
      "Every form takes --color (always | auto | never) and --theme (dark | light | auto)."]

def UsageError.message : UsageError → Text
  | helpAsked | helpNeeded => usage
  | versionAsked => "tsapi-gen 0.4.0"
  | noCommand => "error: a command is missing"
  | unknownCommand => "error: unknown command"
  | unknownArgument => "error: unexpected argument"
  | badValue => "error: a value is missing or is not one of the possible ones"
  | extraValue => "error: a value for an option that takes none"
  | conflict => "error: an option is repeated or cannot be used with another one"
  | missingArgument => "error: a required option is missing"

inductive ValueKind
  | any
  | path
  | oneOf (names : List Text)
  deriving DecidableEq, Repr

def ValueKind.accepts (kind : ValueKind) (value : Text) : Bool :=
  match kind with
  | any => true
  | path => !value.isEmpty
  | oneOf names => names.contains value

inductive OptionKind
  | help
  | version
  | flag
  | valued (kind : ValueKind) (isRepeatable : Bool)
  deriving DecidableEq, Repr

structure OptionSpec where
  name : Text
  short : Option Char
  kind : OptionKind
  deriving DecidableEq, Repr

/-- What can stand at one level of a command line. -/
structure Level where
  options : List OptionSpec
  commands : List Text
  deriving DecidableEq, Repr

/-- The options found so far, in order, and the one that may still get a value. -/
structure Scan where
  found : List (Text × Text)
  pending : Option (OptionSpec × Option Text)
  /-- Whether `--` has ended the options. -/
  isTrailing : Bool
  deriving DecidableEq, Repr

namespace Scan

def start : Scan := ⟨[], none, false⟩

def add (scan : Scan) (name value : Text) : Scan :=
  { scan with found := scan.found ++ [(name, value)] }

def has (scan : Scan) (name : Text) : Bool := scan.found.any fun (found, _) => found == name

def value? (scan : Scan) (name : Text) : Option Text := scan.found.reverse.lookup name

def values (scan : Scan) (name : Text) : List Text :=
  scan.found.filterMap fun (found, value) => if found == name then some value else none

/-- Whether the next argument is the value of an option. -/
def awaitsValue (scan : Scan) : Bool :=
  match scan.pending with
  | some (_, none) => true
  | _ => false

def takeValue (scan : Scan) (name value : Text) (kind : ValueKind) (isRepeatable : Bool) :
    Except UsageError Scan :=
  if !isRepeatable && scan.has name then .error .conflict
  else if kind.accepts value then .ok (scan.add name value)
  else .error .badValue

/-- Takes an option with its value; an option that takes none is left out. -/
def take (scan : Scan) (option : OptionSpec) (value : Text) : Except UsageError Scan :=
  match option.kind with
  | .valued kind isRepeatable => scan.takeValue option.name value kind isRepeatable
  | _ => .ok scan

/-- Takes the option that is pending. -/
def resolve (scan : Scan) : Except UsageError Scan :=
  match scan.pending with
  | none => .ok scan
  | some (_, none) => .error .badValue
  | some (option, some value) => ({ scan with pending := none } : Scan).take option value

/-- Takes an option without a value, or leaves it pending for one. -/
def open_ (scan : Scan) (option : OptionSpec) : Except UsageError Scan := do
  let scan ← scan.resolve
  match option.kind with
  | .help => throw .helpAsked
  | .version => throw .versionAsked
  | .flag => if scan.has option.name then throw .conflict else return scan.add option.name []
  | .valued .. => return { scan with pending := some (option, none) }

/-- Takes an option that a value is attached to. -/
def attach (scan : Scan) (option : OptionSpec) (value : Text) : Except UsageError Scan := do
  (← scan.resolve).take option value

end Scan

namespace Level

def long? (level : Level) (name : Text) : Option OptionSpec :=
  level.options.find? fun option => option.name = name

def short? (level : Level) (letter : Char) : Option OptionSpec :=
  level.options.find? fun option => option.short = some letter

def takesValue (option : OptionSpec) : Bool :=
  match option.kind with
  | .valued .. => true
  | _ => false

/-- Takes an argument that begins with two hyphens, which are left out here. -/
def takeLong (level : Level) (scan : Scan) (text : Text) : Except UsageError Scan :=
  let (name, value) := match cut? '=' text with
    | some (name, value) => (name, some value)
    | none => (text, none)
  match level.long? name, value with
  | none, _ => .error .unknownArgument
  | some option, none => scan.open_ option
  | some option, some value =>
    if takesValue option then scan.attach option value else .error .extraValue

/-- Takes the letters of an argument that begins with one hyphen. What follows the letter of an
option that takes a value is the value. -/
def takeShort (level : Level) (scan : Scan) : Text → Except UsageError Scan
  | [] => .ok scan
  | letter :: rest =>
    match level.short? letter with
    | none => .error .unknownArgument
    | some option =>
      if takesValue option then
        match rest with
        | [] => scan.open_ option
        | '=' :: value => scan.attach option value
        | value => scan.attach option value
      else
        match scan.open_ option with
        | .ok scan => level.takeShort scan rest
        | .error error => .error error

/-- The fault of an argument that is no option and no value. -/
def stray (level : Level) : UsageError :=
  if level.commands = [] then .unknownArgument else .unknownCommand

/-- Takes arguments up to the name of a command, which is returned with the arguments after it. -/
def scanFrom (level : Level) (scan : Scan) :
    List Text → Except UsageError (Scan × Option (Text × List Text))
  | [] => .ok (scan, none)
  | argument :: rest =>
    if scan.isTrailing then
      .error (if argument ∈ level.commands then .unknownArgument else level.stray)
    else if !scan.awaitsValue && level.commands.contains argument then
      .ok (scan, some (argument, rest))
    else
      match argument with
      | ['-', '-'] => level.scanFrom { scan with isTrailing := true } rest
      | '-' :: '-' :: text => do level.scanFrom (← level.takeLong scan text) rest
      | '-' :: letter :: letters => do
        level.scanFrom (← level.takeShort scan (letter :: letters)) rest
      | value =>
        match scan.pending with
        | some (option, none) =>
          level.scanFrom { scan with pending := some (option, some value) } rest
        | _ => .error level.stray

def scan (level : Level) (arguments : List Text) :
    Except UsageError (Scan × Option (Text × List Text)) :=
  level.scanFrom .start arguments

end Level

namespace CommandLine

/-! The levels of the command line. -/

def helpOption : OptionSpec := ⟨"help", some 'h', .help⟩

def colorNames : List (Text × ColorMode) :=
  [("always".toList, .always), ("auto".toList, .auto), ("never".toList, .never)]

def themeNames : List (Text × ThemeMode) :=
  [("dark".toList, .dark), ("light".toList, .light), ("auto".toList, .auto)]

/-- The options that every level takes. -/
def commonOptions : List OptionSpec :=
  [helpOption, ⟨"color", none, .valued (.oneOf (colorNames.map (·.1))) false⟩,
    ⟨"theme", none, .valued (.oneOf (themeNames.map (·.1))) false⟩]

def topLevel : Level :=
  ⟨commonOptions ++ [⟨"version", some 'V', .version⟩], ["list", "generate", "help"]⟩

def listLevel : Level := ⟨commonOptions, ["paths", "tags", "help"]⟩

def sourceLevel : Level :=
  ⟨commonOptions ++
    [⟨"input", some 'i', .valued .path false⟩, ⟨"exclude-tag", some 'e', .valued .any false⟩], []⟩

def generateLevel : Level :=
  ⟨commonOptions ++
    [⟨"config", some 'c', .valued .path false⟩, ⟨"server", some 's', .valued .any true⟩,
      ⟨"output", some 'o', .valued .path false⟩, ⟨"verbose", some 'v', .flag⟩,
      ⟨"quiet", some 'q', .flag⟩], []⟩

/-- The fault of a request for help on the command of these names, below commands already known. -/
def helpOn (commands : List Text) : List Text → UsageError
  | [] => .helpAsked
  | name :: rest =>
    if name ∈ commands then
      helpOn (if commands = topLevel.commands ∧ name = "list" then listLevel.commands else []) rest
    else .unknownCommand

/-! Commands. -/

def standardConfig : Text := "tsapi-gen.json"

/-- What the last level of a command line comes to: the options of it, and the command. -/
def readSource (make : SourceOptions → Command) (arguments : List Text) :
    Except UsageError (Scan × Command) := do
  let (scan, _) ← sourceLevel.scan arguments
  let scan ← scan.resolve
  match scan.value? "input" with
  | none => throw .missingArgument
  | some input => return (scan, make ⟨input, scan.value? "exclude-tag"⟩)

def readGenerate (arguments : List Text) : Except UsageError (Scan × Command) := do
  let (scan, _) ← generateLevel.scan arguments
  let scan ← scan.resolve
  if scan.has "verbose" && scan.has "quiet" then throw .conflict
  return (scan, .generate
    { config := (scan.value? "config").getD standardConfig
      servers := scan.values "server"
      output := scan.value? "output"
      isVerbose := scan.has "verbose"
      isQuiet := scan.has "quiet" })

/-- The options of a level in front of those of the levels below it, which were read first. -/
def above (scan : Scan) (below : Scan × Command) : Except UsageError (Scan × Command) := do
  let scan ← scan.resolve
  return ({ scan with found := scan.found ++ below.1.found }, below.2)

/-- The fault of a level at which no command is named. -/
def unnamed (scan : Scan) : Except UsageError (Scan × Command) := do
  let scan ← scan.resolve
  throw (if scan.found = [] then .helpNeeded else .noCommand)

def readList (arguments : List Text) : Except UsageError (Scan × Command) := do
  match ← listLevel.scan arguments with
  | (scan, none) => unnamed scan
  | (scan, some (name, rest)) =>
    if name = "paths" then above scan (← readSource .listPaths rest)
    else if name = "tags" then above scan (← readSource .listTags rest)
    else throw (helpOn listLevel.commands rest)

def readTop (arguments : List Text) : Except UsageError (Scan × Command) := do
  match ← topLevel.scan arguments with
  | (scan, none) => unnamed scan
  | (scan, some (name, rest)) =>
    if name = "list" then above scan (← readList rest)
    else if name = "generate" then above scan (← readGenerate rest)
    else throw (helpOn topLevel.commands rest)

/-- The command line of a list of arguments. -/
def ofArguments (arguments : List Text) : Except UsageError CommandLine := do
  let (scan, command) ← readTop arguments
  return {
    command
    color := ((scan.value? "color").bind fun name => List.lookup name colorNames).getD .auto
    theme := ((scan.value? "theme").bind fun name => List.lookup name themeNames).getD .auto }

end CommandLine

end TypedClient
