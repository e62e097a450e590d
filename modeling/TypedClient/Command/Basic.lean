import TypedClient.Terminal.Palette

/-! The commands of the command line. -/

namespace TypedClient

inductive ColorMode
  | always
  | auto
  | never
  deriving DecidableEq, Repr

inductive ThemeMode
  | dark
  | light
  | auto
  deriving DecidableEq, Repr

/-- A description to look into. -/
structure SourceOptions where
  input : Text
  excludedTag : Option Text
  deriving DecidableEq, Repr

structure GenerateOptions where
  config : Text
  /-- The servers to generate for; none stands for all. -/
  servers : List Text
  /-- The output folder, if it is not to be the configured one. -/
  output : Option Text
  isVerbose : Bool
  isQuiet : Bool
  deriving DecidableEq, Repr

inductive Command
  | listPaths (source : SourceOptions)
  | listTags (source : SourceOptions)
  | generate (options : GenerateOptions)
  deriving DecidableEq, Repr

structure CommandLine where
  command : Command
  color : ColorMode
  theme : ThemeMode
  deriving DecidableEq, Repr

/-- What the terminal that a command runs in tells about itself. -/
structure Environment where
  takesColor : Bool
  /-- The numbers of the colours of text and background. -/
  colors : Option Text
  deriving DecidableEq, Repr

def ColorMode.isEnabled (mode : ColorMode) (environment : Environment) : Bool :=
  match mode with
  | always => true
  | never => false
  | auto => environment.takesColor

def ThemeMode.theme (mode : ThemeMode) (environment : Environment) : Theme :=
  match mode with
  | dark => .dark
  | light => .light
  | auto => (environment.colors.bind Theme.ofColors?).getD .dark

def CommandLine.palette (line : CommandLine) (environment : Environment) : Palette :=
  ⟨line.color.isEnabled environment, line.theme.theme environment⟩

end TypedClient
