import TypedClient.Command.Generate
import TypedClient.Command.Listing

/-! Carrying out commands. -/

namespace TypedClient

variable {m : Type → Type} [Monad m] [Host m]

def Listing.read (source : SourceOptions) : Acting m Listing := do
  Acting.ofExcept .duplicateOperation
    (Listing.ofText (← readDescription source.input) source.excludedTag)

def printGrid (grid : Grid) : Acting m Unit := printLines (grid.lines.map Report.output)

def Command.perform (command : Command) (palette : Palette) : Acting m Unit := do
  match command with
  | .listPaths source => printGrid (← Listing.read source).pathGrid
  | .listTags source => printGrid (← Listing.read source).tagGrid
  | .generate options => (← Generation.ofOptions options palette).perform

def CommandLine.perform (line : CommandLine) (environment : Environment) : Acting m Unit :=
  line.command.perform (line.palette environment)

end TypedClient
