import TypedClient.Command.Host
import TypedClient.Command.Report

/-! Generating the files of the configured servers. -/

namespace TypedClient

open Text

/-- What is to be generated, and where. -/
structure Generation where
  config : Config
  configPath : Text
  servers : List ServerEntry
  output : Text
  report : Report
  deriving DecidableEq, Repr

variable {m : Type → Type} [Monad m] [Host m]

/-- Decodes a file as text. -/
def FileError.decode (bytes : Bytes) : Except FileError Text :=
  (Utf8.decode bytes).mapError fun _ => .notText

def readDescription (path : Text) : Acting m Text := do
  let bytes ← Acting.ofAction (.openDescription path) (Host.readFile path)
  Acting.ofExcept .decodeDescription (Utf8.decode bytes)

/-- Reads a configuration, whose inputs are taken from the folder it lies in. -/
def readConfig (path : Text) : Acting m ConfigFile := do
  let bytes ← Acting.ofAction (.readConfig path) (Host.readFile path)
  let document ← Acting.ofExcept (.readConfig path) (FileError.decode bytes)
  let file ← Acting.ofExcept (.parseConfig path document) (ConfigFile.ofText document)
  let resolved := file.resolveInputs (FilePath.parent path)
  Acting.ofExcept .config resolved.check
  return resolved

def printLines (lines : List Line) : Acting m Unit := lines.forM fun line => Host.printLine line

namespace Generation

def ofOptions (options : GenerateOptions) (palette : Palette) : Acting m Generation := do
  let file ← readConfig options.config
  let servers ← Acting.ofExcept .config (file.select options.servers)
  return {
    config := file.config
    configPath := options.config
    servers
    output := options.output.getD file.output
    report := ⟨palette, options.detail⟩ }

/-- Whether hooks are made from wrapper modules that were generated before. -/
def readsEarlierApi (generation : Generation) : Bool :=
  !generation.config.isEnabled .domainApi && generation.config.isEnabled .hooks

/-- Whether files are generated that import the description. -/
def needsDescription (generation : Generation) : Bool :=
  generation.config.isEnabled .validatedTypes || generation.config.isEnabled .propertyTypes

def folderOf (generation : Generation) (server : Text) : Text :=
  FilePath.push generation.output server

/-- The wrapper module in the folder of a tag, if there is one that can be read. -/
def earlierApi? (server folder tag : Text) : m (Option Artifact) := do
  let path := FilePath.push (FilePath.push folder tag) ArtifactKind.domainApi.fileName
  match (← Host.readFile path).bind FileError.decode with
  | .ok content => return some ⟨server, some tag, .domainApi, content⟩
  | .error _ => return none

/-- The wrapper modules of a server that were generated before. -/
def earlierApis (generation : Generation) (server : Text) : Acting m ArtifactSet := do
  let folder := generation.folderOf server
  if !(← Host.isThere folder) then return .empty
  let tags ← Acting.ofAction (.readFolder folder) (Host.foldersIn folder)
  let found ← tags.mapM fun tag => earlierApi? server folder tag
  return ArtifactSet.empty.putAll (found.filterMap id)

def seedFor (generation : Generation) (server : Text) : Acting m ArtifactSet :=
  if generation.readsEarlierApi then generation.earlierApis server else return .empty

def makeFolderOf (path : Text) : Acting m Unit :=
  Acting.ofAction .makeFolder (Host.makeFolders (FilePath.parent path))

def writeArtifact (generation : Generation) (artifact : Artifact) : Acting m Unit := do
  let path := FilePath.push generation.output artifact.relativePath
  makeFolderOf path
  Acting.ofAction (.writeFile path) (Host.writeFile path (Utf8.encode artifact.content))

/-- Writes the files that are new or other than before, and counts them. -/
def writeArtifacts (generation : Generation) (artifacts seed : ArtifactSet) : Acting m Nat := do
  let changed := artifacts.artifacts.filter fun artifact =>
    seed.get? artifact.server artifact.tag artifact.kind ≠ some artifact
  changed.forM generation.writeArtifact
  return changed.length

def descriptionFile : Text := "schema.d.ts"

def copyDescription (generation : Generation) (server : ServerEntry) : Acting m Unit := do
  let target := FilePath.push (generation.folderOf server.name) descriptionFile
  makeFolderOf target
  Acting.ofAction (.copyFile server.input target) (Host.copyFile server.input target)

/-- The text of a description, or why there is none. -/
def sourceOf (path : Text) : m (Except Text Text) := do
  return (← (readDescription path).run).mapError CommandError.message

/-- Generates the files of a server, and says whether the run was aborted. -/
def generateServer (generation : Generation) (server : ServerEntry) : Acting m Bool := do
  let report := generation.report
  printLines (report.generating (← Host.clock) server.name server.input)
  let seed ← generation.seedFor server.name
  let outcome := TypedClient.run generation.config ⟨server.name, server.excludedTag⟩
    (← sourceOf server.input) seed
  printLines (report.statistics outcome.stats ++ report.summary outcome.summary)
  if outcome.summary.isAborted then return true
  let count ← generation.writeArtifacts outcome.artifacts seed
  if generation.needsDescription then generation.copyDescription server
  printLines (report.wrote (← Host.clock) count generation.output)
  return false

/-- Generates the files of all servers. A server whose run is aborted does not keep the others from
being generated, but fails the command in the end. -/
def perform (generation : Generation) : Acting m Unit := do
  printLines (generation.report.loading (← Host.clock) generation.configPath)
  let aborted ← generation.servers.filterM generation.generateServer
  if aborted ≠ [] then throw (.aborted (aborted.map (·.name)))
  printLines (generation.report.finished (← Host.clock) generation.servers.length)

end Generation

end TypedClient
