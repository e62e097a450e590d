import TypedClient.Artifact.Basic
import TypedClient.Module.Hooks
import TypedClient.Module.Properties
import TypedClient.Module.Types
import TypedClient.Module.Wrappers
import TypedClient.Run.Stats
import TypedClient.Tag.Classification

/-!
One run over one server. The first three steps are required: they load the description, extract
its model and sort its paths, and where one fails the run is aborted. Every later step writes files,
can be switched off, and on failure is recorded while the run goes on.
-/

namespace TypedClient

open Text

/-- A server to generate for. -/
structure Server where
  name : Text
  excludedTag : Option Text
  deriving DecidableEq, Repr

structure StepFailure where
  step : Step
  error : Text
  deriving DecidableEq, Repr

/-- What became of the steps of a run. -/
structure RunSummary where
  server : Text
  successes : List Step
  skipped : List Step
  failures : List StepFailure
  aborted : Option StepFailure
  deriving DecidableEq, Repr

namespace RunSummary

def isAborted (summary : RunSummary) : Bool := summary.aborted.isSome

def isClean (summary : RunSummary) : Bool := !summary.isAborted && summary.failures.isEmpty

end RunSummary

structure RunOutcome where
  summary : RunSummary
  artifacts : ArtifactSet
  stats : Stats
  deriving DecidableEq, Repr

/-- What the required steps find out about a server. -/
structure Interface where
  server : Text
  description : Description
  classification : Classification
  /-- The typed operations of each tag, tags ascending. -/
  operations : List (Text × List OperationTypes)
  deriving DecidableEq, Repr

/-- What the later steps work on. -/
structure RunState where
  artifacts : ArtifactSet
  stats : Stats
  /-- The endpoints planned so far, by tag. -/
  planned : List (Text × List Endpoint)
  /-- The schemas that the walk over properties has been to. -/
  visited : List Text
  deriving DecidableEq, Repr

namespace RunState

def start (artifacts : ArtifactSet) (stats : Stats) : RunState := ⟨artifacts, stats, [], []⟩

/-- Adds files and counts them. -/
def add (state : RunState) (artifacts : List Artifact) : RunState :=
  { state with
    artifacts := state.artifacts.putAll artifacts
    stats :=
      { state.stats with
        artifactsGenerated := state.stats.artifactsGenerated + artifacts.length } }

end RunState

inductive StepError
  | api (tag : Text) (error : ApiError)
  | hooks (tag : Text) (error : UnknownPlaceholder)
  deriving DecidableEq, Repr

def StepError.message : StepError → Text
  | api tag error => "domain API for tag '" ++ tag ++ "': " ++ error.message
  | hooks tag error => "hooks for tag '" ++ tag ++ "': " ++ error.message

namespace Interface

def countOperations (operations : List (Text × List OperationTypes)) : Nat :=
  (operations.flatMap fun (_, types) => types).length

/-- Types the operations of every tag. -/
def typed (description : Description) (classification : Classification)
    (entries : List PathEntry) : Reported (List (Text × List OperationTypes)) :=
  Reported.forEach classification.tagNames fun tag => do
    let operations := operationsIn (classification.entriesOf tag entries)
    return (tag, ← Reported.forEach operations description.typesOf)

def artifact (target : Interface) (tag : Text) (kind : ArtifactKind) (content : Text) : Artifact :=
  ⟨target.server, some tag, kind, content⟩

def tagList (target : Interface) (state : RunState) : RunState :=
  state.add [⟨target.server, none, .tagList, target.classification.tagList target.server⟩]

def validatedTypes (target : Interface) (imports : ImportPaths) (state : RunState) : RunState :=
  let counted : RunState :=
    { state with
      stats := state.stats.countAliases
        (target.operations.flatMap fun (_, operations) => Module.aliasesOf operations) }
  counted.add (target.operations.map fun (tag, operations) =>
    target.artifact tag .validatedTypes
      (Module.validatedTypes target.server tag operations imports))

/-- The property aliases of each tag, and the schemas visited by then. The walk goes on from tag to
tag, so that a schema is expanded for the first tag that reaches it. -/
def walkTags (description : Description) (limit : Nat) (visited : List Text) :
    List (Text × List OperationTypes) →
      Reported (List (Text × List PropertyAlias) × List Text)
  | [] => pure ([], visited)
  | (tag, operations) :: rest => do
    let walk := operations.foldl
      (fun walk types => Walk.fromRoots description limit types.rootSchemas walk)
      (⟨visited, [], []⟩ : Walk)
    let aliases ← (⟨walk.aliases, walk.warnings⟩ : Reported (List PropertyAlias))
    let (more, visited) ← walkTags description limit walk.visited rest
    return ((tag, aliases) :: more, visited)

def propertyTypes (target : Interface) (config : Config) (state : RunState) : RunState :=
  let found := walkTags target.description config.maxSchemaDepth state.visited target.operations
  let aliases := found.value.1
  let counted : RunState :=
    { state with
      stats := (state.stats.countAliases
        (aliases.flatMap fun (_, aliases) => aliases.map PropertyAlias.toAlias)).warn
          found.warnings
      visited := found.value.2 }
  counted.add (aliases.map fun (tag, aliases) =>
    target.artifact tag .propertyTypes
      (Module.propertyTypes target.server tag aliases config.imports))

def tags (target : Interface) : List Text := target.operations.map (·.1)

def operationsOf (target : Interface) (tag : Text) : List OperationTypes :=
  (target.operations.lookup tag).getD []

/-- The endpoints of a tag, planned unless they have been planned before, and all that is planned
then. -/
def endpointsOf (target : Interface) (planned : List (Text × List Endpoint)) (tag : Text) :
    List Endpoint × List (Text × List Endpoint) :=
  match planned.lookup tag with
  | some endpoints => (endpoints, planned)
  | none =>
    let endpoints := Endpoint.plan (target.operationsOf tag)
    (endpoints, (tag, endpoints) :: planned)

/-- The endpoints of tags in turn. -/
def planTags (target : Interface) (planned : List (Text × List Endpoint)) :
    List Text → List (Text × List Endpoint) × List (Text × List Endpoint)
  | [] => ([], planned)
  | tag :: rest =>
    let (endpoints, planned) := target.endpointsOf planned tag
    let (more, planned) := target.planTags planned rest
    ((tag, endpoints) :: more, planned)

def endpoints (target : Interface) (state : RunState) : RunState :=
  let (found, planned) := target.planTags state.planned target.tags
  let count := (found.flatMap fun (_, endpoints) => endpoints).length
  let counted : RunState :=
    { state with
      planned
      stats := { state.stats with
        endpointsGenerated := state.stats.endpointsGenerated + count } }
  counted.add (found.map fun (tag, endpoints) =>
    target.artifact tag .endpoints (Module.endpoints endpoints))

/-- The wrapper modules of tags in turn, and the endpoints planned by then. -/
def apisOf (target : Interface) (config : Config) (planned : List (Text × List Endpoint)) :
    List Text → Except StepError (List (Text × DomainApi)) × List (Text × List Endpoint)
  | [] => (.ok [], planned)
  | tag :: rest =>
    let (endpoints, planned) := target.endpointsOf planned tag
    match DomainApi.generate target.server tag (target.operationsOf tag) endpoints config with
    | .error error => (.error (.api tag error), planned)
    | .ok api =>
      let (more, planned) := target.apisOf config planned rest
      (more.map ((tag, api) :: ·), planned)

def domainApi (target : Interface) (config : Config) (state : RunState) :
    RunState × Option StepError :=
  let (found, planned) := target.apisOf config state.planned target.tags
  match found with
  | .error error => ({ state with planned }, some error)
  | .ok apis =>
    let count := (apis.flatMap fun (_, api) => api.wrappers).length
    let counted : RunState :=
      { state with
        planned
        stats := { state.stats with
          wrappersGenerated := state.stats.wrappersGenerated + count } }
    (counted.add (apis.map fun (tag, api) => target.artifact tag .domainApi api.content), none)

/-- The hook modules of tags, read from the wrapper modules there are; the warnings raised on the
way are kept when a tag fails. -/
def hooksOf (target : Interface) (config : Config) (artifacts : ArtifactSet) :
    List (Text × List OperationTypes) →
      List Warning × Except StepError (List (Text × HookModules))
  | [] => ([], .ok [])
  | (tag, operations) :: rest =>
    match artifacts.content? target.server (some tag) .domainApi with
    | none =>
      let (warnings, found) := target.hooksOf config artifacts rest
      (.noApiToRead target.server tag :: warnings, found)
    | some source =>
      match HookModules.generate source operations config with
      | .error error => ([], .error (.hooks tag error))
      | .ok modules =>
        let (warnings, found) := target.hooksOf config artifacts rest
        (modules.warnings ++ warnings, found.map ((tag, modules.value) :: ·))

def hookArtifacts (target : Interface) (found : List (Text × HookModules)) : List Artifact :=
  found.flatMap fun (tag, modules) =>
    [target.artifact tag .queryHooks modules.queries,
      target.artifact tag .mutationHooks modules.mutations]

def hooks (target : Interface) (config : Config) (state : RunState) :
    RunState × Option StepError :=
  let (warnings, found) := target.hooksOf config state.artifacts target.operations
  let warned : RunState := { state with stats := state.stats.warn warnings }
  match found with
  | .error error => (warned, some error)
  | .ok modules =>
    let queries := (modules.flatMap fun (_, found) => found.queryHooks).length
    let mutations := (modules.flatMap fun (_, found) => found.mutationHooks).length
    let counted : RunState :=
      { warned with
        stats := { warned.stats with
          queryHooksGenerated := warned.stats.queryHooksGenerated + queries
          mutationHooksGenerated := warned.stats.mutationHooksGenerated + mutations } }
    (counted.add (target.hookArtifacts modules), none)

/-- Carries out the step of a feature. -/
def perform (target : Interface) (config : Config) (state : RunState) :
    Feature → RunState × Option StepError
  | .tagList => (target.tagList state, none)
  | .validatedTypes => (target.validatedTypes config.imports state, none)
  | .propertyTypes => (target.propertyTypes config state, none)
  | .endpoints => (target.endpoints state, none)
  | .domainApi => target.domainApi config state
  | .hooks => target.hooks config state

end Interface

namespace RunSummary

def start (server : Text) : RunSummary := ⟨server, [], [], [], none⟩

def succeed (summary : RunSummary) (step : Step) : RunSummary :=
  { summary with successes := summary.successes ++ [step] }

def skip (summary : RunSummary) (step : Step) : RunSummary :=
  { summary with skipped := summary.skipped ++ [step] }

def fail (summary : RunSummary) (failure : StepFailure) : RunSummary :=
  { summary with failures := summary.failures ++ [failure] }

end RunSummary

/-- Takes one later step, unless its feature is switched off. -/
def Interface.takeStep (target : Interface) (config : Config) (step : Step) (feature : Feature)
    (reached : RunSummary × RunState) : RunSummary × RunState :=
  let (summary, state) := reached
  if config.isEnabled feature then
    match target.perform config state feature with
    | (after, none) => (summary.succeed step, after)
    | (after, some error) =>
      (summary.fail ⟨step, error.message⟩,
        { after with stats := after.stats.warn [.stepFailed step error.message] })
  else (summary.skip step, state)

/-- The later steps with their features, in order. -/
def laterSteps : List (Step × Feature) :=
  Step.all.filterMap fun step => step.feature?.map fun feature => (step, feature)

/-- Where a run stands after the required steps: aborted, or with an interface. -/
inductive Prepared
  | aborted (successes : List Step) (failure : StepFailure) (stats : Stats)
  | ready (successes : List Step) (target : Interface) (stats : Stats)

/-- Takes the required steps. The source is the text of the description, or why it could not be
read. -/
def prepare (server : Server) (source : Except Text Text) : Prepared :=
  match source with
  | .error error => .aborted [] ⟨.loadDescription, error⟩ .zero
  | .ok text =>
    let loaded := Description.ofText text
    let model := loaded.value.model
    let warned := Stats.zero.warn (loaded.warnings ++ model.warnings)
    match model.value with
    | .error duplicate =>
      .aborted [.loadDescription] ⟨.extractModel, duplicate.message⟩ warned
    | .ok entries =>
      let classification := Classification.ofEntries server.excludedTag entries
      let operations := Interface.typed loaded.value classification entries
      let stats := { warned with
        schemasDiscovered := loaded.value.schemaNames.length
        pathsDiscovered := entries.length
        pathsExcluded := classification.excluded.length
        tagsClassified := classification.tags.length
        operationsExtracted := Interface.countOperations operations.value }
      .ready [.loadDescription, .extractModel, .classifyTags]
        ⟨server.name, loaded.value, classification, operations.value⟩
        (stats.warn operations.warnings)

/-- Runs all steps for a server. The seed holds files from before, such as wrapper modules that
the hooks are to be made from. -/
def run (config : Config) (server : Server) (source : Except Text Text) (seed : ArtifactSet) :
    RunOutcome :=
  match prepare server source with
  | .aborted successes failure stats =>
    ⟨{ RunSummary.start server.name with successes, aborted := some failure }, seed, stats⟩
  | .ready successes target stats =>
    let (summary, state) := laterSteps.foldl
      (fun reached (step, feature) => target.takeStep config step feature reached)
      ({ RunSummary.start server.name with successes }, .start seed stats)
    ⟨summary, state.artifacts, state.stats⟩

end TypedClient
