import TypedClient.Proofs.Module.Imports
import TypedClient.Proofs.Run.Failure

/-!
What the files of a run import from each other. Main statement: after a run in which every step was
taken and none failed, each file of a tag imports what the other files of the tag declare.
-/

namespace TypedClient

open Text

namespace Interface

variable {target : Interface} {config : Config} {artifacts : ArtifactSet}
  {reached : RunSummary × RunState}

section Clean

/-- A step that is taken and fails is recorded. -/
theorem failures_takeStep (target : Interface) (config : Config) (step : Step) (feature : Feature)
    (reached : RunSummary × RunState) :
    (target.takeStep config step feature reached).1.failures = reached.1.failures ++
      if config.isEnabled feature = true then
        ((target.perform config reached.2 feature).2.map
          fun error => ⟨step, error.message⟩).toList
      else [] := by
  obtain ⟨summary, state⟩ := reached
  unfold takeStep
  dsimp only
  split
  · generalize target.perform config state feature = result
    obtain ⟨after, _ | error⟩ := result
    · exact (List.append_nil _).symm
    · rfl
  · exact (List.append_nil _).symm

theorem failures_takeSteps (target : Interface) (config : Config) (steps : List (Step × Feature))
    (reached : RunSummary × RunState) :
    reached.1.failures <+: (target.takeSteps config steps reached).1.failures := by
  induction steps generalizing reached with
  | nil => exact List.prefix_refl _
  | cons taken rest ih =>
    have step := target.failures_takeStep config taken.1 taken.2 reached
    exact (step ▸ List.prefix_append _ _).trans (ih (target.takeStep config taken.1 taken.2 reached))

/-- Where no failure is recorded in the end, no step that is switched on has failed. -/
theorem perform_of_clean {step : Step} {feature : Feature}
    (enabled : config.isEnabled feature = true) (earlier later : List (Step × Feature))
    (clean : (target.takeSteps config (earlier ++ (step, feature) :: later) reached).1.failures =
      []) :
    (target.perform config (target.takeSteps config earlier reached).2 feature).2 = none := by
  let before := target.takeSteps config earlier reached
  have split : target.takeSteps config (earlier ++ (step, feature) :: later) reached =
      target.takeSteps config later (target.takeStep config step feature before) := by
    unfold before takeSteps
    rw [List.foldl_append, List.foldl_cons]
  have here := target.failures_takeSteps config later (target.takeStep config step feature before)
  rw [← split, clean, List.prefix_nil, failures_takeStep, if_pos enabled,
    List.append_eq_nil_iff] at here
  simpa using here.2

/-- A run over tags in which no step fails has templates without unknown placeholders. -/
theorem unknown?_of_clean (enabled : config.isEnabled .domainApi = true)
    (clean : (target.takeSteps config laterSteps reached).1.failures = [])
    (tagged : target.tags ≠ []) : config.templates.unknown? = none := by
  have split : laterSteps = [(.tagList, .tagList), (.validatedTypes, .validatedTypes),
      (.propertyTypes, .propertyTypes), (.endpoints, .endpoints)] ++
        (.domainApi, .domainApi) :: [(.hooks, .hooks)] := rfl
  rw [split] at clean
  have made := perform_of_clean enabled _ _ clean
  cases present : config.templates.unknown? with
  | none => rfl
  | some unknown =>
    obtain ⟨tag, rest, tags⟩ := List.exists_cons_of_ne_nil tagged
    unfold perform domainApi at made
    rw [tags, apisOf_unknown present] at made
    contradiction

end Clean

section Files

/-- One file of a kind for each tag. -/
def filesOf (target : Interface) (kind : ArtifactKind) (text : List OperationTypes → Text → Text) :
    List Artifact :=
  target.operations.map fun (tag, operations) => target.artifact tag kind (text operations tag)

variable {kind : ArtifactKind} {text : List OperationTypes → Text → Text} {tag : Text}
  {operations : List OperationTypes}

theorem filter_filesOf :
    (target.filesOf kind text).filter (fun file => file.kind = kind) = target.filesOf kind text := by
  apply List.filter_eq_self.mpr
  intro file listed
  obtain ⟨tagged, _, rfl⟩ := List.mem_map.mp listed
  exact decide_eq_true rfl

theorem content?_filesOf (orderly : target.Orderly) (set : ArtifactSet)
    (listed : (tag, operations) ∈ target.operations) :
    (set.putAll (target.filesOf kind text)).content? target.server (some tag) kind =
      some (text operations tag) := by
  let found := target.operations.map fun tagged => (tagged.1, text tagged.2 tagged.1)
  have distinct : (found.map (·.1)).Nodup := by
    have keys : found.map (·.1) = target.tags := by
      unfold found
      rw [List.map_map]
      rfl
    rw [keys]
    exact orderly.tags.nodup
  have files : target.filesOf kind text =
      found.map fun entry => ⟨target.server, some entry.1, kind, entry.2⟩ := by
    unfold found
    rw [List.map_map]
    rfl
  rw [files]
  exact set.content?_putAll_tagged distinct (List.mem_map.mpr ⟨(tag, operations), listed, rfl⟩)

theorem kept_nil (target : Interface) : target.Kept [] := fun _ _ listed => nomatch listed

theorem written_validatedTypes :
    target.written config (.start artifacts .zero) .validatedTypes =
      target.filesOf .validatedTypes fun operations tag =>
        Module.validatedTypes target.server tag operations config.imports := rfl

theorem written_endpoints (orderly : target.Orderly) :
    target.written config (.start artifacts .zero) .endpoints =
      target.filesOf .endpoints fun operations _ => Module.endpoints (Endpoint.plan operations) := by
  dsimp only [written, RunState.start]
  rw [(planTags_kept target.kept_nil target.tags).1, tags, List.map_map, List.map_map]
  apply List.map_congr_left
  intro tagged listed
  dsimp only [Function.comp]
  rw [orderly.operationsOf_of_mem listed]

theorem apisOf_known (orderly : target.Orderly) (known : config.templates.unknown? = none) :
    (target.apisOf config [] target.tags).1 = .ok (target.operations.map
      fun tagged => (tagged.1, DomainApi.ofPlan config tagged.2)) := by
  have each : ∀ tagged ∈ target.operations,
      target.apiOf config tagged.1 = .ok (tagged.1, DomainApi.ofPlan config tagged.2) := by
    intro tagged listed
    rw [apiOf, DomainApi.generate_plan target.server tagged.1 (orderly.nodup_ids tagged.1) known,
      orderly.operationsOf_of_mem listed]
  rw [(apisOf_kept target.kept_nil target.tags).1, tags]
  generalize target.operations = operations at each
  induction operations with
  | nil => rfl
  | cons tagged rest ih =>
    rw [List.map_cons, List.mapM_cons, each tagged List.mem_cons_self,
      ih fun other listed => each other (List.mem_cons_of_mem _ listed)]
    rfl

theorem written_domainApi (orderly : target.Orderly) (known : config.templates.unknown? = none) :
    target.written config (.start artifacts .zero) .domainApi =
      target.filesOf .domainApi fun operations _ => (DomainApi.ofPlan config operations).content := by
  dsimp only [written, RunState.start]
  rw [apisOf_known orderly known]
  dsimp only
  rw [List.map_map]
  rfl

/-- The hook modules that are made from the wrapper modules that are there. -/
theorem hooksOf_known (known : config.templates.unknown? = none)
    (source : List OperationTypes → Text) {operations : List (Text × List OperationTypes)}
    (sources : ∀ tagged ∈ operations, artifacts.content? target.server (some tagged.1) .domainApi =
      some (source tagged.2)) :
    (target.hooksOf config artifacts operations).2 = .ok (operations.map
      fun tagged => (tagged.1, HookModules.madeFrom config tagged.2 (source tagged.2))) := by
  induction operations with
  | nil => rfl
  | cons tagged rest ih =>
    obtain ⟨tag, operations⟩ := tagged
    obtain ⟨modules, made, value⟩ :=
      HookModules.generate_known known operations (source operations)
    have later := ih fun other listed => sources other (List.mem_cons_of_mem _ listed)
    have here := sources (tag, operations) List.mem_cons_self
    dsimp only at here
    rw [hooksOf, here]
    dsimp only
    rw [made]
    dsimp only
    rw [later, value]
    rfl

theorem filter_hookArtifacts (found : List (Text × HookModules)) :
    (target.hookArtifacts found).filter (fun file => file.kind = .queryHooks) =
        found.map (fun entry => target.artifact entry.1 .queryHooks entry.2.queries) ∧
      (target.hookArtifacts found).filter (fun file => file.kind = .mutationHooks) =
        found.map (fun entry => target.artifact entry.1 .mutationHooks entry.2.mutations) := by
  induction found with
  | nil => exact ⟨rfl, rfl⟩
  | cons entry rest ih =>
    have step : target.hookArtifacts (entry :: rest) =
        target.artifact entry.1 .queryHooks entry.2.queries ::
          target.artifact entry.1 .mutationHooks entry.2.mutations ::
            target.hookArtifacts rest := rfl
    rw [step, List.map_cons, List.map_cons, ← ih.1, ← ih.2]
    exact ⟨rfl, rfl⟩

end Files

end Interface

section Run

variable {config : Config} {server : Server} {source : Except Text Text} {seed : ArtifactSet}
  {target : Interface} {successes : List Step} {stats : Stats}

/-- The files of a tag that import from each other. -/
structure TagFiles (config : Config) (server tag : Text) (operations : List OperationTypes)
    (artifacts : ArtifactSet) : Prop where
  endpoints : artifacts.content? server (some tag) .endpoints =
    some (Module.endpoints (Endpoint.plan operations))
  types : artifacts.content? server (some tag) .validatedTypes =
    some (Module.validatedTypes server tag operations config.imports)
  api : artifacts.content? server (some tag) .domainApi =
    some (DomainApi.ofPlan config operations).content
  queries : artifacts.content? server (some tag) .queryHooks =
    some (HookModules.madeFrom config operations (DomainApi.ofPlan config operations).content).queries
  mutations : artifacts.content? server (some tag) .mutationHooks =
    some (HookModules.madeFrom config operations
      (DomainApi.ofPlan config operations).content).mutations

/-- What a run with everything switched on leaves of a kind. -/
theorem only_run (enabled : config.disabled = [])
    (prepared : prepare server source = .ready successes target stats) (seed : ArtifactSet)
    (kind : ArtifactKind) :
    (run config server source seed).artifacts.only kind = (seed.only kind).putAll
      ((target.written config (.start (run config server source seed).artifacts .zero)
        kind.feature).filter fun file => file.kind = kind) := by
  have same : runWithout [] config server source seed =
      (run config server source seed).artifacts := by
    unfold runWithout
    rw [← enabled]
  have left := only_runWithout [] config server source seed kind
  rw [prepared, same] at left
  dsimp only at left
  rwa [if_neg List.not_mem_nil] at left

/-- What stands in a file of a kind that is written for each tag. -/
theorem content?_run (enabled : config.disabled = [])
    (prepared : prepare server source = .ready successes target stats) {kind : ArtifactKind}
    {text : List OperationTypes → Text → Text} {tag : Text} {operations : List OperationTypes}
    (written : (target.written config (.start (run config server source seed).artifacts .zero)
      kind.feature).filter (fun file => file.kind = kind) = target.filesOf kind text)
    (listed : (tag, operations) ∈ target.operations) :
    (run config server source seed).artifacts.content? server.name (some tag) kind =
      some (text operations tag) := by
  obtain ⟨orderly, own⟩ := orderly_of_prepare prepared
  rw [← ArtifactSet.content?_only, only_run enabled prepared, written, ← own]
  exact Interface.content?_filesOf orderly _ listed

theorem unknown?_of_isClean (enabled : config.disabled = [])
    (prepared : prepare server source = .ready successes target stats)
    (clean : (run config server source seed).summary.failures = []) (tagged : target.tags ≠ []) :
    config.templates.unknown? = none := by
  have taken : (run config server source seed).summary.failures =
      (target.takeSteps config laterSteps
        ({ RunSummary.start server.name with successes }, .start seed stats)).1.failures := by
    unfold run
    rw [prepared]
    rfl
  rw [taken] at clean
  refine Interface.unknown?_of_clean ?_ clean tagged
  rw [Config.isEnabled, enabled]
  rfl

/-- The files of a tag are made from its operations, and the hooks from its wrappers. -/
theorem tagFiles_run (enabled : config.disabled = [])
    (prepared : prepare server source = .ready successes target stats)
    (known : config.templates.unknown? = none) {tag : Text} {operations : List OperationTypes}
    (listed : (tag, operations) ∈ target.operations) :
    TagFiles config server.name tag operations (run config server source seed).artifacts := by
  obtain ⟨orderly, own⟩ := orderly_of_prepare prepared
  let artifacts := (run config server source seed).artifacts
  let api (operations : List OperationTypes) : Text := (DomainApi.ofPlan config operations).content
  let hooks (operations : List OperationTypes) : HookModules :=
    HookModules.madeFrom config operations (api operations)
  have endpoints : (target.written config (.start artifacts .zero) .endpoints).filter
      (fun file => file.kind = .endpoints) = target.filesOf .endpoints
        fun operations _ => Module.endpoints (Endpoint.plan operations) := by
    rw [Interface.written_endpoints orderly, Interface.filter_filesOf]
  have types : (target.written config (.start artifacts .zero) .validatedTypes).filter
      (fun file => file.kind = .validatedTypes) = target.filesOf .validatedTypes
        fun operations tag => Module.validatedTypes target.server tag operations config.imports := by
    rw [Interface.written_validatedTypes, Interface.filter_filesOf]
  have apis : (target.written config (.start artifacts .zero) .domainApi).filter
      (fun file => file.kind = .domainApi) = target.filesOf .domainApi
        fun operations _ => api operations := by
    rw [Interface.written_domainApi orderly known, Interface.filter_filesOf]
  have sources : ∀ tagged ∈ target.operations,
      artifacts.content? target.server (some tagged.1) .domainApi = some (api tagged.2) := by
    intro tagged member
    rw [own]
    exact content?_run enabled prepared apis member
  have made : target.written config (.start artifacts .zero) .hooks = target.hookArtifacts
      (target.operations.map fun tagged => (tagged.1, hooks tagged.2)) := by
    dsimp only [Interface.written, RunState.start]
    rw [Interface.hooksOf_known known api sources]
  have queries : (target.written config (.start artifacts .zero) .hooks).filter
      (fun file => file.kind = .queryHooks) = target.filesOf .queryHooks
        fun operations _ => (hooks operations).queries := by
    rw [made, (Interface.filter_hookArtifacts _).1, List.map_map]
    rfl
  have mutations : (target.written config (.start artifacts .zero) .hooks).filter
      (fun file => file.kind = .mutationHooks) = target.filesOf .mutationHooks
        fun operations _ => (hooks operations).mutations := by
    rw [made, (Interface.filter_hookArtifacts _).2, List.map_map]
    rfl
  exact {
    endpoints := content?_run enabled prepared endpoints listed
    types := own ▸ content?_run enabled prepared types listed
    api := content?_run enabled prepared apis listed
    queries := content?_run enabled prepared queries listed
    mutations := content?_run enabled prepared mutations listed }

/-- After a run with everything switched on in which no step fails, the files of a tag are made from
its operations, and what they import from each other is declared. -/
theorem imports_resolve (config : Config) (server : Server) (source : Except Text Text)
    (seed : ArtifactSet) (enabled : config.disabled = [])
    (clean : (run config server source seed).summary.isClean = true) :
    ∃ successes target stats, prepare server source = .ready successes target stats ∧
      ∀ tag operations, (tag, operations) ∈ target.operations →
        TagFiles config server.name tag operations (run config server source seed).artifacts ∧
          Module.Resolved config server.name tag operations := by
  obtain ⟨ongoing, harmless⟩ : (run config server source seed).summary.aborted = none ∧
      (run config server source seed).summary.failures = [] := by
    simpa [RunSummary.isClean, RunSummary.isAborted] using clean
  obtain ⟨successes, target, stats, prepared⟩ := prepare_of_not_aborted ongoing
  refine ⟨successes, target, stats, prepared, fun tag operations listed => ?_⟩
  have tagged : target.tags ≠ [] := List.ne_nil_of_mem (List.mem_map_of_mem listed)
  have known := unknown?_of_isClean enabled prepared harmless tagged
  exact ⟨tagFiles_run enabled prepared known listed,
    Module.resolved config server.name tag (known_of_prepare prepared (tag, operations) listed)⟩

/-- The operations of each tag that the required steps hand on. -/
def Prepared.operations : Prepared → List (Text × List OperationTypes)
  | .aborted .. => []
  | .ready _ target _ => target.operations

/-- Two operations over a path with a placeholder, which send and return a schema. -/
def clubText : Text :=
  "interface paths \x7b '/clubs/\x7bid\x7d': \x7b " ++
      "get: operations['read']; put: operations['save'] \x7d \x7d\n" ++
    "interface components \x7b schemas: \x7b Club: \x7b name: string \x7d \x7d \x7d\n" ++
    "interface operations \x7b read: \x7b parameters: \x7b path: \x7b id: string \x7d; " ++
      "header: \x7b 'x-trace': string \x7d \x7d; responses: \x7b 200: \x7b content: \x7b " ++
      "'application/json': components['schemas']['Club'] \x7d \x7d \x7d \x7d; " ++
      "save: \x7b requestBody: \x7b content: \x7b " ++
      "'application/json': components['schemas']['Club'] \x7d \x7d; " ++
      "responses: \x7b 204: \x7b content?: never \x7d \x7d \x7d \x7d"

/-- No step fails over it, and nothing in it breaks a line. -/
theorem clean_club :
    (run .standard ⟨"main", none⟩ (.ok clubText) .empty).summary.isClean = true ∧
      (prepare ⟨"main", none⟩ (.ok clubText)).operations.map
        (fun tagged => (tagged.1, tagged.2.map (·.id))) =
          ([("clubs", ["read", "save"])] : List (Text × List Text)) ∧
      ∀ tagged ∈ (prepare ⟨"main", none⟩ (.ok clubText)).operations,
        DomainApi.Unbroken .standard tagged.2 ∧
          ∀ types ∈ tagged.2, '\n' ∉ types.path ∧ '\n' ∉ types.id := by
  decide +kernel

theorem club_imports_resolve :
    let outcome := run .standard ⟨"main", none⟩ (.ok clubText) .empty
    let operations := (prepare ⟨"main", none⟩ (.ok clubText)).operations
    Config.standard.disabled = [] ∧ outcome.summary.isClean = true ∧
      operations.map (fun tagged => (tagged.1, tagged.2.map (·.id))) =
        ([("clubs", ["read", "save"])] : List (Text × List Text)) ∧
      ∀ tagged ∈ operations,
        (DomainApi.Unbroken .standard tagged.2 ∧
          ∀ types ∈ tagged.2, '\n' ∉ types.path ∧ '\n' ∉ types.id) ∧
        TagFiles .standard "main" tagged.1 tagged.2 outcome.artifacts ∧
          Module.Resolved .standard "main" tagged.1 tagged.2 := by
  obtain ⟨clean, listed, unbroken⟩ := clean_club
  obtain ⟨successes, target, stats, prepared, resolve⟩ :=
    imports_resolve .standard ⟨"main", none⟩ (.ok clubText) .empty rfl clean
  refine ⟨rfl, clean, listed, fun tagged member => ⟨unbroken tagged member, ?_⟩⟩
  rw [prepared] at member
  exact resolve tagged.1 tagged.2 member

/-- A header whose quoted name goes on over lines, one of which looks like the export of a wrapper. -/
def ghostText : Text :=
  "interface paths \x7b '/teams': \x7b get: operations['list'] \x7d \x7d\n" ++
    "interface components \x7b schemas: \x7b \x7d \x7d\n" ++
    "interface operations \x7b list: \x7b parameters: \x7b header: \x7b \"x\\\n" ++
      "\x7d;\\\nexport const fetchGhost = async () => \x7b\\\n" ++
      "\": string \x7d \x7d; responses: \x7b 204: \x7b content?: never \x7d \x7d \x7d \x7d\n"

/-- A hook is made for a wrapper that is none: no step fails, and what is imported is not declared. -/
theorem ghost_imported :
    let outcome := run .standard ⟨"main", none⟩ (.ok ghostText) .empty
    outcome.summary.isClean = true ∧
      (prepare ⟨"main", none⟩ (.ok ghostText)).operations.map (fun tagged =>
        (tagged.1, (DomainApi.ofPlan .standard tagged.2).wrappers.map (·.name))) =
          ([("teams", ["fetchTeams"])] : List (Text × List Text)) ∧
      (outcome.artifacts.content? "main" (some "teams") .queryHooks).any (fun text =>
        decide ("import \x7b fetchGhost, fetchTeams \x7d from './api';".toList ∈ lines text)) =
          true := by
  decide +kernel

end Run

end TypedClient
