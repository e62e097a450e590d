import TypedClient.Proofs.Module.EndpointPairing
import TypedClient.Proofs.Run.Interference
import TypedClient.Proofs.Run.Journal
import TypedClient.Proofs.Run.Prepared

/-!
What is left of a step that fails. Wrappers and hooks are made tag by tag and counted on the way.
Main statement: a step that fails has written and counted nothing. Every operation has an endpoint of
its own, so that what remains to fail is an unknown placeholder in a template, and that fails before
anything is counted.
-/

namespace TypedClient

open Text

/-- The statistics without their warnings. -/
def Stats.counters (stats : Stats) : Stats := { stats with warnings := [] }

/-- Of a step that came to `after` there is no trace but warnings. -/
structure RunState.OnlyWarned (state after : RunState) (warnings : List Warning) : Prop where
  artifacts : after.artifacts = state.artifacts
  counters : after.stats.counters = state.stats.counters
  warnings : after.stats.warnings = state.stats.warnings ++ warnings

namespace Interface

variable {target : Interface} {config : Config} {state : RunState} {error : StepError}

section TagByTag

/-- Makes the wrapper modules of tags in turn and counts the wrappers on the way. -/
def apiByTag (target : Interface) (config : Config) (state : RunState) :
    List Text → Except StepError (List Artifact) × RunState
  | [] => (.ok [], state)
  | tag :: rest =>
    let (endpoints, planned) := target.endpointsOf state.planned tag
    match DomainApi.generate target.server tag (target.operationsOf tag) endpoints config with
    | .error error => (.error (.api tag error), { state with planned })
    | .ok api =>
      let counted : RunState :=
        { state with
          planned
          stats := { state.stats with
            wrappersGenerated := state.stats.wrappersGenerated + api.wrappers.length } }
      let (more, after) := target.apiByTag config counted rest
      (more.map (target.artifact tag .domainApi api.content :: ·), after)

/-- Counts hooks, and raises the warnings there were for them. -/
def countHooks (stats : Stats) (warnings : List Warning) (queries mutations : Nat) : Stats :=
  let warned := stats.warn warnings
  { warned with
    queryHooksGenerated := warned.queryHooksGenerated + queries
    mutationHooksGenerated := warned.mutationHooksGenerated + mutations }

/-- Makes the hook modules of tags in turn and counts the hooks on the way. -/
def hooksByTag (target : Interface) (config : Config) (artifacts : ArtifactSet) (stats : Stats) :
    List (Text × List OperationTypes) → Except StepError (List Artifact) × Stats
  | [] => (.ok [], stats)
  | (tag, operations) :: rest =>
    match artifacts.content? target.server (some tag) .domainApi with
    | none =>
      target.hooksByTag config artifacts (stats.warn [.noApiToRead target.server tag]) rest
    | some source =>
      match HookModules.generate source operations config with
      | .error error => (.error (.hooks tag error), stats)
      | .ok modules =>
        let counted := countHooks stats modules.warnings modules.value.queryHooks.length
          modules.value.mutationHooks.length
        let (more, after) := target.hooksByTag config artifacts counted rest
        (more.map (target.hookArtifacts [(tag, modules.value)] ++ ·), after)

/-- Adds the files of all tags, or none where a tag failed. -/
def finish : Except StepError (List Artifact) × RunState → RunState × Option StepError
  | (.error error, state) => (state, some error)
  | (.ok files, state) => (state.add files, none)

end TagByTag

section Api

variable {planned : List (Text × List Endpoint)}

/-- Where the templates hold no unknown placeholder, no tag fails. -/
theorem apisOf_ok (orderly : target.Orderly) (kept : target.Kept planned)
    (known : config.templates.unknown? = none) (tags : List Text) :
    ∃ apis, (target.apisOf config planned tags).1 = .ok apis := by
  have each : ∀ tag ∈ tags, ∃ api, target.apiOf config tag = .ok api ∧ True := by
    intro tag _
    rw [apiOf, DomainApi.generate_plan target.server tag (orderly.nodup_ids tag) known]
    exact ⟨_, rfl, trivial⟩
  obtain ⟨apis, made, _⟩ := mapM_ok each
  exact ⟨apis, (apisOf_kept kept tags).1.trans made⟩

/-- Where they hold one, the first tag fails. -/
theorem apisOf_unknown {unknown : UnknownPlaceholder}
    (present : config.templates.unknown? = some unknown) (planned : List (Text × List Endpoint))
    (tag : Text) (rest : List Text) :
    target.apisOf config planned (tag :: rest) =
      (.error (.api tag (.template unknown)), (target.endpointsOf planned tag).2) := by
  rw [apisOf]
  simp only [DomainApi.generate_of_unknown _ _ _ _ present]

theorem apiByTag_unknown {unknown : UnknownPlaceholder}
    (present : config.templates.unknown? = some unknown) (state : RunState)
    (tag : Text) (rest : List Text) :
    target.apiByTag config state (tag :: rest) =
      (.error (.api tag (.template unknown)),
        { state with planned := (target.endpointsOf state.planned tag).2 }) := by
  rw [apiByTag]
  simp only [DomainApi.generate_of_unknown _ _ _ _ present]

/-- Counted on the way or in the end, there are the same wrappers. -/
theorem apiByTag_ok {tags : List Text} {apis : List (Text × DomainApi)}
    (made : (target.apisOf config state.planned tags).1 = .ok apis) :
    target.apiByTag config state tags =
      (.ok (apis.map fun (tag, api) => target.artifact tag .domainApi api.content),
        { state with
          planned := (target.apisOf config state.planned tags).2
          stats := { state.stats with
            wrappersGenerated := state.stats.wrappersGenerated +
              (apis.flatMap fun (_, api) => api.wrappers).length } }) := by
  induction tags generalizing state apis with
  | nil =>
    cases made
    rfl
  | cons tag rest ih =>
    rw [apisOf] at made ⊢
    rw [apiByTag]
    generalize target.endpointsOf state.planned tag = result at made ⊢
    obtain ⟨endpoints, planned⟩ := result
    dsimp only at made ⊢
    cases generated : DomainApi.generate target.server tag (target.operationsOf tag) endpoints
        config with
    | error error =>
      rw [generated] at made
      contradiction
    | ok api =>
      rw [generated] at made
      dsimp only at made ⊢
      cases later : (target.apisOf config planned rest).1 with
      | error error =>
        rw [later] at made
        contradiction
      | ok more =>
        rw [later] at made
        cases made
        rw [ih later]
        simp [Except.map, Nat.add_assoc]

/-- The step that writes the wrapper modules goes from tag to tag. -/
theorem domainApi_eq_finish (orderly : target.Orderly) (kept : target.Kept state.planned) :
    target.domainApi config state = finish (target.apiByTag config state target.tags) := by
  unfold domainApi
  cases present : config.templates.unknown? with
  | none =>
    obtain ⟨apis, made⟩ := apisOf_ok orderly kept present target.tags
    rw [apiByTag_ok made]
    generalize target.apisOf config state.planned target.tags = result at made
    obtain ⟨_, planned⟩ := result
    cases made
    rfl
  | some unknown =>
    cases target.tags with
    | nil => rfl
    | cons tag rest =>
      rw [apisOf_unknown present, apiByTag_unknown present]
      rfl

theorem onlyWarned_domainApi (orderly : target.Orderly) (kept : target.Kept state.planned)
    (failed : (target.domainApi config state).2 = some error) :
    state.OnlyWarned (target.domainApi config state).1 [] ∧
      ∃ unknown tag, config.templates.unknown? = some unknown ∧
        error = .api tag (.template unknown) := by
  unfold domainApi at failed ⊢
  cases present : config.templates.unknown? with
  | none =>
    obtain ⟨apis, made⟩ := apisOf_ok orderly kept present target.tags
    generalize target.apisOf config state.planned target.tags = result at made failed
    obtain ⟨_, planned⟩ := result
    cases made
    contradiction
  | some unknown =>
    cases tags : target.tags with
    | nil =>
      rw [tags] at failed
      contradiction
    | cons tag rest =>
      rw [tags, apisOf_unknown present] at failed
      rw [apisOf_unknown present]
      cases failed
      exact ⟨⟨rfl, rfl, (List.append_nil _).symm⟩, unknown, tag, rfl, rfl⟩

/-- Whatever has been planned before, the endpoints for a tag are planned from its operations, and
each operation is paired with its own. -/
theorem paired_endpointsOf (orderly : target.Orderly) (kept : target.Kept planned) (tag : Text) :
    let endpoints := (target.endpointsOf planned tag).1
    List.Forall₂ Endpoint.IsFor endpoints (target.operationsOf tag) ∧
      (target.operationsOf tag).mapM (DomainApi.endpointFor target.server tag endpoints) =
        .ok endpoints := by
  intro endpoints
  have planned : endpoints = Endpoint.plan (target.operationsOf tag) := (endpointsOf_kept kept tag).1
  rw [planned]
  exact ⟨Endpoint.isFor_plan _,
    DomainApi.mapM_endpointFor_plan target.server tag (orderly.nodup_ids tag)⟩

end Api

section Hooks

variable {artifacts : ArtifactSet} {operations : List (Text × List OperationTypes)}

/-- The warnings for tags without a wrapper module. -/
def unread (target : Interface) (tags : List Text) : List Warning :=
  tags.map (.noApiToRead target.server)

theorem generate_ok (source : Text) (operations : List OperationTypes)
    (known : config.templates.unknown? = none) :
    ∃ modules, HookModules.generate source operations config = .ok modules := by
  unfold HookModules.generate
  rw [known]
  exact ⟨_, rfl⟩

theorem generate_unknown {unknown : UnknownPlaceholder} (source : Text)
    (operations : List OperationTypes) (present : config.templates.unknown? = some unknown) :
    HookModules.generate source operations config = .error unknown := by
  unfold HookModules.generate
  rw [present]

theorem hooksOf_ok (known : config.templates.unknown? = none) (artifacts : ArtifactSet)
    (operations : List (Text × List OperationTypes)) :
    ∃ modules, (target.hooksOf config artifacts operations).2 = .ok modules := by
  induction operations with
  | nil => exact ⟨[], rfl⟩
  | cons tagged rest ih =>
    obtain ⟨tag, own⟩ := tagged
    obtain ⟨more, later⟩ := ih
    unfold hooksOf
    split
    · exact ⟨more, later⟩
    · rename_i source _
      obtain ⟨modules, made⟩ := generate_ok source own known
      rw [made]
      exact ⟨(tag, modules.value) :: more, by simp only [later, Except.map]⟩

/-- Until the first tag that has a wrapper module there are warnings only, and that tag fails. -/
theorem hooksOf_unknown {unknown : UnknownPlaceholder}
    (present : config.templates.unknown? = some unknown) (artifacts : ArtifactSet)
    (operations : List (Text × List OperationTypes)) :
    ∃ missing : List Text,
      (∀ tag ∈ missing, artifacts.content? target.server (some tag) .domainApi = none) ∧
      (target.hooksOf config artifacts operations = (target.unread missing, .ok []) ∨
        ∃ tag, target.hooksOf config artifacts operations =
          (target.unread missing, .error (.hooks tag unknown))) := by
  induction operations with
  | nil => exact ⟨[], by simp, .inl rfl⟩
  | cons tagged rest ih =>
    obtain ⟨tag, own⟩ := tagged
    unfold hooksOf
    cases read : artifacts.content? target.server (some tag) .domainApi with
    | none =>
      obtain ⟨missing, none, ends⟩ := ih
      refine ⟨tag :: missing, List.forall_mem_cons.mpr ⟨read, none⟩, ?_⟩
      rcases ends with ends | ⟨last, ends⟩
      · left
        rw [ends]
        rfl
      · right
        refine ⟨last, ?_⟩
        rw [ends]
        rfl
    | some source =>
      refine ⟨[], by simp, .inr ⟨tag, ?_⟩⟩
      simp only [generate_unknown source own present]
      rfl

/-- Counted on the way or in the end, there are the same hooks and the same warnings. -/
theorem hooksByTag_ok {modules : List (Text × HookModules)}
    (made : (target.hooksOf config artifacts operations).2 = .ok modules) (stats : Stats) :
    target.hooksByTag config artifacts stats operations =
      (.ok (target.hookArtifacts modules),
        countHooks stats (target.hooksOf config artifacts operations).1
          (modules.flatMap fun (_, found) => found.queryHooks).length
          (modules.flatMap fun (_, found) => found.mutationHooks).length) := by
  induction operations generalizing stats modules with
  | nil =>
    cases made
    simp [hooksByTag, hooksOf, hookArtifacts, countHooks, Stats.warn]
  | cons tagged rest ih =>
    obtain ⟨tag, own⟩ := tagged
    unfold hooksOf at made ⊢
    rw [hooksByTag]
    cases read : artifacts.content? target.server (some tag) .domainApi with
    | none =>
      rw [read] at made
      dsimp only at made ⊢
      rw [ih made]
      simp [countHooks, Stats.warn]
    | some source =>
      rw [read] at made
      dsimp only at made ⊢
      cases generated : HookModules.generate source own config with
      | error error =>
        rw [generated] at made
        contradiction
      | ok found =>
        rw [generated] at made
        dsimp only at made ⊢
        cases later : (target.hooksOf config artifacts rest).2 with
        | error error =>
          rw [later] at made
          contradiction
        | ok more =>
          rw [later] at made
          cases made
          rw [ih later]
          simp [Except.map, countHooks, Stats.warn, hookArtifacts, Nat.add_assoc]

theorem hooksByTag_unknown {unknown : UnknownPlaceholder}
    (present : config.templates.unknown? = some unknown) (stats : Stats) :
    target.hooksByTag config artifacts stats operations =
      ((target.hooksOf config artifacts operations).2.map target.hookArtifacts,
        stats.warn (target.hooksOf config artifacts operations).1) := by
  induction operations generalizing stats with
  | nil => simp [hooksByTag, hooksOf, Stats.warn, Except.map, hookArtifacts]
  | cons tagged rest ih =>
    obtain ⟨tag, own⟩ := tagged
    unfold hooksOf hooksByTag
    cases read : artifacts.content? target.server (some tag) .domainApi with
    | none =>
      dsimp only
      rw [ih]
      simp [Stats.warn]
    | some source =>
      simp only [generate_unknown source own present]
      simp [Stats.warn, Except.map]

/-- The step that writes the hooks goes from tag to tag. -/
theorem hooks_eq_finish (target : Interface) (config : Config) (state : RunState) :
    let (made, stats) := target.hooksByTag config state.artifacts state.stats target.operations
    target.hooks config state = finish (made, { state with stats }) := by
  unfold hooks
  cases present : config.templates.unknown? with
  | none =>
    obtain ⟨modules, made⟩ := hooksOf_ok present state.artifacts target.operations
    rw [hooksByTag_ok made]
    generalize target.hooksOf config state.artifacts target.operations = result at made
    obtain ⟨warnings, _⟩ := result
    cases made
    rfl
  | some unknown =>
    rw [hooksByTag_unknown present]
    obtain ⟨missing, _, ends⟩ := hooksOf_unknown present state.artifacts target.operations
    rcases ends with ends | ⟨tag, ends⟩
    · rw [ends]
      rfl
    · rw [ends]
      rfl

theorem onlyWarned_hooks (failed : (target.hooks config state).2 = some error) :
    (∃ missing : List Text,
      (∀ tag ∈ missing, state.artifacts.content? target.server (some tag) .domainApi = none) ∧
      state.OnlyWarned (target.hooks config state).1 (target.unread missing)) ∧
    ∃ unknown tag, config.templates.unknown? = some unknown ∧ error = .hooks tag unknown := by
  unfold hooks at failed ⊢
  cases present : config.templates.unknown? with
  | none =>
    obtain ⟨modules, made⟩ := hooksOf_ok present state.artifacts target.operations
    generalize target.hooksOf config state.artifacts target.operations = result at made failed
    obtain ⟨warnings, _⟩ := result
    cases made
    contradiction
  | some unknown =>
    obtain ⟨missing, absent, ends⟩ := hooksOf_unknown present state.artifacts target.operations
    rcases ends with ends | ⟨tag, ends⟩
    · rw [ends] at failed
      contradiction
    · rw [ends] at failed ⊢
      cases failed
      exact ⟨⟨missing, absent, rfl, rfl, rfl⟩, unknown, tag, rfl, rfl⟩

end Hooks

end Interface

section Run

variable {config : Config} {server : Server} {source : Except Text Text} {seed : ArtifactSet}
  {progress : Progress} {target : Interface} {step : Step} {feature : Feature}

namespace Progress

/-- A run that has sorted its paths and goes on; what it has planned is planned from its
operations. -/
structure Ready (target : Interface) (progress : Progress) : Prop where
  known : progress.knowledge = .sorted target
  ongoing : progress.isAborted = false
  kept : target.Kept progress.state.planned

theorem Ready.visit (ready : progress.Ready target) (own : step.feature? = some feature) :
    (progress.visit config server source step).Ready target := by
  have optional : step.isRequired = false := by simp [Step.isRequired, own]
  have visited : progress.visit config server source step =
      progress.visitOptional config step feature := by simp only [Progress.visit, own]
  have taken := visitOptional_eq_takeStep config feature ready.known optional server.name
  rw [← visited] at taken
  constructor
  · rw [visited, knowledge_visitOptional, ready.known]
  · rw [isAborted_visit_of_optional optional, ready.ongoing]
  · have kept : target.Kept (target.takeStep config step feature
        (RunSummary.ofJournal server.name progress.journal, progress.state)).2.planned :=
      Interface.planned_takeStep ready.kept
    rw [← taken] at kept
    exact kept

theorem Ready.visitAll (ready : progress.Ready target) {steps : List Step}
    (optional : ∀ step ∈ steps, step.feature? ≠ none) :
    (progress.visitAll config server source steps).Ready target := by
  induction steps generalizing progress with
  | nil => exact ready
  | cons step rest ih =>
    obtain ⟨feature, own⟩ := Option.ne_none_iff_exists'.mp (optional step List.mem_cons_self)
    have visited : (progress.visit config server source step).Ready target := ready.visit own
    rw [visitAll_ongoing visited.ongoing]
    exact ih visited fun later member => optional later (List.mem_cons_of_mem _ member)

/-- A failure on record is that of a step that was visited. -/
theorem Ready.failed_visit (ready : progress.Ready target) {steps : List Step}
    (optional : ∀ step ∈ steps, step.feature? ≠ none) {failure : StepFailure}
    (recorded : failure ∈
      (progress.visitAll config server source steps).journal.filterMap failure?) :
    failure ∈ progress.journal.filterMap failure? ∨
      ∃ earlier later, steps = earlier ++ failure.step :: later ∧
        let before := progress.visitAll config server source earlier
        (before.visit config server source failure.step).journal =
          before.journal ++ [(failure.step, .failed failure.error)] := by
  induction steps generalizing progress with
  | nil => exact .inl recorded
  | cons step rest ih =>
    obtain ⟨feature, own⟩ := Option.ne_none_iff_exists'.mp (optional step List.mem_cons_self)
    have visited : (progress.visit config server source step).Ready target := ready.visit own
    rw [visitAll_ongoing visited.ongoing] at recorded
    have others : ∀ later ∈ rest, later.feature? ≠ none := fun later member =>
      optional later (List.mem_cons_of_mem _ member)
    rcases ih visited others recorded with here | ⟨earlier, later, split, journal⟩
    · obtain ⟨fate, after⟩ := progress.visited_visit config server source step
      rw [after.journal, List.filterMap_append, List.mem_append] at here
      rcases here with earlier | here
      · exact .inl earlier
      · right
        obtain ⟨entry, same, failed⟩ := List.mem_filterMap.mp here
        rw [List.mem_singleton.mp same] at failed
        have fate : fate = .failed failure.error ∧ step = failure.step := by
          cases fate with
          | succeeded | skipped => contradiction
          | failed error =>
            simp only [failure?, Step.isRequired, own] at failed
            cases failed
            exact ⟨rfl, rfl⟩
        obtain ⟨rfl, rfl⟩ := fate
        exact ⟨[], rest, rfl, after.journal⟩
    · right
      refine ⟨step :: earlier, later, congrArg (step :: ·) split, ?_⟩
      rw [visitAll_ongoing visited.ongoing]
      exact journal

/-- What is performed in a visit that is recorded as failed. -/
theorem Ready.performed (ready : progress.Ready target) (own : step.feature? = some feature)
    {error : Text}
    (journal : (progress.visit config server source step).journal =
      progress.journal ++ [(step, .failed error)]) :
    ∃ cause, (target.perform config progress.state feature).2 = some cause ∧
      cause.message = error ∧
      (progress.visit config server source step).state =
        let after := (target.perform config progress.state feature).1
        { after with stats := after.stats.warn [.stepFailed step error] } := by
  have visited : progress.visit config server source step =
      progress.visitOptional config step feature := by simp only [Progress.visit, own]
  rw [visited] at journal ⊢
  obtain ⟨entries, knowledge, state⟩ := progress
  cases ready.known
  unfold visitOptional Knowledge.perform at journal ⊢
  cases on : config.isEnabled feature with
  | false => simp [record, on] at journal
  | true =>
    rw [on, if_pos rfl] at journal
    dsimp only at journal ⊢
    rw [if_pos rfl]
    generalize target.perform config state feature = result at journal ⊢
    obtain ⟨after, _ | cause⟩ := result
    · simp [record] at journal
    · have message : cause.message = error := by simpa [record] using journal
      rw [← message]
      exact ⟨cause, rfl, rfl, rfl⟩

end Progress

/-- A step that failed: what it found and left, and why it failed. -/
structure FailedAt (config : Config) (server : Server) (before after : Progress)
    (failure : StepFailure) : Prop where
  step : failure.step = .domainApi ∨ failure.step = .hooks
  trace : ∃ missing : List Text,
    (∀ tag ∈ missing, failure.step = .hooks ∧
      before.state.artifacts.content? server.name (some tag) .domainApi = none) ∧
    before.state.OnlyWarned after.state
      (missing.map (.noApiToRead server.name) ++ [.stepFailed failure.step failure.error])
  cause : ∃ unknown tag, config.templates.unknown? = some unknown ∧
    (failure.error = (StepError.api tag (.template unknown)).message ∨
      failure.error = (StepError.hooks tag unknown).message)

theorem RunState.OnlyWarned.warn {state after : RunState} {warnings : List Warning}
    (only : state.OnlyWarned after warnings) (warning : Warning) :
    state.OnlyWarned { after with stats := after.stats.warn [warning] }
      (warnings ++ [warning]) := by
  refine ⟨only.artifacts, only.counters, ?_⟩
  rw [← List.append_assoc, ← only.warnings]
  rfl

theorem Progress.Ready.failedAt (ready : progress.Ready target) (orderly : target.Orderly)
    (own : target.server = server.name) {failure : StepFailure}
    (optional : failure.step.feature? ≠ none)
    (journal : (progress.visit config server source failure.step).journal =
      progress.journal ++ [(failure.step, .failed failure.error)]) :
    FailedAt config server progress (progress.visit config server source failure.step) failure := by
  obtain ⟨feature, featured⟩ := Option.ne_none_iff_exists'.mp optional
  obtain ⟨cause, failed, message, state⟩ := ready.performed featured journal
  cases feature with
  | tagList | validatedTypes | propertyTypes | endpoints => cases failed
  | domainApi =>
    obtain ⟨only, unknown, tag, present, rfl⟩ :=
      Interface.onlyWarned_domainApi orderly ready.kept failed
    refine ⟨?_, ⟨[], by simp, ?_⟩, unknown, tag, present, .inl message.symm⟩
    · left
      generalize failure.step = step at featured
      cases step <;> first | rfl | cases featured
    · rw [state]
      exact only.warn _
  | hooks =>
    obtain ⟨⟨missing, absent, only⟩, unknown, tag, present, rfl⟩ :=
      Interface.onlyWarned_hooks failed
    rw [own] at absent
    have step : failure.step = .hooks := by
      generalize failure.step = step at featured
      cases step <;> first | rfl | cases featured
    refine ⟨.inr step, ⟨missing, fun tag member => ⟨step, absent tag member⟩, ?_⟩, unknown, tag,
      present, .inr message.symm⟩
    rw [state, ← own]
    exact only.warn _

/-- Where a run stands before it visits a step. -/
def Progress.before (config : Config) (server : Server) (source : Except Text Text)
    (seed : ArtifactSet) (step : Step) : Progress :=
  (Progress.start seed).visitAll config server source (Step.all.takeWhile (· ≠ step))

def requiredSteps : List Step := [.loadDescription, .extractModel, .classifyTags]

theorem all_eq_required : Step.all = requiredSteps ++ laterSteps.map (·.1) := rfl

/-- After the required steps a run is ready. -/
theorem ready_required {successes : List Step} {stats : Stats}
    (prepared : prepare server source = .ready successes target stats) (config : Config)
    (seed : ArtifactSet) :
    let progress := (Progress.start seed).visitAll config server source requiredSteps
    progress.Ready target ∧ progress.journal.filterMap failure? = [] := by
  intro progress
  have reached : progress.Reaches seed (prepare server source) :=
    Progress.reaches_prepare config server source seed
  rw [prepared] at reached
  have same : progress = ⟨successes.map (·, .succeeded), .sorted target, .start seed stats⟩ :=
    reached
  rw [same]
  refine ⟨⟨rfl, ?_, fun _ _ listed => nomatch listed⟩, ?_⟩
  · rw [Progress.isAborted, RunSummary.findSome?_successes]
    rfl
  · exact congrArg RunSummary.failures (RunSummary.ofJournal_successes [] successes)

theorem takeWhile_ne {earlier later : List Step} (distinct : (earlier ++ step :: later).Nodup) :
    (earlier ++ step :: later).takeWhile (· ≠ step) = earlier ∧
      ((earlier ++ step :: later).dropWhile (· ≠ step)).tail = later := by
  have others : ∀ other ∈ earlier, decide (other ≠ step) = true := by
    intro other member
    apply decide_eq_true
    exact (List.nodup_append.mp distinct).2.2 other member step List.mem_cons_self
  rw [List.takeWhile_append_of_pos others, List.dropWhile_append_of_pos others]
  simp

/-- The run stays ready until the step of a feature is visited, and goes on from there. -/
theorem ready_before {successes : List Step} {stats : Stats}
    (prepared : prepare server source = .ready successes target stats) (config : Config)
    (seed : ArtifactSet) {earlier later : List Step}
    (split : laterSteps.map (·.1) = earlier ++ step :: later) :
    let before := Progress.before config server source seed step
    before = ((Progress.start seed).visitAll config server source requiredSteps).visitAll
      config server source earlier ∧
    before.Ready target ∧
    loop config server source seed =
      (before.visit config server source step).visitAll config server source
        ((Step.all.dropWhile (· ≠ step)).tail) := by
  intro before
  have optional : ∀ step ∈ laterSteps.map (·.1), step.feature? ≠ none := by decide
  rw [split] at optional
  obtain ⟨ready, _⟩ := ready_required prepared config seed
  have all : Step.all = (requiredSteps ++ earlier) ++ step :: later := by
    rw [all_eq_required, split, List.append_assoc]
  have distinct : ((requiredSteps ++ earlier) ++ step :: later).Nodup := all ▸ by decide
  obtain ⟨first, last⟩ := takeWhile_ne distinct
  have came : before = ((Progress.start seed).visitAll config server source
      requiredSteps).visitAll config server source earlier := by
    have unfolded : before = (Progress.start seed).visitAll config server source
        (Step.all.takeWhile (· ≠ step)) := rfl
    rw [unfolded, all, first, Progress.visitAll_append config server source _ rfl]
    dsimp only
    rw [ready.ongoing]
    rfl
  have stays : before.Ready target := by
    rw [came]
    exact ready.visitAll fun step member => optional step (List.mem_append_left _ member)
  refine ⟨came, stays, ?_⟩
  obtain ⟨feature, own⟩ := Option.ne_none_iff_exists'.mp
    (optional step (List.mem_append_right _ List.mem_cons_self))
  have visited : (before.visit config server source step).Ready target := stays.visit own
  rw [loop, all, last, List.append_assoc, Progress.visitAll_append config server source _ rfl]
  dsimp only
  rw [ready.ongoing, if_neg Bool.false_ne_true,
    Progress.visitAll_append config server source _ ready.ongoing, ← came]
  dsimp only
  rw [stays.ongoing, if_neg Bool.false_ne_true, Progress.visitAll_ongoing visited.ongoing]

/-- A step that fails leaves warnings, and the run goes on from there. No step fails for want of an
endpoint, since each operation is paired with the one planned from it; so it does not matter that
wrappers and hooks are counted tag by tag. -/
theorem failed_steps_leave_warnings (config : Config) (server : Server)
    (source : Except Text Text) (seed : ArtifactSet) :
    let before := Progress.before config server source seed
    (∀ failure ∈ (run config server source seed).summary.failures,
      let after := (before failure.step).visit config server source failure.step
      FailedAt config server (before failure.step) after failure ∧
      run config server source seed =
        (after.visitAll config server source
          ((Step.all.dropWhile (· ≠ failure.step)).tail)).outcome server) ∧
    ∀ successes target stats, prepare server source = .ready successes target stats →
      (∀ tag id inServer inTag, (target.domainApi config (before .domainApi).state).2 ≠
        some (.api tag (.noEndpoint id inServer inTag))) ∧
      (∀ earlier tag later, target.tags = earlier ++ tag :: later →
        let planned := (target.apisOf config (before .domainApi).state.planned earlier).2
        let endpoints := (target.endpointsOf planned tag).1
        List.Forall₂ Endpoint.IsFor endpoints (target.operationsOf tag) ∧
          (target.operationsOf tag).mapM (DomainApi.endpointFor target.server tag endpoints) =
            .ok endpoints) ∧
      target.domainApi config (before .domainApi).state =
        Interface.finish
          (target.apiByTag config (before .domainApi).state target.tags) ∧
      let state := (before .hooks).state
      let (made, stats) :=
        target.hooksByTag config state.artifacts state.stats target.operations
      target.hooks config state = Interface.finish (made, { state with stats }) := by
  intro before
  constructor
  · intro failure recorded
    rw [run_eq_loop] at recorded ⊢
    cases prepared : prepare server source with
    | aborted successes aborted stats =>
      have run : (run config server source seed).summary.failures = [] := by
        unfold TypedClient.run
        rw [prepared]
        rfl
      rw [run_eq_loop] at run
      rw [run] at recorded
      contradiction
    | ready successes target stats =>
      obtain ⟨orderly, own⟩ := orderly_of_prepare prepared
      obtain ⟨ready, clean⟩ := ready_required prepared config seed
      have optional : ∀ step ∈ laterSteps.map (·.1), step.feature? ≠ none := by decide
      have looped : loop config server source seed =
          ((Progress.start seed).visitAll config server source requiredSteps).visitAll
            config server source (laterSteps.map (·.1)) := by
        rw [loop, all_eq_required, Progress.visitAll_append config server source _ rfl]
        dsimp only
        rw [ready.ongoing]
        rfl
      have listed : failure ∈ (loop config server source seed).journal.filterMap failure? :=
        recorded
      rw [looped] at listed
      rcases ready.failed_visit optional listed with here | ⟨earlier, later, split, journal⟩
      · rw [clean] at here
        contradiction
      · obtain ⟨came, stays, goesOn⟩ := ready_before prepared config seed split
        rw [split] at optional
        refine ⟨stays.failedAt orderly own
          (optional failure.step (List.mem_append_right _ List.mem_cons_self)) ?_,
          congrArg (Progress.outcome server) goesOn⟩
        rw [came]
        exact journal
  · intro successes target stats prepared
    obtain ⟨orderly, own⟩ := orderly_of_prepare prepared
    have split : laterSteps.map (·.1) =
        [.tagList, .validatedTypes, .propertyTypes, .endpoints] ++ .domainApi :: [.hooks] := rfl
    obtain ⟨_, ready, _⟩ := ready_before prepared config seed split
    refine ⟨?_, ?_, Interface.domainApi_eq_finish orderly ready.kept,
      target.hooks_eq_finish config _⟩
    · intro tag id inServer inTag failed
      obtain ⟨_, unknown, _, _, cause⟩ := Interface.onlyWarned_domainApi orderly ready.kept failed
      cases cause
    · intro earlier tag later split
      exact Interface.paired_endpointsOf orderly (Interface.apisOf_kept ready.kept earlier).2 tag

/-- A template with a placeholder that is not known. -/
def nopeConfig : Config :=
  { Config.standard with templates := { DocTemplates.standard with wrapper := inBraces "nope" } }

/-- A wrapper module from before, for hooks to be made from. -/
def teamsSeed : ArtifactSet := ⟨[⟨"main", some "teams", .domainApi, "// none\n"⟩]⟩

/-- Both steps that can fail do. -/
theorem teams_failures_leave_warnings :
    let outcome := run nopeConfig ⟨"main", none⟩ (.ok teamsText) teamsSeed
    let before := Progress.before nopeConfig ⟨"main", none⟩ (.ok teamsText) teamsSeed
    outcome.summary.failures.map (·.step) = [.domainApi, .hooks] ∧
    (∀ failure ∈ outcome.summary.failures,
      FailedAt nopeConfig ⟨"main", none⟩ (before failure.step)
        ((before failure.step).visit nopeConfig ⟨"main", none⟩ (.ok teamsText) failure.step)
        failure) ∧
    ∃ target, (∃ successes stats,
        prepare ⟨"main", none⟩ (.ok teamsText) = .ready successes target stats) ∧
      target.domainApi nopeConfig (before .domainApi).state =
        Interface.finish
          (target.apiByTag nopeConfig (before .domainApi).state target.tags) := by
  have failed : (run nopeConfig ⟨"main", none⟩ (.ok teamsText) teamsSeed).summary.failures.map
      (·.step) = [.domainApi, .hooks] := by decide +kernel
  have ongoing : (run nopeConfig ⟨"main", none⟩ (.ok teamsText) teamsSeed).summary.aborted =
      none := by decide +kernel
  obtain ⟨successes, target, stats, prepared⟩ := prepare_of_not_aborted ongoing
  obtain ⟨harmless, paired⟩ :=
    failed_steps_leave_warnings nopeConfig ⟨"main", none⟩ (.ok teamsText) teamsSeed
  obtain ⟨_, _, byTag, _⟩ := paired successes target stats prepared
  exact ⟨failed, fun failure listed => (harmless failure listed).1, target,
    ⟨successes, stats, prepared⟩, byTag⟩

end Run

end TypedClient
