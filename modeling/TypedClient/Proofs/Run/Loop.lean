import TypedClient.Run.Basic

/-!
A run as a loop over its steps. The loop keeps a journal of the steps it has visited and of what
became of each; the summary of a run is read off it. Main statement: a run is its loop.
-/

namespace TypedClient

open Text

/-- What became of a step that was visited. -/
inductive Fate
  | succeeded
  | skipped
  | failed (error : Text)
  deriving DecidableEq, Repr

/-- The steps visited, in order, each with what became of it. -/
abbrev Journal := List (Step × Fate)

/-- The failure of an entry by which the run is aborted: that of a required step. -/
def abort? : Step × Fate → Option StepFailure
  | (step, .failed error) => if step.isRequired then some ⟨step, error⟩ else none
  | (_, .succeeded) | (_, .skipped) => none

/-- The failure of an entry after which the run goes on. -/
def failure? : Step × Fate → Option StepFailure
  | (step, .failed error) => if step.isRequired then none else some ⟨step, error⟩
  | (_, .succeeded) | (_, .skipped) => none

namespace RunSummary

/-- What a journal says of a run. -/
def ofJournal (server : Text) (journal : Journal) : RunSummary where
  server := server
  successes := (journal.filter fun entry => entry.2 = .succeeded).map (·.1)
  skipped := (journal.filter fun entry => entry.2 = .skipped).map (·.1)
  failures := journal.filterMap failure?
  aborted := journal.findSome? abort?

/-- Every step that a summary names, as often as it names it. -/
def recorded (summary : RunSummary) : List Step :=
  summary.successes ++ summary.skipped ++ summary.failures.map (·.step) ++
    summary.aborted.toList.map (·.step)

end RunSummary

/-- What the required steps have found out so far. -/
inductive Knowledge
  | nothing
  | loaded (description : Description)
  | modelled (description : Description) (entries : List PathEntry)
  | sorted (target : Interface)

/-- The error of a step before which another one would have had to be taken. -/
def notLoaded : Text := "interface description was not loaded"

namespace Knowledge

/-- Takes a required step. The warnings raised on the way are kept when the step fails. -/
def require (server : Server) (source : Except Text Text) (knowledge : Knowledge)
    (stats : Stats) : Step → Stats × Except Text Knowledge
  | .loadDescription =>
    match source with
    | .error error => (stats, .error error)
    | .ok text =>
      let loaded := Description.ofText text
      (stats.warn loaded.warnings, .ok (.loaded loaded.value))
  | .extractModel =>
    match knowledge with
    | .loaded description =>
      let warned := stats.warn description.model.warnings
      match description.model.value with
      | .error duplicate => (warned, .error duplicate.message)
      | .ok entries =>
        ({ warned with schemasDiscovered := description.schemaNames.length },
          .ok (.modelled description entries))
    | _ => (stats, .error notLoaded)
  | .classifyTags =>
    match knowledge with
    | .modelled description entries =>
      let classification := Classification.ofEntries server.excludedTag entries
      let operations := Interface.typed description classification entries
      let counted := { stats with
        pathsDiscovered := entries.length
        pathsExcluded := classification.excluded.length
        tagsClassified := classification.tags.length
        operationsExtracted := Interface.countOperations operations.value }
      (counted.warn operations.warnings,
        .ok (.sorted ⟨server.name, description, classification, operations.value⟩))
    | _ => (stats, .error notLoaded)
  | _ => (stats, .ok knowledge)

/-- Takes the step of a feature. -/
def perform (config : Config) (knowledge : Knowledge) (state : RunState) (feature : Feature) :
    RunState × Option Text :=
  match knowledge with
  | .sorted target =>
    let (after, error) := target.perform config state feature
    (after, error.map StepError.message)
  | _ => (state, some notLoaded)

end Knowledge

/-- Where a run stands between two steps. -/
structure Progress where
  journal : Journal
  knowledge : Knowledge
  state : RunState

namespace Progress

/-- A run that has not visited a step yet. -/
def start (seed : ArtifactSet) : Progress := ⟨[], .nothing, .start seed .zero⟩

def isAborted (progress : Progress) : Bool := (progress.journal.findSome? abort?).isSome

def record (progress : Progress) (step : Step) (fate : Fate) : Progress :=
  { progress with journal := progress.journal ++ [(step, fate)] }

/-- Visits a required step. -/
def visitRequired (server : Server) (source : Except Text Text) (progress : Progress)
    (step : Step) : Progress :=
  let (stats, found) := progress.knowledge.require server source progress.state.stats step
  let after := { progress with state := { progress.state with stats } }
  match found with
  | .error error => after.record step (.failed error)
  | .ok knowledge => { after with knowledge }.record step .succeeded

/-- Visits the step of a feature. -/
def visitOptional (config : Config) (progress : Progress) (step : Step) (feature : Feature) :
    Progress :=
  if config.isEnabled feature then
    match progress.knowledge.perform config progress.state feature with
    | (after, none) => { progress with state := after }.record step .succeeded
    | (after, some error) =>
      let warned := { after with stats := after.stats.warn [.stepFailed step error] }
      { progress with state := warned }.record step (.failed error)
  else progress.record step .skipped

def visit (config : Config) (server : Server) (source : Except Text Text) (progress : Progress)
    (step : Step) : Progress :=
  match step.feature? with
  | none => progress.visitRequired server source step
  | some feature => progress.visitOptional config step feature

/-- Visits steps in turn until one of them aborts the run. -/
def visitAll (config : Config) (server : Server) (source : Except Text Text)
    (progress : Progress) : List Step → Progress
  | [] => progress
  | step :: rest =>
    let after := progress.visit config server source step
    if after.isAborted then after else visitAll config server source after rest

/-- What a run leaves when it stops here. -/
def outcome (server : Server) (progress : Progress) : RunOutcome :=
  ⟨.ofJournal server.name progress.journal, progress.state.artifacts, progress.state.stats⟩

end Progress

/-- The loop over all steps. -/
def loop (config : Config) (server : Server) (source : Except Text Text) (seed : ArtifactSet) :
    Progress :=
  (Progress.start seed).visitAll config server source Step.all

variable {config : Config} {server : Server} {source : Except Text Text} {seed : ArtifactSet}
  {progress : Progress} {step : Step} {feature : Feature}

section Visit

theorem Stats.countAliases_kept (stats : Stats) (aliases : List Alias) :
    (stats.countAliases aliases).warnings = stats.warnings := by
  induction aliases generalizing stats with
  | nil => rfl
  | cons found rest ih =>
    have one : (stats.countAlias found).warnings = stats.warnings := by
      unfold Stats.countAlias
      split <;> rfl
    exact (ih _).trans one

/-- The step of a feature takes no warning back. -/
theorem Interface.warnings_perform (target : Interface) (config : Config) (state : RunState)
    (feature : Feature) :
    state.stats.warnings ⊆ (target.perform config state feature).1.stats.warnings := by
  cases feature with
  | tagList | endpoints => exact List.Subset.refl _
  | validatedTypes =>
    exact (Stats.countAliases_kept state.stats _ ▸ List.Subset.refl _)
  | propertyTypes =>
    have counted : (target.perform config state .propertyTypes).1.stats.warnings =
        (state.stats.countAliases _).warnings ++ _ := rfl
    rw [counted, Stats.countAliases_kept]
    exact List.subset_append_left _ _
  | domainApi =>
    unfold perform domainApi
    generalize target.apisOf config state.planned target.tags = result
    obtain ⟨_ | _, planned⟩ := result <;> exact List.Subset.refl _
  | hooks =>
    unfold perform hooks
    generalize target.hooksOf config state.artifacts target.operations = result
    obtain ⟨warnings, _ | _⟩ := result <;> exact List.subset_append_left _ _

namespace Knowledge

/-- A required step raises warnings and counts what it finds, but no files. -/
theorem require_kept (server : Server) (source : Except Text Text) (knowledge : Knowledge)
    (stats : Stats) (step : Step) :
    stats.warnings ⊆ (knowledge.require server source stats step).1.warnings ∧
      (knowledge.require server source stats step).1.artifactsGenerated =
        stats.artifactsGenerated := by
  unfold require
  split
  · split
    · exact ⟨List.Subset.refl _, rfl⟩
    · exact ⟨List.subset_append_left _ _, rfl⟩
  · split
    · dsimp only
      split
      · exact ⟨List.subset_append_left _ _, rfl⟩
      · exact ⟨List.subset_append_left _ _, rfl⟩
    · exact ⟨List.Subset.refl _, rfl⟩
  · split
    · exact ⟨List.subset_append_left _ _, rfl⟩
    · exact ⟨List.Subset.refl _, rfl⟩
  · exact ⟨List.Subset.refl _, rfl⟩

theorem perform_kept (config : Config) (knowledge : Knowledge) (state : RunState)
    (feature : Feature) :
    state.stats.warnings ⊆ (knowledge.perform config state feature).1.stats.warnings := by
  unfold perform
  split
  · rename_i target
    exact target.warnings_perform config state feature
  · exact List.Subset.refl _

end Knowledge

/-- All that is known of a visit. -/
structure Visited (config : Config) (before after : Progress) (step : Step) (fate : Fate) :
    Prop where
  journal : after.journal = before.journal ++ [(step, fate)]
  skipped : fate = .skipped ↔
    ∃ feature, step.feature? = some feature ∧ config.isEnabled feature = false
  warnings : before.state.stats.warnings ⊆ after.state.stats.warnings
  warned : ∀ failure ∈ failure? (step, fate),
    .stepFailed failure.step failure.error ∈ after.state.stats.warnings
  untouched : step.isRequired = true → after.state.artifacts = before.state.artifacts ∧
    after.state.stats.artifactsGenerated = before.state.stats.artifactsGenerated

namespace Progress

theorem visited_required (server : Server) (source : Except Text Text) (progress : Progress)
    {step : Step} (required : step.feature? = none) :
    ∃ fate, Visited config progress (progress.visitRequired server source step) step fate := by
  have isRequired : step.isRequired = true := by simp [Step.isRequired, required]
  have kept := progress.knowledge.require_kept server source progress.state.stats step
  unfold visitRequired
  generalize progress.knowledge.require server source progress.state.stats step = result at kept
  obtain ⟨stats, error | knowledge⟩ := result
  · exact ⟨.failed error, rfl, by simp [required], kept.1, by simp [failure?, isRequired],
      fun _ => ⟨rfl, kept.2⟩⟩
  · exact ⟨.succeeded, rfl, by simp [required], kept.1, by simp [failure?], fun _ => ⟨rfl, kept.2⟩⟩

theorem visited_optional (config : Config) (progress : Progress) {step : Step} {feature : Feature}
    (own : step.feature? = some feature) :
    ∃ fate, Visited config progress (progress.visitOptional config step feature) step fate := by
  have optional : step.isRequired = false := by simp [Step.isRequired, own]
  have kept := progress.knowledge.perform_kept config progress.state feature
  unfold visitOptional
  cases on : config.isEnabled feature with
  | false =>
    exact ⟨.skipped, rfl, by simp [own, on], List.Subset.refl _, by simp [failure?],
      by simp [optional]⟩
  | true =>
    rw [if_pos rfl]
    generalize progress.knowledge.perform config progress.state feature = result at kept
    obtain ⟨after, _ | error⟩ := result
    · exact ⟨.succeeded, rfl, by simp [own, on], kept, by simp [failure?], by simp [optional]⟩
    · refine ⟨.failed error, rfl, by simp [own, on],
        List.subset_append_of_subset_left _ kept, ?_, by simp [optional]⟩
      intro failure reported
      have same : (⟨step, error⟩ : StepFailure) = failure := by
        simpa [failure?, optional] using reported
      rw [← same]
      exact List.mem_append_right _ List.mem_cons_self

theorem visited_visit (config : Config) (server : Server) (source : Except Text Text)
    (progress : Progress) (step : Step) :
    ∃ fate, Visited config progress (progress.visit config server source step) step fate := by
  unfold visit
  split
  · rename_i required
    exact visited_required server source progress required
  · rename_i feature own
    exact visited_optional config progress own

end Progress

end Visit

section Equal

namespace RunSummary

theorem ofJournal_succeeded (name : Text) (journal : Journal) (step : Step) :
    ofJournal name (journal ++ [(step, .succeeded)]) = (ofJournal name journal).succeed step := by
  simp [ofJournal, succeed, failure?, abort?]

theorem ofJournal_skipped (name : Text) (journal : Journal) (step : Step) :
    ofJournal name (journal ++ [(step, .skipped)]) = (ofJournal name journal).skip step := by
  simp [ofJournal, skip, failure?, abort?]

theorem ofJournal_failed (name : Text) (journal : Journal) {step : Step}
    (optional : step.isRequired = false) (error : Text) :
    ofJournal name (journal ++ [(step, .failed error)]) =
      (ofJournal name journal).fail ⟨step, error⟩ := by
  simp [ofJournal, fail, failure?, abort?, optional]

theorem ofJournal_aborted (name : Text) {journal : Journal}
    (ongoing : journal.findSome? abort? = none) {failure : StepFailure}
    (required : failure.step.isRequired = true) :
    ofJournal name (journal ++ [(failure.step, .failed failure.error)]) =
      { ofJournal name journal with aborted := some failure } := by
  simp [ofJournal, failure?, abort?, required, ongoing]

theorem ofJournal_successes (name : Text) (steps : List Step) :
    ofJournal name (steps.map (·, .succeeded)) = { start name with successes := steps } := by
  induction steps with
  | nil => rfl
  | cons step rest ih =>
    simp only [ofJournal, start, mk.injEq, true_and] at ih ⊢
    simp [ih, failure?, abort?]

theorem findSome?_successes (steps : List Step) :
    (steps.map (·, Fate.succeeded)).findSome? abort? = none :=
  congrArg aborted (ofJournal_successes [] steps)

end RunSummary

namespace Progress

theorem abort?_of_optional (optional : step.isRequired = false) (fate : Fate) :
    abort? (step, fate) = none := by
  cases fate <;> simp [abort?, optional]

theorem isAborted_visit_of_optional (optional : step.isRequired = false) :
    (progress.visit config server source step).isAborted = progress.isAborted := by
  obtain ⟨fate, after⟩ := visited_visit config server source progress step
  unfold isAborted
  rw [after.journal, List.findSome?_append, List.findSome?_singleton, abort?_of_optional optional,
    Option.or_none]

theorem knowledge_visitOptional :
    (progress.visitOptional config step feature).knowledge = progress.knowledge := by
  unfold visitOptional
  split
  · split <;> rfl
  · rfl

/-- The step of a feature is taken as a later step of the run. -/
theorem visitOptional_eq_takeStep (config : Config) (feature : Feature) {target : Interface}
    (known : progress.knowledge = .sorted target) (optional : step.isRequired = false)
    (name : Text) :
    let after := progress.visitOptional config step feature
    (RunSummary.ofJournal name after.journal, after.state) =
      target.takeStep config step feature
        (RunSummary.ofJournal name progress.journal, progress.state) := by
  obtain ⟨journal, knowledge, state⟩ := progress
  cases known
  unfold visitOptional Knowledge.perform Interface.takeStep
  cases config.isEnabled feature with
  | false => exact Prod.ext (RunSummary.ofJournal_skipped name journal step) rfl
  | true =>
    dsimp only
    rw [if_pos rfl, if_pos rfl]
    generalize target.perform config state feature = performed
    obtain ⟨after, _ | error⟩ := performed
    · exact Prod.ext (RunSummary.ofJournal_succeeded name journal step) rfl
    · exact Prod.ext (RunSummary.ofJournal_failed name journal optional error.message) rfl

theorem visitAll_ongoing (goesOn : (progress.visit config server source step).isAborted = false)
    (rest : List Step) :
    progress.visitAll config server source (step :: rest) =
      (progress.visit config server source step).visitAll config server source rest := by
  rw [visitAll, goesOn]
  rfl

theorem visitAll_aborted (stops : (progress.visit config server source step).isAborted = true)
    (rest : List Step) :
    progress.visitAll config server source (step :: rest) =
      progress.visit config server source step := by
  rw [visitAll, stops]
  rfl

/-- The later steps, visited with what the required steps have found out, are the later steps of
the run. -/
theorem visitAll_later (config : Config) (server : Server) (source : Except Text Text)
    {target : Interface} (known : progress.knowledge = .sorted target)
    (ongoing : progress.isAborted = false) {steps : List (Step × Feature)}
    (later : ∀ taken ∈ steps, taken.1.feature? = some taken.2) :
    let last := progress.visitAll config server source (steps.map (·.1))
    (RunSummary.ofJournal server.name last.journal, last.state) =
      steps.foldl (fun reached (step, feature) => target.takeStep config step feature reached)
        (RunSummary.ofJournal server.name progress.journal, progress.state) := by
  induction steps generalizing progress with
  | nil => rfl
  | cons taken rest ih =>
    obtain ⟨step, feature⟩ := taken
    have own : step.feature? = some feature := later (step, feature) List.mem_cons_self
    have optional : step.isRequired = false := by simp [Step.isRequired, own]
    have visited : progress.visit config server source step =
        progress.visitOptional config step feature := by simp only [visit, own]
    have goesOn : (progress.visit config server source step).isAborted = false :=
      (isAborted_visit_of_optional optional).trans ongoing
    have knows : (progress.visit config server source step).knowledge = .sorted target := by
      rw [visited, knowledge_visitOptional, known]
    have more := ih knows goesOn fun taken member => later taken (List.mem_cons_of_mem _ member)
    have here := visitOptional_eq_takeStep config feature known optional server.name
    rw [← visited] at here
    have opened : progress.visitAll config server source (((step, feature) :: rest).map (·.1)) =
        (progress.visit config server source step).visitAll config server source
          (rest.map (·.1)) := visitAll_ongoing goesOn _
    rw [opened, List.foldl_cons]
    dsimp only at here ⊢
    rw [← here]
    exact more

theorem visitAll_append (config : Config) (server : Server) (source : Except Text Text)
    (steps : List Step) {rest : List Step} (ongoing : progress.isAborted = false) :
    progress.visitAll config server source (steps ++ rest) =
      let after := progress.visitAll config server source steps
      if after.isAborted then after else after.visitAll config server source rest := by
  induction steps generalizing progress with
  | nil =>
    dsimp only [visitAll, List.nil_append]
    rw [ongoing]
    rfl
  | cons step more ih =>
    cases stops : (progress.visit config server source step).isAborted with
    | true =>
      rw [List.cons_append, visitAll_aborted stops, visitAll_aborted stops]
      exact (if_pos stops).symm
    | false => rw [List.cons_append, visitAll_ongoing stops, visitAll_ongoing stops, ih stops]

/-- What the loop has come to when the required steps are prepared. -/
def Reaches (seed : ArtifactSet) (progress : Progress) : Prepared → Prop
  | .aborted successes failure stats =>
    progress.journal = successes.map (·, .succeeded) ++ [(failure.step, .failed failure.error)] ∧
      failure.step.isRequired = true ∧ progress.state = .start seed stats
  | .ready successes target stats =>
    progress = ⟨successes.map (·, .succeeded), .sorted target, .start seed stats⟩

theorem reaches_prepare (config : Config) (server : Server) (source : Except Text Text)
    (seed : ArtifactSet) :
    ((start seed).visitAll config server source
      [.loadDescription, .extractModel, .classifyTags]).Reaches seed (prepare server source) := by
  unfold prepare
  cases source with
  | error error => exact ⟨rfl, rfl, rfl⟩
  | ok text =>
    have loaded : (start seed).visit config server (.ok text) .loadDescription =
        ⟨[(.loadDescription, .succeeded)], .loaded (Description.ofText text).value,
          .start seed (Stats.zero.warn (Description.ofText text).warnings)⟩ := rfl
    rw [visitAll_ongoing (by rw [loaded]; rfl), loaded]
    dsimp only
    generalize Description.ofText text = description
    unfold visitAll visit visitRequired Knowledge.require
    dsimp only [Step.feature?]
    cases description.value.model.value with
    | error duplicate => exact ⟨rfl, rfl, rfl⟩
    | ok entries => rfl

end Progress

/-- A run is its loop. -/
theorem run_eq_loop (config : Config) (server : Server) (source : Except Text Text)
    (seed : ArtifactSet) :
    run config server source seed = (loop config server source seed).outcome server := by
  have later : ∀ taken ∈ laterSteps, taken.1.feature? = some taken.2 := by decide
  have steps : Step.all =
      [.loadDescription, .extractModel, .classifyTags] ++ laterSteps.map (·.1) := rfl
  have reached := Progress.reaches_prepare config server source seed
  unfold run loop
  rw [steps, Progress.visitAll_append config server source _ rfl]
  generalize (Progress.start seed).visitAll config server source
    [.loadDescription, .extractModel, .classifyTags] = progress at reached
  cases found : prepare server source with
  | aborted successes failure stats =>
    rw [found] at reached
    obtain ⟨journal, required, state⟩ := reached
    have ongoing := RunSummary.findSome?_successes successes
    have summary := RunSummary.ofJournal_aborted server.name ongoing required
    rw [RunSummary.ofJournal_successes, ← journal] at summary
    have stops : progress.isAborted = true := by
      rw [Progress.isAborted, journal, List.findSome?_append, ongoing]
      simp [abort?, required]
    dsimp only
    rw [if_pos stops, Progress.outcome, summary, state]
    rfl
  | ready successes target stats =>
    rw [found] at reached
    cases reached
    have ongoing : (Progress.mk (successes.map (·, .succeeded)) (.sorted target)
        (.start seed stats)).isAborted = false := by
      rw [Progress.isAborted, RunSummary.findSome?_successes]
      rfl
    have taken := Progress.visitAll_later config server source rfl ongoing later
    rw [RunSummary.ofJournal_successes] at taken
    dsimp only at taken ⊢
    rw [ongoing, ← taken]
    rfl

end Equal

end TypedClient
