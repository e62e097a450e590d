import TypedClient.Proofs.Artifact.Kinds
import TypedClient.Run.Basic

/-!
What the steps of a run have to do with each other. Endpoints are planned once for all steps, the
walk over properties remembers where it has been, and hooks are read off the wrapper modules that
are there. Main statement: nothing of this shows. The files of a kind are decided by the step that
writes them, and for hooks by the step before it that writes the wrapper modules.
-/

namespace TypedClient

open Text

/-- The feature whose step writes the files of a kind. -/
def ArtifactKind.feature : ArtifactKind → Feature
  | tagList => .tagList
  | validatedTypes => .validatedTypes
  | propertyTypes => .propertyTypes
  | endpoints => .endpoints
  | domainApi => .domainApi
  | queryHooks | mutationHooks => .hooks

namespace Interface

variable {target : Interface} {config : Config} {planned : List (Text × List Endpoint)}

section Planned

/-- Every plan that was kept is the plan for the operations of its tag. -/
def Kept (target : Interface) (planned : List (Text × List Endpoint)) : Prop :=
  ∀ tag endpoints, planned.lookup tag = some endpoints →
    endpoints = Endpoint.plan (target.operationsOf tag)

theorem endpointsOf_kept (kept : target.Kept planned) (tag : Text) :
    (target.endpointsOf planned tag).1 = Endpoint.plan (target.operationsOf tag) ∧
      target.Kept (target.endpointsOf planned tag).2 := by
  unfold endpointsOf
  cases found : planned.lookup tag with
  | some endpoints => exact ⟨kept tag endpoints found, kept⟩
  | none =>
    refine ⟨rfl, fun other endpoints listed => ?_⟩
    rw [List.lookup_cons] at listed
    split at listed
    · rename_i same
      cases listed
      rw [eq_of_beq same]
    · exact kept other endpoints listed

theorem planTags_kept (kept : target.Kept planned) (tags : List Text) :
    (target.planTags planned tags).1 =
        tags.map (fun tag => (tag, Endpoint.plan (target.operationsOf tag))) ∧
      target.Kept (target.planTags planned tags).2 := by
  induction tags generalizing planned with
  | nil => exact ⟨rfl, kept⟩
  | cons tag rest ih =>
    obtain ⟨here, later⟩ := endpointsOf_kept kept tag
    obtain ⟨more, last⟩ := ih later
    exact ⟨by rw [planTags, List.map_cons, ← here, ← more], last⟩

/-- The wrapper module of a tag. -/
def apiOf (target : Interface) (config : Config) (tag : Text) :
    Except StepError (Text × DomainApi) :=
  match DomainApi.generate target.server tag (target.operationsOf tag)
      (Endpoint.plan (target.operationsOf tag)) config with
  | .error error => .error (.api tag error)
  | .ok api => .ok (tag, api)

theorem apisOf_kept (kept : target.Kept planned) (tags : List Text) :
    (target.apisOf config planned tags).1 = tags.mapM (target.apiOf config) ∧
      target.Kept (target.apisOf config planned tags).2 := by
  induction tags generalizing planned with
  | nil => exact ⟨rfl, kept⟩
  | cons tag rest ih =>
    obtain ⟨here, later⟩ := endpointsOf_kept kept tag
    rw [List.mapM_cons, apiOf, ← here, apisOf]
    generalize target.endpointsOf planned tag = result at later
    obtain ⟨endpoints, planned⟩ := result
    obtain ⟨more, last⟩ := ih later
    cases generated : DomainApi.generate target.server tag (target.operationsOf tag) endpoints
        config with
    | error error =>
      simp only [generated]
      exact ⟨rfl, later⟩
    | ok api =>
      simp only [generated]
      refine ⟨?_, last⟩
      rw [← more]
      cases (target.apisOf config planned rest).1 <;> rfl

end Planned

section Written

/-- The files that the step of a feature writes; a step that fails writes none. -/
def written (target : Interface) (config : Config) (state : RunState) : Feature → List Artifact
  | .tagList => [⟨target.server, none, .tagList, target.classification.tagList target.server⟩]
  | .validatedTypes =>
    target.operations.map fun (tag, operations) =>
      target.artifact tag .validatedTypes
        (Module.validatedTypes target.server tag operations config.imports)
  | .propertyTypes =>
    (walkTags target.description config.maxSchemaDepth state.visited target.operations).value.1.map
      fun (tag, aliases) =>
        target.artifact tag .propertyTypes
          (Module.propertyTypes target.server tag aliases config.imports)
  | .endpoints =>
    (target.planTags state.planned target.tags).1.map fun (tag, endpoints) =>
      target.artifact tag .endpoints (Module.endpoints endpoints)
  | .domainApi =>
    match (target.apisOf config state.planned target.tags).1 with
    | .error _ => []
    | .ok apis => apis.map fun (tag, api) => target.artifact tag .domainApi api.content
  | .hooks =>
    match (target.hooksOf config state.artifacts target.operations).2 with
    | .error _ => []
    | .ok modules => target.hookArtifacts modules

/-- A state after a step: the files that the step writes are put, plans are still kept, and the walk
over properties has moved for the step that walks only. -/
structure After (target : Interface) (config : Config) (feature : Feature)
    (state after : RunState) : Prop where
  artifacts : after.artifacts = state.artifacts.putAll (target.written config state feature)
  kept : target.Kept state.planned → target.Kept after.planned
  visited : feature ≠ .propertyTypes → after.visited = state.visited

theorem after_perform (target : Interface) (config : Config) (state : RunState)
    (feature : Feature) :
    target.After config feature state (target.perform config state feature).1 := by
  cases feature with
  | tagList | validatedTypes => exact ⟨rfl, id, fun _ => rfl⟩
  | propertyTypes => exact ⟨rfl, id, fun other => absurd rfl other⟩
  | endpoints => exact ⟨rfl, fun kept => (planTags_kept kept target.tags).2, fun _ => rfl⟩
  | domainApi =>
    have later (kept : target.Kept state.planned) :
        target.Kept (target.apisOf config state.planned target.tags).2 :=
      (apisOf_kept kept target.tags).2
    have files : target.written config state .domainApi =
        match (target.apisOf config state.planned target.tags).1 with
        | .error _ => []
        | .ok apis => apis.map fun (tag, api) => target.artifact tag .domainApi api.content := rfl
    unfold perform domainApi
    generalize target.apisOf config state.planned target.tags = result at later files
    obtain ⟨_ | _, planned⟩ := result <;> exact ⟨by rw [files]; rfl, later, fun _ => rfl⟩
  | hooks =>
    have files : target.written config state .hooks =
        match (target.hooksOf config state.artifacts target.operations).2 with
        | .error _ => []
        | .ok modules => target.hookArtifacts modules := rfl
    unfold perform hooks
    generalize target.hooksOf config state.artifacts target.operations = result at files
    obtain ⟨warnings, _ | _⟩ := result <;> exact ⟨by rw [files]; rfl, id, fun _ => rfl⟩

theorem kind_of_mem_written {state : RunState} {feature : Feature} {file : Artifact}
    (member : file ∈ target.written config state feature) : file.kind.feature = feature := by
  cases feature with
  | tagList =>
    rw [List.mem_singleton.mp member]
    rfl
  | validatedTypes | propertyTypes | endpoints =>
    obtain ⟨_, _, rfl⟩ := List.mem_map.mp member
    rfl
  | domainApi =>
    dsimp only [written] at member
    split at member
    · contradiction
    · obtain ⟨_, _, rfl⟩ := List.mem_map.mp member
      rfl
  | hooks =>
    dsimp only [written] at member
    split at member
    · contradiction
    · obtain ⟨_, _, listed⟩ := List.mem_flatMap.mp member
      simp only [List.mem_cons, List.not_mem_nil, or_false] at listed
      rcases listed with rfl | rfl <;> rfl

/-- What was planned before does not show in the files of a step, nor does the walk of another. -/
theorem written_start {state : RunState} {feature : Feature} (kept : target.Kept state.planned)
    (fresh : feature = .propertyTypes → state.visited = []) :
    target.written config state feature =
      target.written config (.start state.artifacts .zero) feature := by
  have none : target.Kept [] := fun _ _ listed => nomatch listed
  cases feature with
  | tagList | validatedTypes | hooks => rfl
  | propertyTypes =>
    unfold written
    rw [fresh rfl]
    rfl
  | endpoints =>
    dsimp only [written, RunState.start]
    rw [(planTags_kept kept _).1, (planTags_kept none _).1]
  | domainApi =>
    dsimp only [written, RunState.start]
    rw [(apisOf_kept kept _).1, (apisOf_kept none _).1]

theorem hooksOf_congr {left right : ArtifactSet}
    (same : left.only .domainApi = right.only .domainApi)
    (operations : List (Text × List OperationTypes)) :
    target.hooksOf config left operations = target.hooksOf config right operations := by
  induction operations with
  | nil => rfl
  | cons tagged rest ih =>
    rw [hooksOf, hooksOf, ih, ← ArtifactSet.content?_only, same, ArtifactSet.content?_only]

/-- Of the files that are there, a step reads the wrapper modules, and only to make hooks. -/
theorem written_congr {left right : ArtifactSet} {stats : Stats} {feature : Feature}
    (same : feature = .hooks → left.only .domainApi = right.only .domainApi) :
    target.written config (.start left stats) feature =
      target.written config (.start right stats) feature := by
  cases feature with
  | hooks =>
    unfold written RunState.start
    rw [hooksOf_congr (same rfl)]
  | tagList | validatedTypes | propertyTypes | endpoints | domainApi => rfl

theorem apisOf_disabled (off : List Feature) (planned : List (Text × List Endpoint))
    (tags : List Text) :
    target.apisOf { config with disabled := off } planned tags =
      target.apisOf config planned tags := by
  induction tags generalizing planned with
  | nil => rfl
  | cons tag rest ih =>
    simp only [apisOf, ih]
    rfl

theorem hooksOf_disabled (off : List Feature) (artifacts : ArtifactSet)
    (operations : List (Text × List OperationTypes)) :
    target.hooksOf { config with disabled := off } artifacts operations =
      target.hooksOf config artifacts operations := by
  induction operations with
  | nil => rfl
  | cons tagged rest ih =>
    rw [hooksOf, hooksOf, ih]
    rfl

/-- What is switched off says whether a step is taken, never what it writes. -/
theorem written_disabled (off : List Feature) (state : RunState) (feature : Feature) :
    target.written { config with disabled := off } state feature =
      target.written config state feature := by
  cases feature with
  | tagList | validatedTypes | propertyTypes | endpoints => rfl
  | domainApi =>
    unfold written
    rw [apisOf_disabled]
  | hooks =>
    unfold written
    rw [hooksOf_disabled]

end Written

section Steps

variable {step : Step} {feature : Feature} {kind : ArtifactKind} {reached : RunSummary × RunState}

/-- A step that is switched off does nothing; of the others only the statistics are changed
further. -/
theorem state_takeStep (target : Interface) (config : Config) (step : Step) (feature : Feature)
    (reached : RunSummary × RunState) :
    (config.isEnabled feature = false ∧
        (target.takeStep config step feature reached).2 = reached.2) ∨
      (config.isEnabled feature = true ∧
        target.After config feature reached.2 (target.takeStep config step feature reached).2) := by
  unfold takeStep
  cases on : config.isEnabled feature with
  | false => exact .inl ⟨rfl, rfl⟩
  | true =>
    refine .inr ⟨rfl, ?_⟩
    have performed := after_perform target config reached.2 feature
    simp only [if_true]
    generalize target.perform config reached.2 feature = result at performed
    obtain ⟨after, _ | error⟩ := result
    · exact performed
    · exact ⟨performed.artifacts, performed.kept, performed.visited⟩

/-- A step changes the files of its own kinds only, and those by what it writes. -/
theorem only_takeStep (target : Interface) (config : Config) (step : Step) (feature : Feature)
    (reached : RunSummary × RunState) (kind : ArtifactKind) :
    (target.takeStep config step feature reached).2.artifacts.only kind =
      if config.isEnabled feature = true ∧ kind.feature = feature then
        (reached.2.artifacts.only kind).putAll
          ((target.written config reached.2 feature).filter fun file => file.kind = kind)
      else reached.2.artifacts.only kind := by
  rcases state_takeStep target config step feature reached with ⟨off, same⟩ | ⟨on, after⟩
  · simp [off, same]
  · rw [after.artifacts, ArtifactSet.only_putAll]
    by_cases own : kind.feature = feature
    · rw [if_pos ⟨on, own⟩]
    · have none : (target.written config reached.2 feature).filter
          (fun file => file.kind = kind) = [] := by
        refine List.filter_eq_nil_iff.mpr fun file member same => own ?_
        rw [← of_decide_eq_true same]
        exact kind_of_mem_written member
      rw [if_neg fun both => own both.2, none]
      rfl

theorem planned_takeStep (kept : target.Kept reached.2.planned) :
    target.Kept (target.takeStep config step feature reached).2.planned := by
  rcases state_takeStep target config step feature reached with ⟨_, same⟩ | ⟨_, after⟩
  · rwa [same]
  · exact after.kept kept

theorem visited_takeStep (other : feature ≠ .propertyTypes) :
    (target.takeStep config step feature reached).2.visited = reached.2.visited := by
  rcases state_takeStep target config step feature reached with ⟨_, same⟩ | ⟨_, after⟩
  · rw [same]
  · exact after.visited other

/-- Takes steps in turn. -/
def takeSteps (target : Interface) (config : Config) (steps : List (Step × Feature))
    (reached : RunSummary × RunState) : RunSummary × RunState :=
  steps.foldl (fun reached (step, feature) => target.takeStep config step feature reached) reached

theorem only_takeSteps_of_other (reached : RunSummary × RunState) {steps : List (Step × Feature)}
    (other : ∀ taken ∈ steps, kind.feature ≠ taken.2) :
    (target.takeSteps config steps reached).2.artifacts.only kind =
      reached.2.artifacts.only kind := by
  induction steps generalizing reached with
  | nil => rfl
  | cons taken rest ih =>
    have here := only_takeStep target config taken.1 taken.2 reached kind
    rw [if_neg fun both => other taken List.mem_cons_self both.2] at here
    have later := ih (target.takeStep config taken.1 taken.2 reached) fun later member =>
      other later (List.mem_cons_of_mem _ member)
    exact later.trans here

/-- Of two steps, the later one is not the same, and does not write what hooks were made from. -/
def InOrder (earlier later : Step × Feature) : Prop :=
  later.2 ≠ earlier.2 ∧ (earlier.2 = .hooks → later.2 ≠ .domainApi)

instance (earlier later : Step × Feature) : Decidable (InOrder earlier later) :=
  inferInstanceAs (Decidable (_ ∧ _))

/-- After steps in order, the files of a kind are those from before and those that its step writes.
What the step reads is still there in the end, so that the state it found need not be named. -/
theorem only_takeSteps (target : Interface) (config : Config) (reached : RunSummary × RunState)
    (kind : ArtifactKind) {steps : List (Step × Feature)} (ordered : steps.Pairwise InOrder)
    (kept : target.Kept reached.2.planned)
    (fresh : (∃ taken ∈ steps, taken.2 = .propertyTypes) → reached.2.visited = [])
    (taken : ∃ taken ∈ steps, taken.2 = kind.feature) :
    let last := (target.takeSteps config steps reached).2
    last.artifacts.only kind =
      if config.isEnabled kind.feature = true then
        (reached.2.artifacts.only kind).putAll
          ((target.written config (.start last.artifacts .zero) kind.feature).filter
            fun file => file.kind = kind)
      else reached.2.artifacts.only kind := by
  intro last
  induction steps generalizing reached with
  | nil =>
    obtain ⟨_, member, _⟩ := taken
    contradiction
  | cons first rest ih =>
    obtain ⟨before, ordered⟩ := List.pairwise_cons.mp ordered
    have step := only_takeStep target config first.1 first.2 reached
    have stays (kind : ArtifactKind) (other : ∀ later ∈ rest, kind.feature ≠ later.2) :
        last.artifacts.only kind =
          (target.takeStep config first.1 first.2 reached).2.artifacts.only kind :=
      only_takeSteps_of_other (target.takeStep config first.1 first.2 reached) other
    by_cases here : first.2 = kind.feature
    · have own : ∀ later ∈ rest, kind.feature ≠ later.2 := fun later member same =>
        (before later member).1 (same.symm.trans here.symm)
      -- The wrapper modules that hooks are made from are not written by a later step.
      have reads : kind.feature = .hooks →
          reached.2.artifacts.only .domainApi = last.artifacts.only .domainApi := by
        intro hooks
        rw [stays .domainApi fun later member same =>
          (before later member).2 (here.trans hooks) same.symm, step, if_neg]
        rintro ⟨-, same⟩
        rw [here, hooks] at same
        contradiction
      have written : target.written config reached.2 kind.feature =
          target.written config (.start last.artifacts .zero) kind.feature :=
        (written_start kept fun walk =>
          fresh ⟨first, List.mem_cons_self, here.trans walk⟩).trans (written_congr reads)
      rw [stays kind own, step, here, written]
      simp
    · have later : ∃ taken ∈ rest, taken.2 = kind.feature := by
        obtain ⟨own, member, same⟩ := taken
        rcases List.mem_cons.mp member with rfl | member
        · exact absurd same here
        · exact ⟨own, member, same⟩
      have fresh : (∃ taken ∈ rest, taken.2 = .propertyTypes) →
          (target.takeStep config first.1 first.2 reached).2.visited = [] := by
        rintro ⟨walk, member, same⟩
        rw [visited_takeStep fun walks => (before walk member).1 (same.trans walks.symm)]
        exact fresh ⟨walk, List.mem_cons_of_mem _ member, same⟩
      have result := ih _ ordered (planned_takeStep kept) fresh later
      rw [step, if_neg fun both => here both.2.symm] at result
      exact result

end Steps

end Interface

section Features

variable {config : Config} {server : Server} {source : Except Text Text} {kind : ArtifactKind}

/-- The files after a run with these features switched off. -/
def runWithout (off : List Feature) (config : Config) (server : Server)
    (source : Except Text Text) (seed : ArtifactSet) : ArtifactSet :=
  (run { config with disabled := off } server source seed).artifacts

theorem ordered_laterSteps : laterSteps.Pairwise Interface.InOrder := by decide

theorem feature_mem_laterSteps (kind : ArtifactKind) :
    ∃ taken ∈ laterSteps, taken.2 = kind.feature := by
  cases kind <;> decide

/-- What a run leaves of a kind: what was there, and what the step of the kind writes if it is
switched on. -/
theorem only_runWithout (off : List Feature) (config : Config) (server : Server)
    (source : Except Text Text) (seed : ArtifactSet) (kind : ArtifactKind) :
    (runWithout off config server source seed).only kind =
      match prepare server source with
      | .aborted .. => seed.only kind
      | .ready _ target _ =>
        if kind.feature ∈ off then seed.only kind
        else (seed.only kind).putAll
          ((target.written config (.start (runWithout off config server source seed) .zero)
            kind.feature).filter fun file => file.kind = kind) := by
  unfold runWithout run
  cases prepare server source with
  | aborted successes failure stats => rfl
  | ready successes target stats =>
    have result := target.only_takeSteps { config with disabled := off }
      ({ RunSummary.start server.name with successes }, .start seed stats) kind ordered_laterSteps
      (fun _ _ listed => nomatch listed) (fun _ => rfl) (feature_mem_laterSteps kind)
    simp only [Interface.written_disabled, Config.isEnabled, decide_eq_true_eq, ite_not] at result
    exact result

theorem only_runWithout_of_mem (kind : ArtifactKind) {off : List Feature}
    (switchedOff : kind.feature ∈ off) (seed : ArtifactSet) :
    (runWithout off config server source seed).only kind = seed.only kind := by
  rw [only_runWithout]
  cases prepare server source with
  | aborted => rfl
  | ready successes target stats => exact if_pos switchedOff

/-- Runs that take the step of a kind leave the same files of it, if they begin with the same ones
and the step, where it makes hooks, finds the same wrapper modules. -/
theorem only_runWithout_congr {first second : List Feature} {left right : ArtifactSet}
    (inFirst : kind.feature ∉ first) (inSecond : kind.feature ∉ second)
    (begin : left.only kind = right.only kind)
    (reads : kind.feature = .hooks →
      (runWithout first config server source left).only .domainApi =
        (runWithout second config server source right).only .domainApi) :
    (runWithout first config server source left).only kind =
      (runWithout second config server source right).only kind := by
  rw [only_runWithout, only_runWithout second]
  cases prepare server source with
  | aborted => exact begin
  | ready successes target stats =>
    dsimp only
    rw [if_neg inFirst, if_neg inSecond, begin, Interface.written_congr reads]

/-- What else is switched on does not show in the files of a feature. Hooks depend on the feature
that writes the wrapper modules, and then only through those: begun with the wrapper modules of a
full run, a run that does not write them makes the same hooks. -/
theorem features_do_not_interfere (config : Config) (server : Server)
    (source : Except Text Text) :
    (∀ seed first second (kind : ArtifactKind), kind.feature ∉ first → kind.feature ∉ second →
      (kind.feature = .hooks → (Feature.domainApi ∈ first ↔ Feature.domainApi ∈ second)) →
      (runWithout first config server source seed).only kind =
        (runWithout second config server source seed).only kind) ∧
    (∀ off (kind : ArtifactKind), Feature.domainApi ∈ off → Feature.hooks ∉ off →
      kind.feature = .hooks →
      let full := runWithout [] config server source .empty
      (runWithout off config server source (full.only .domainApi)).only kind =
        full.only kind) := by
  constructor
  · intro seed first second kind inFirst inSecond agree
    refine only_runWithout_congr inFirst inSecond rfl fun hooks => ?_
    by_cases off : Feature.domainApi ∈ first
    · have both := (agree hooks).mp off
      rw [only_runWithout_of_mem .domainApi off,
        only_runWithout_of_mem .domainApi both]
    · have both := fun inSecond => off ((agree hooks).mpr inSecond)
      exact only_runWithout_congr off both rfl fun same => nomatch same
  · intro off kind withoutApi withHooks hooks full
    have begin : (full.only .domainApi).only kind = ArtifactSet.empty.only kind := by
      rw [ArtifactSet.only_only_of_ne fun same => by rw [← same] at hooks; contradiction]
      rfl
    refine only_runWithout_congr (hooks ▸ withHooks) List.not_mem_nil begin fun _ => ?_
    rw [only_runWithout_of_mem .domainApi withoutApi, ArtifactSet.only_only]

def teamsText : Text :=
  "\ninterface paths \x7b '/teams': \x7b " ++
      "get: operations['list']; post: operations['add'] \x7d \x7d" ++
    "\ninterface operations \x7b list: \x7b responses: \x7b 200: \x7b content: " ++
      "\x7b 'application/json': string[] \x7d \x7d \x7d \x7d; " ++
      "add: \x7b responses: \x7b 204: \x7b content?: never \x7d \x7d \x7d \x7d"

/-- The files of a run over teams without some features. -/
def teamsWithout (off : List Feature) (seed : ArtifactSet) : ArtifactSet :=
  runWithout off .standard ⟨"main", none⟩ (.ok teamsText) seed

theorem teams_features_do_not_interfere :
    (teamsWithout [.endpoints] .empty).only .domainApi =
        (teamsWithout [.tagList, .hooks] .empty).only .domainApi ∧
      (teamsWithout [.endpoints] .empty).only .mutationHooks =
        (teamsWithout [.propertyTypes] .empty).only .mutationHooks ∧
      (teamsWithout [.domainApi] ((teamsWithout [] .empty).only .domainApi)).only .mutationHooks =
        (teamsWithout [] .empty).only .mutationHooks ∧
      ((teamsWithout [] .empty).only .mutationHooks).artifacts.length = 1 ∧
      (teamsWithout [.domainApi] .empty).only .mutationHooks = .empty := by
  obtain ⟨alike, seeded⟩ :=
    features_do_not_interfere .standard ⟨"main", none⟩ (.ok teamsText)
  exact ⟨alike .empty [.endpoints] [.tagList, .hooks] .domainApi (by decide) (by decide)
      (by decide),
    alike .empty [.endpoints] [.propertyTypes] .mutationHooks (by decide) (by decide) (by decide),
    seeded [.domainApi] .mutationHooks (by decide) (by decide) rfl,
    by decide +kernel, by decide +kernel⟩

end Features

end TypedClient
