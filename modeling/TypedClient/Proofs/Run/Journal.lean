import TypedClient.Proofs.Run.Loop

/-!
What a run makes of its steps. Main statement: they are visited in order and each is accounted for
once; where the run is aborted, nothing has been written.
-/

namespace TypedClient

open Text

variable {config : Config} {server : Server} {source : Except Text Text} {seed : ArtifactSet}
  {progress : Progress} {step : Step}

section Order

/-- A journal of steps taken in order: every one is visited, but none after one that aborts the
run. -/
inductive Follows : List Step → Journal → Prop
  | done : Follows [] []
  | next {step : Step} {fate : Fate} {rest : List Step} {journal : Journal}
      (goesOn : abort? (step, fate) = none) (more : Follows rest journal) :
      Follows (step :: rest) ((step, fate) :: journal)
  | stop {step : Step} {fate : Fate} (rest : List Step) {failure : StepFailure}
      (stops : abort? (step, fate) = some failure) : Follows (step :: rest) [(step, fate)]

theorem Progress.follows_visitAll (config : Config) (server : Server)
    (source : Except Text Text) (ongoing : progress.isAborted = false) (steps : List Step) :
    ∃ taken, (progress.visitAll config server source steps).journal = progress.journal ++ taken ∧
      Follows steps taken := by
  induction steps generalizing progress with
  | nil => exact ⟨[], (List.append_nil _).symm, .done⟩
  | cons step rest ih =>
    obtain ⟨fate, after⟩ := visited_visit config server source progress step
    have fresh : progress.journal.findSome? abort? = none := by
      simpa [isAborted] using ongoing
    have decides : (progress.visit config server source step).isAborted =
        (abort? (step, fate)).isSome := by
      rw [isAborted, after.journal, List.findSome?_append, fresh, List.findSome?_singleton,
        Option.none_or]
    cases stops : abort? (step, fate) with
    | some failure =>
      rw [stops] at decides
      rw [visitAll_aborted decides]
      exact ⟨[(step, fate)], after.journal, .stop rest stops⟩
    | none =>
      rw [stops] at decides
      obtain ⟨taken, added, follows⟩ := ih decides
      rw [visitAll_ongoing decides]
      refine ⟨(step, fate) :: taken, ?_, .next stops follows⟩
      rw [added, after.journal, List.append_assoc, List.singleton_append]

namespace Follows

variable {steps : List Step} {journal : Journal} {failure : StepFailure}

theorem visited_prefix (follows : Follows steps journal) : journal.map (·.1) <+: steps := by
  induction follows with
  | done => exact List.prefix_refl []
  | next _ _ ih => exact List.cons_prefix_cons.mpr ⟨rfl, ih⟩
  | stop rest _ => exact List.cons_prefix_cons.mpr ⟨rfl, List.nil_prefix⟩

/-- A run that is not aborted has visited every step. -/
theorem all_visited (follows : Follows steps journal) (ongoing : journal.findSome? abort? = none) :
    journal.map (·.1) = steps := by
  induction follows with
  | done => rfl
  | next goesOn _ ih =>
    rw [List.findSome?_cons, goesOn] at ongoing
    rw [List.map_cons, ih ongoing]
  | stop rest stops =>
    rw [List.findSome?_singleton, stops] at ongoing
    contradiction

theorem step_of_abort? {entry : Step × Fate} (stops : abort? entry = some failure) :
    failure.step = entry.1 ∧ entry.1.isRequired = true := by
  obtain ⟨step, fate⟩ := entry
  cases fate with
  | succeeded | skipped => contradiction
  | failed error =>
    rw [abort?] at stops
    split at stops
    · rename_i required
      cases stops
      exact ⟨rfl, required⟩
    · contradiction

/-- The step that aborts a run is required, and the last one visited. -/
theorem last_visited (follows : Follows steps journal)
    (aborted : journal.findSome? abort? = some failure) :
    failure.step.isRequired = true ∧ (journal.map (·.1)).getLast? = some failure.step := by
  induction follows with
  | done => contradiction
  | @next step fate rest journal goesOn more ih =>
    rw [List.findSome?_cons, goesOn] at aborted
    obtain ⟨required, last⟩ := ih aborted
    refine ⟨required, ?_⟩
    rw [List.map_cons, List.getLast?_cons, last]
    rfl
  | stop rest stops =>
    rw [List.findSome?_singleton, stops] at aborted
    cases aborted
    obtain ⟨same, required⟩ := step_of_abort? stops
    rw [same]
    exact ⟨required, rfl⟩

theorem recorded_cons (name : Text) (journal : Journal) {entry : Step × Fate}
    (goesOn : abort? entry = none) :
    (RunSummary.ofJournal name (entry :: journal)).recorded.Perm
      (entry.1 :: (RunSummary.ofJournal name journal).recorded) := by
  obtain ⟨step, fate⟩ := entry
  let rest := RunSummary.ofJournal name journal
  cases fate with
  | succeeded => exact List.Perm.refl _
  | skipped =>
    change (rest.successes ++ step :: rest.skipped ++ rest.failures.map (·.step) ++
      rest.aborted.toList.map (·.step)).Perm (step :: rest.recorded)
    simp only [List.append_assoc, List.cons_append, RunSummary.recorded]
    exact List.perm_middle
  | failed error =>
    have optional : step.isRequired = false := by simpa [abort?] using goesOn
    have failed : RunSummary.ofJournal name ((step, .failed error) :: journal) =
        { rest with failures := ⟨step, error⟩ :: rest.failures } := by
      simp [rest, RunSummary.ofJournal, failure?, abort?, optional]
    rw [failed]
    change (rest.successes ++ rest.skipped ++ step :: rest.failures.map (·.step) ++
      rest.aborted.toList.map (·.step)).Perm (step :: rest.recorded)
    simp only [List.append_assoc, List.cons_append, RunSummary.recorded]
    exact (List.perm_middle.append_left rest.successes).trans List.perm_middle

/-- A summary names each visited step once. -/
theorem recorded_perm (follows : Follows steps journal) (name : Text) :
    (RunSummary.ofJournal name journal).recorded.Perm (journal.map (·.1)) := by
  induction follows with
  | done => exact List.Perm.refl _
  | next goesOn _ ih => exact (recorded_cons name _ goesOn).trans (ih.cons _)
  | @stop step fate rest failure stops =>
    obtain ⟨same, required⟩ := step_of_abort? stops
    cases fate with
    | succeeded | skipped => contradiction
    | failed error => simp [RunSummary.recorded, RunSummary.ofJournal, failure?, abort?, required]

end Follows

end Order

section Accounts

/-- What holds between two steps of a run. -/
structure Sound (config : Config) (seed : ArtifactSet) (progress : Progress) : Prop where
  skipped : ∀ entry ∈ progress.journal, entry.2 = .skipped ↔
    ∃ feature, entry.1.feature? = some feature ∧ config.isEnabled feature = false
  warned : ∀ entry ∈ progress.journal, ∀ failure ∈ failure? entry,
    .stepFailed failure.step failure.error ∈ progress.state.stats.warnings
  untouched : (∀ entry ∈ progress.journal, entry.1.isRequired = true) →
    progress.state.artifacts = seed ∧ progress.state.stats.artifactsGenerated = 0

namespace Sound

theorem start (config : Config) (seed : ArtifactSet) : Sound config seed (.start seed) :=
  ⟨by intro entry listed; contradiction, by intro entry listed; contradiction, fun _ => ⟨rfl, rfl⟩⟩

theorem visit (sound : Sound config seed progress) (server : Server) (source : Except Text Text)
    (step : Step) : Sound config seed (progress.visit config server source step) := by
  obtain ⟨fate, after⟩ := progress.visited_visit config server source step
  constructor
  · intro entry listed
    rw [after.journal, List.mem_append, List.mem_singleton] at listed
    rcases listed with earlier | rfl
    · exact sound.skipped entry earlier
    · exact after.skipped
  · intro entry listed failure failed
    rw [after.journal, List.mem_append, List.mem_singleton] at listed
    rcases listed with earlier | rfl
    · exact after.warnings (sound.warned entry earlier failure failed)
    · exact after.warned failure failed
  · intro required
    rw [after.journal] at required
    obtain ⟨artifacts, counted⟩ := after.untouched
      (required (step, fate) (List.mem_append_right _ List.mem_cons_self))
    obtain ⟨begun, none⟩ := sound.untouched fun entry earlier =>
      required entry (List.mem_append_left _ earlier)
    exact ⟨artifacts.trans begun, counted.trans none⟩

theorem visitAll (sound : Sound config seed progress) (server : Server)
    (source : Except Text Text) (steps : List Step) :
    Sound config seed (progress.visitAll config server source steps) := by
  induction steps generalizing progress with
  | nil => exact sound
  | cons step rest ih =>
    unfold Progress.visitAll
    dsimp only
    split
    · exact sound.visit server source step
    · exact ih (sound.visit server source step)

/-- Of the steps visited, those are skipped that are switched off. -/
theorem mem_skipped (sound : Sound config seed progress) (name : Text)
    (visited : step ∈ progress.journal.map (·.1)) :
    step ∈ (RunSummary.ofJournal name progress.journal).skipped ↔
      ∃ feature, step.feature? = some feature ∧ config.isEnabled feature = false := by
  constructor
  · intro skipped
    obtain ⟨entry, listed, rfl⟩ := List.mem_map.mp skipped
    obtain ⟨inside, fate⟩ := List.mem_filter.mp listed
    exact (sound.skipped entry inside).mp (of_decide_eq_true fate)
  · intro off
    obtain ⟨entry, inside, rfl⟩ := List.mem_map.mp visited
    have fate := (sound.skipped entry inside).mpr off
    exact List.mem_map_of_mem (List.mem_filter.mpr ⟨inside, decide_eq_true fate⟩)

end Sound

theorem optional_of_failure? {entry : Step × Fate} {failure : StepFailure}
    (failed : failure? entry = some failure) : failure.step.isRequired = false := by
  obtain ⟨step, fate⟩ := entry
  cases fate with
  | succeeded | skipped => contradiction
  | failed error =>
    rw [failure?] at failed
    split at failed
    · contradiction
    · rename_i optional
      cases failed
      simpa using optional

theorem follows_loop (config : Config) (server : Server) (source : Except Text Text)
    (seed : ArtifactSet) : Follows Step.all (loop config server source seed).journal := by
  obtain ⟨taken, journal, follows⟩ :=
    (Progress.start seed).follows_visitAll config server source rfl Step.all
  have same : (loop config server source seed).journal = taken := journal
  rwa [same]

theorem sound_loop (config : Config) (server : Server) (source : Except Text Text)
    (seed : ArtifactSet) : Sound config seed (loop config server source seed) :=
  (Sound.start config seed).visitAll server source Step.all

/-- Every step before a required one is required. -/
theorem required_of_last {visited : List Step} (order : visited <+: Step.all)
    (last : visited.getLast? = some step) (required : step.isRequired = true) :
    ∀ other ∈ visited, other.isRequired = true := by
  have ordered : Step.all.Pairwise fun earlier later =>
      later.isRequired = true → earlier.isRequired = true := by decide
  obtain ⟨earlier, rfl⟩ := List.getLast?_eq_some_iff.mp last
  have before := (List.pairwise_append.mp (ordered.sublist order.sublist)).2.2
  intro other listed
  rcases List.mem_append.mp listed with inside | here
  · exact before other inside step List.mem_cons_self required
  · rwa [List.mem_singleton.mp here]

/-- A run visits the steps in their order and accounts for each of them once. A step is skipped if
it is switched off. A required step that fails ends the run before anything is written; a failure of
another step is reported, and the run goes on to its end. -/
theorem run_accounts_for_steps (config : Config) (server : Server) (source : Except Text Text)
    (seed : ArtifactSet) :
    let outcome := run config server source seed
    let visited := (loop config server source seed).journal.map (·.1)
    outcome = (loop config server source seed).outcome server ∧
    visited <+: Step.all ∧
    (∀ step, outcome.summary.recorded.count step = if step ∈ visited then 1 else 0) ∧
    (∀ step ∈ visited, step ∈ outcome.summary.skipped ↔
      ∃ feature, step.feature? = some feature ∧ config.isEnabled feature = false) ∧
    (∀ failure, outcome.summary.aborted = some failure →
      failure.step.isRequired = true ∧ visited.getLast? = some failure.step ∧
        outcome.artifacts = seed ∧ outcome.stats.artifactsGenerated = 0) ∧
    (outcome.summary.aborted = none → visited = Step.all ∧
      ∀ failure ∈ outcome.summary.failures, failure.step.isRequired = false ∧
        .stepFailed failure.step failure.error ∈ outcome.stats.warnings) := by
  intro outcome visited
  have follows := follows_loop config server source seed
  have sound := sound_loop config server source seed
  have same : outcome = (loop config server source seed).outcome server :=
    run_eq_loop config server source seed
  have order : visited <+: Step.all := follows.visited_prefix
  have distinct : visited.Nodup := (by decide : Step.all.Nodup).sublist order.sublist
  refine ⟨same, order, ?_, ?_, ?_, ?_⟩
  · intro step
    rw [same]
    exact ((follows.recorded_perm server.name).count_eq step).trans distinct.count
  · intro step listed
    rw [same]
    exact sound.mem_skipped server.name listed
  · intro failure aborted
    rw [same] at aborted ⊢
    obtain ⟨required, last⟩ := follows.last_visited aborted
    have all := required_of_last order last required
    exact ⟨required, last, sound.untouched fun entry listed =>
      all entry.1 (List.mem_map_of_mem listed)⟩
  · intro ongoing
    rw [same] at ongoing ⊢
    refine ⟨follows.all_visited ongoing, fun failure listed => ?_⟩
    obtain ⟨entry, inside, failed⟩ := List.mem_filterMap.mp listed
    exact ⟨optional_of_failure? failed, sound.warned entry inside failure failed⟩

end Accounts

end TypedClient
