import Mathlib.Data.List.Flatten
import TypedClient.Proofs.Description.Duplicates
import TypedClient.Proofs.Tag.Classification
import TypedClient.Run.Basic

/-!
What the required steps hand on. Main statement: the tags of an interface ascend, no two operations
of a tag have the same id, and every operation has a method that is known.
-/

namespace TypedClient

open Text

variable {server : Server} {source : Except Text Text}

theorem Description.known_of_model {text : Text} {entries : List PathEntry}
    (extracted : (Description.ofText text).value.model.value = .ok entries) :
    ∀ operation ∈ operationsIn entries, operation.method ∈ Method.known := by
  intro operation listed
  rw [eq_of_model extracted] at listed
  obtain ⟨entry, inside, present⟩ := List.mem_flatMap.mp listed
  have found := (listed_iff_operation? (indexed_ofText text)).mp
    ⟨entry, inside, rfl, present, rfl⟩
  exact known_of_operation? found

namespace Interface

variable {target : Interface} {tag : Text} {operations : List OperationTypes}

/-- Tags ascend, and ids are distinct within a tag. -/
structure Orderly (target : Interface) : Prop where
  tags : Table.Ascending target.tags
  ids : ∀ tagged ∈ target.operations, (tagged.2.map (·.id)).Nodup

theorem tags_typed (description : Description) (classification : Classification)
    (entries : List PathEntry) :
    (typed description classification entries).value.map (·.1) = classification.tagNames := by
  have kept : (typed description classification entries).value =
      classification.tagNames.map fun tag => (tag,
        (Reported.forEach (operationsIn (classification.entriesOf tag entries))
          description.typesOf).value) := rfl
  rw [kept, List.map_map]
  exact List.map_id _

theorem operations_typed {description : Description} {classification : Classification}
    {entries : List PathEntry} {tagged : Text × List OperationTypes}
    (listed : tagged ∈ (typed description classification entries).value) :
    ∃ operations : List Operation, operations.Sublist (operationsIn entries) ∧
      tagged.2 = operations.map fun operation => (description.typesOf operation).value := by
  obtain ⟨tag, _, rfl⟩ := List.mem_map.mp listed
  exact ⟨operationsIn (classification.entriesOf tag entries),
    List.Sublist.flatMap List.filter_sublist _, rfl⟩

theorem ids_typed (description : Description) (classification : Classification)
    {entries : List PathEntry} (distinct : ((operationsIn entries).map (·.id)).Nodup) :
    ∀ tagged ∈ (typed description classification entries).value,
      (tagged.2.map (·.id)).Nodup := by
  intro tagged member
  obtain ⟨operations, part, same⟩ := operations_typed member
  have ids : tagged.2.map (·.id) = operations.map (·.id) := by
    rw [same, List.map_map]
    exact List.map_congr_left fun operation _ => description.id_typesOf operation
  exact ids.symm ▸ distinct.sublist (part.map _)

theorem methods_typed (description : Description) (classification : Classification)
    {entries : List PathEntry}
    (known : ∀ operation ∈ operationsIn entries, operation.method ∈ Method.known) :
    ∀ tagged ∈ (typed description classification entries).value,
      ∀ types ∈ tagged.2, types.method ∈ Method.known := by
  intro tagged member types listed
  obtain ⟨operations, part, same⟩ := operations_typed member
  rw [same] at listed
  obtain ⟨operation, inside, rfl⟩ := List.mem_map.mp listed
  rw [description.method_typesOf]
  exact known operation (part.subset inside)

theorem Orderly.operationsOf_of_mem (orderly : target.Orderly)
    (listed : (tag, operations) ∈ target.operations) : target.operationsOf tag = operations := by
  rw [operationsOf, Table.lookup_of_mem orderly.tags.nodup listed]
  rfl

theorem Orderly.nodup_ids (orderly : target.Orderly) (tag : Text) :
    ((target.operationsOf tag).map (·.id)).Nodup := by
  unfold operationsOf
  cases found : target.operations.lookup tag with
  | none => exact List.nodup_nil
  | some operations =>
    exact orderly.ids (tag, operations) (Table.mem_of_lookup found)

end Interface

variable {successes : List Step} {target : Interface} {stats : Stats}

/-- What the required steps hand on is made from the entries of the model. -/
theorem prepare_ready (ready : prepare server source = .ready successes target stats) :
    ∃ text entries, source = .ok text ∧
      (Description.ofText text).value.model.value = .ok entries ∧
      target = ⟨server.name, (Description.ofText text).value,
        Classification.ofEntries server.excludedTag entries,
        (Interface.typed (Description.ofText text).value
          (Classification.ofEntries server.excludedTag entries) entries).value⟩ ∧
      stats.pathsDiscovered = entries.length ∧
      stats.pathsExcluded = target.classification.excluded.length ∧
      stats.tagsClassified = target.classification.tags.length ∧
      stats.operationsExtracted = Interface.countOperations target.operations := by
  unfold prepare at ready
  split at ready
  · contradiction
  · dsimp only at ready
    split at ready
    · contradiction
    · rename_i text _ entries extracted
      cases ready
      exact ⟨text, entries, rfl, extracted, rfl, rfl, rfl, rfl, rfl⟩

/-- The interface that the required steps hand on. -/
theorem orderly_of_prepare (ready : prepare server source = .ready successes target stats) :
    target.Orderly ∧ target.server = server.name := by
  obtain ⟨text, entries, _, extracted, rfl, _⟩ := prepare_ready ready
  refine ⟨⟨?_, ?_⟩, rfl⟩
  · rw [Interface.tags, Interface.tags_typed]
    exact Classification.ascending_ofPaths _ _
  · exact Interface.ids_typed _ _ (Description.nodup_of_model extracted)

theorem known_of_prepare (ready : prepare server source = .ready successes target stats) :
    ∀ tagged ∈ target.operations, ∀ types ∈ tagged.2, types.method ∈ Method.known := by
  obtain ⟨text, entries, _, extracted, rfl, _⟩ := prepare_ready ready
  exact Interface.methods_typed _ _ (Description.known_of_model extracted)

/-- A run that is not aborted has an interface. -/
theorem prepare_of_not_aborted {config : Config} {seed : ArtifactSet}
    (ongoing : (run config server source seed).summary.aborted = none) :
    ∃ successes target stats, prepare server source = .ready successes target stats := by
  unfold run at ongoing
  cases prepared : prepare server source with
  | aborted successes failure stats =>
    rw [prepared] at ongoing
    contradiction
  | ready successes target stats => exact ⟨successes, target, stats, rfl⟩

end TypedClient
