import Mathlib.Data.List.Flatten
import TypedClient.Proofs.Description.Duplicates
import TypedClient.Proofs.Text.Trim

/-!
Names of aliases that are told apart. Main statement: a description has a model exactly if an id tells
which method of which path has it, and the names of the aliases of a model are all distinct, also where
an id ends as the name of an alias does.
-/

namespace TypedClient

open Text

namespace AliasKind

theorem ending_free (kind : AliasKind) : kind.ending.reverse.all (· != '_') = true := by
  cases kind <;> decide

theorem ending_injective {kind other : AliasKind} (same : kind.ending = other.ending) :
    kind = other := by
  cases kind <;> cases other <;> first | rfl | exact absurd same (by decide)

/-- The last underscore of an alias name parts the id from the kind. -/
theorem aliasName_injective {kind other : AliasKind} {id second : Text}
    (same : kind.aliasName id = other.aliasName second) : kind = other ∧ id = second := by
  have reversed : ∀ (kind : AliasKind) (id : Text),
      (kind.aliasName id).reverse = kind.ending.reverse ++ '_' :: id.reverse := by
    intro kind id
    simp [aliasName]
  have stops : ∀ id : Text, ('_' :: id.reverse).head?.all (fun c => !(c != '_')) = true :=
    fun _ => rfl
  have written : kind.ending.reverse ++ '_' :: id.reverse =
      other.ending.reverse ++ '_' :: second.reverse := by
    rw [← reversed, ← reversed, same]
  have endings := congrArg (List.takeWhile (· != '_')) written
  rw [takeWhile_append_of_stop _ kind.ending_free (stops id),
    takeWhile_append_of_stop _ other.ending_free (stops second)] at endings
  obtain rfl := ending_injective (List.reverse_injective endings)
  have ids := List.append_cancel_left written
  rw [List.cons.injEq] at ids
  exact ⟨rfl, List.reverse_injective ids.2⟩

end AliasKind

namespace OperationTypes

/-- The aliases of an operation are among those that its id allows. -/
theorem names_sublist (types : OperationTypes) :
    (types.aliases.map (·.name)).Sublist
      (AliasKind.ofOperation.map (·.aliasName types.id)) := by
  unfold aliases AliasKind.ofOperation
  cases types.params <;> cases types.body <;> cases types.payload <;>
    simp [aliasOf, nameOf]

end OperationTypes

/-- Ids that are apart stay apart through all names that are made of them. -/
theorem nodup_aliasNames {ids : List Text} (distinct : ids.Nodup) :
    (ids.flatMap fun id => AliasKind.ofOperation.map (·.aliasName id)).Nodup := by
  refine List.nodup_flatMap.mpr ⟨fun id _ => ?_, ?_⟩
  · exact List.Nodup.map (fun _ _ same => (AliasKind.aliasName_injective same).1) (by decide)
  · refine distinct.imp fun different => ?_
    intro name first second
    obtain ⟨_, _, rfl⟩ := List.mem_map.mp first
    obtain ⟨_, _, same⟩ := List.mem_map.mp second
    exact different (AliasKind.aliasName_injective same).2.symm

namespace Description

variable {description : Description}

/-- An id tells the path and the method of the operation that has it. -/
def IdsApart (description : Description) : Prop :=
  ∀ path method operation path' method' operation',
    (description.operation? path method).value = some operation →
    (description.operation? path' method').value = some operation' →
    operation.id = operation'.id → path = path' ∧ method = method'

theorem nodup_ids_iff (indexed : description.Indexed) :
    ((operationsIn description.pathEntries.value).map (·.id)).Nodup ↔ description.IdsApart := by
  rw [List.nodup_map_iff_inj_on (nodup_operations indexed)]
  constructor
  · intro apart path method operation path' method' operation' first second same
    obtain ⟨rfl, rfl⟩ := operation?_keyed first
    obtain ⟨rfl, rfl⟩ := operation?_keyed second
    have equal := apart operation ((mem_operations_iff indexed).mpr first) operation'
      ((mem_operations_iff indexed).mpr second) same
    exact ⟨congrArg (·.path) equal, congrArg (·.method) equal⟩
  · intro apart first here second there same
    obtain ⟨path, method⟩ := apart _ _ first _ _ second ((mem_operations_iff indexed).mp here)
      ((mem_operations_iff indexed).mp there) same
    exact eq_of_place indexed here there method path

/-- The names of the aliases of all operations, one operation after the other. -/
def aliasNames (description : Description) (operations : List Operation) : List Text :=
  operations.flatMap fun operation =>
    (description.typesOf operation).value.aliases.map (·.name)

theorem aliasNames_sublist (description : Description) (operations : List Operation) :
    (description.aliasNames operations).Sublist
      ((operations.map (·.id)).flatMap fun id => AliasKind.ofOperation.map (·.aliasName id)) := by
  rw [List.flatMap_map]
  refine List.Sublist.flatMap_right _ fun operation _ => ?_
  rw [← description.id_typesOf operation]
  exact OperationTypes.names_sublist _

/-- A description has a model exactly if an id tells which method of which path has it. The aliases
of a model all have names of their own, and so do all that could be made of its ids. -/
theorem model_names_distinct (text : Text) :
    let description := (ofText text).value
    ((∃ entries, description.model.value = .ok entries) ↔ description.IdsApart) ∧
      ∀ entries, description.model.value = .ok entries →
        (description.aliasNames (operationsIn entries)).Nodup ∧
          (((operationsIn entries).map (·.id)).flatMap fun id =>
            AliasKind.ofOperation.map (·.aliasName id)).Nodup := by
  intro description
  refine ⟨(model_ok_iff description).trans (nodup_ids_iff (indexed_ofText text)), ?_⟩
  intro entries extracted
  have names := nodup_aliasNames (nodup_of_model extracted)
  exact ⟨(description.aliasNames_sublist _).nodup names, names⟩

/-- An operation with a body, and one whose id is the name of the alias of that body. -/
def suffixedText : Text :=
  "interface paths \x7b '/teams': \x7b put: operations['save']; " ++
      "post: operations['save_Body'] \x7d \x7d\n" ++
    "interface operations \x7b save: \x7b requestBody: \x7b content: \x7b " ++
      "'application/json': string \x7d \x7d; responses: \x7b 204: \x7b content?: never \x7d " ++
      "\x7d \x7d; save_Body: \x7b responses: \x7b 204: \x7b content?: never \x7d \x7d \x7d \x7d"

theorem suffixed_names_distinct :
    let description := (ofText suffixedText).value
    ∃ entries, description.model.value = .ok entries ∧
      description.aliasNames (operationsIn entries) =
        (["save_Body", "save_Response", "save_Body_Response"] : List Text) ∧
      (description.aliasNames (operationsIn entries)).Nodup := by
  intro description
  have read : description.model.value.toOption.map
      (fun entries => description.aliasNames (operationsIn entries)) =
        some (["save_Body", "save_Response", "save_Body_Response"] : List Text) := by
    decide +kernel
  cases extracted : description.model.value with
  | error duplicate =>
    rw [extracted] at read
    contradiction
  | ok entries =>
    rw [extracted] at read
    have apart := (model_names_distinct suffixedText).2 entries extracted
    exact ⟨entries, rfl, Option.some.inj read, apart.1⟩

end Description

end TypedClient
