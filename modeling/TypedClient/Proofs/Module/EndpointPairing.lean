import TypedClient.Proofs.Module.ApiRoundTrip
import TypedClient.Proofs.Name.Unique

/-!
Endpoints and the operations they are planned from. Main statement: where no two operations have the
same id, a module of wrappers pairs each operation with the endpoint planned from that operation, so
that only an unknown placeholder in a template can keep the module from being generated.
-/

namespace TypedClient

open Text Name

variable {operations : List OperationTypes} {planned : List Endpoint} {config : Config}

namespace Endpoint

/-- An endpoint stands for this operation. -/
def IsFor (endpoint : Endpoint) (types : OperationTypes) : Prop :=
  endpoint.operation = types.id ∧ endpoint.method = types.method ∧ endpoint.path = types.path

theorem isFor_plan (operations : List OperationTypes) :
    List.Forall₂ IsFor (plan operations) operations := by
  have length : (uniques [] (operations.map fun types =>
      Path.constantName types.method types.path)).length = operations.length := by simp
  unfold plan
  generalize uniques [] (operations.map fun types =>
    Path.constantName types.method types.path) = names at length
  induction operations generalizing names with
  | nil => simp
  | cons types rest ih =>
    cases names with
    | nil => contradiction
    | cons name names => exact .cons ⟨rfl, rfl, rfl⟩ (ih names (Nat.succ.inj length))

theorem names_plan (operations : List OperationTypes) :
    (plan operations).map (·.name) =
      uniques [] (operations.map fun types => Path.constantName types.method types.path) := by
  unfold plan
  rw [map_zipWith_right (g := Endpoint.name) (h := id) fun _ _ => rfl, List.map_id]
  simp

/-- No two endpoints of a plan have the same name. -/
theorem nodup_names_plan (operations : List OperationTypes) :
    ((plan operations).map (·.name)).Nodup := by
  rw [names_plan]
  exact nodup_uniques [] _

end Endpoint

namespace DomainApi

theorem endpointFor_of_isFor (server tag : Text) (distinct : (planned.map (·.operation)).Nodup)
    {endpoint : Endpoint} (listed : endpoint ∈ planned) {types : OperationTypes}
    (own : endpoint.IsFor types) : endpointFor server tag planned types = .ok endpoint := by
  have found := find?_key distinct listed
  rw [own.1] at found
  rw [endpointFor, found]

/-- Every operation is paired with the endpoint that was planned from it. -/
theorem mapM_endpointFor_plan (server tag : Text) (distinct : (operations.map (·.id)).Nodup) :
    operations.mapM (endpointFor server tag (Endpoint.plan operations)) =
      .ok (Endpoint.plan operations) := by
  rw [← Endpoint.operations_plan] at distinct
  have paired : ∀ (rest : List OperationTypes) (part : List Endpoint),
      List.Forall₂ Endpoint.IsFor part rest → part ⊆ Endpoint.plan operations →
      rest.mapM (endpointFor server tag (Endpoint.plan operations)) = .ok part := by
    intro rest part own inside
    induction own with
    | nil => rfl
    | cons here _ ih =>
      obtain ⟨listed, inside⟩ := List.cons_subset.mp inside
      rw [List.mapM_cons, endpointFor_of_isFor server tag distinct listed here, ih inside]
      rfl
  exact paired operations _ (Endpoint.isFor_plan operations) (List.Subset.refl _)

/-- The texts of the wrappers for operations and their endpoints. -/
def blocksOf (config : Config) (operations : List OperationTypes) (endpoints : List Endpoint) :
    List Text :=
  ((wrappersOf config.verbs operations).zip (operations.zip endpoints)).map
    fun (wrapper, types, endpoint) =>
      wrapper.render types.parameters endpoint config.templates.wrapper

/-- The module of wrappers for the operations of a tag. -/
def ofPlan (config : Config) (operations : List OperationTypes) : DomainApi :=
  if operations = [] then ⟨Module.empty, []⟩
  else
    ⟨Module.assemble
        (importsOf config.imports (Endpoint.plan operations) (wrappersOf config.verbs operations) ::
          blocksOf config operations (Endpoint.plan operations)),
      wrappersOf config.verbs operations⟩

theorem generate_plan (server tag : Text) (distinct : (operations.map (·.id)).Nodup)
    (known : config.templates.unknown? = none) :
    generate server tag operations (Endpoint.plan operations) config =
      .ok (ofPlan config operations) := by
  have paired := mapM_endpointFor_plan server tag distinct
  unfold generate ofPlan
  rw [known]
  by_cases none : operations = []
  · simp only [none, if_true]
    rfl
  · simp only [none, if_false, paired]
    rfl

theorem generate_of_unknown (server tag : Text) (operations : List OperationTypes)
    (planned : List Endpoint) {unknown : UnknownPlaceholder}
    (present : config.templates.unknown? = some unknown) :
    generate server tag operations planned config = .error (.template unknown) := by
  unfold generate
  rw [present]
  rfl

end DomainApi

end TypedClient
