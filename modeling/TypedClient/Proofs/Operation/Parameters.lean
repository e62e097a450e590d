import TypedClient.Operation.Types
import TypedClient.Proofs.Operation.PathParameters

/-!
The parameters of an operation that is read from a body and typed. Main statement: every
placeholder of its path is among its path parameters.
-/

namespace TypedClient

open Text

theorem isSome_paramsTarget? {parameters : List Parameter} :
    (paramsTarget? parameters).isSome = true ↔ parameters ≠ [] := by
  unfold paramsTarget?
  split <;> simp_all

/-- An operation read from a body, with its types. -/
def Description.typed (description : Description) (id : Text) (method : Method)
    (path body : Text) (synthesized : Bool) : OperationTypes :=
  (description.typesOf (Operation.ofBody id method path body synthesized).value).value

namespace Description

variable (description : Description) (operation : Operation)

theorem id_typesOf : (description.typesOf operation).value.id = operation.id := by
  unfold typesOf
  dsimp only
  split <;> rfl

theorem method_typesOf : (description.typesOf operation).value.method = operation.method := by
  unfold typesOf
  dsimp only
  split <;> rfl

theorem path_typesOf : (description.typesOf operation).value.path = operation.path := by
  unfold typesOf
  dsimp only
  split <;> rfl

theorem parameters_typesOf :
    (description.typesOf operation).value.parameters = operation.parameters := by
  unfold typesOf
  dsimp only
  split <;> rfl

theorem params_typesOf :
    (description.typesOf operation).value.params = paramsTarget? operation.parameters := by
  unfold typesOf
  dsimp only
  split <;> rfl

section Typed

variable (id path body : Text) (method : Method) (synthesized : Bool)

theorem path_typed : (description.typed id method path body synthesized).path = path :=
  description.path_typesOf _

theorem parameters_typed : (description.typed id method path body synthesized).parameters =
    (Parameter.ofOperation id path body).value :=
  description.parameters_typesOf _

/-- The placeholders of the path are among the path parameters. -/
theorem declared_typed : ∀ placeholder ∈ Path.placeholders path,
    ∃ parameter ∈ (description.typed id method path body synthesized).parameters,
      parameter.name = placeholder ∧ parameter.location = .path := by
  intro placeholder inPath
  rw [parameters_typed]
  exact Parameter.of_mem_placeholders inPath id body

theorem params_typed : (description.typed id method path body synthesized).params =
    paramsTarget? (description.typed id method path body synthesized).parameters := by
  rw [parameters_typed]
  exact description.params_typesOf _

end Typed

end Description

end TypedClient
