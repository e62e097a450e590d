import Mathlib.Data.List.Nodup
import TypedClient.Proofs.Module.WrapperScope

/-!
The parameters of an operation in one flat object. Main statement: its keys are pairwise distinct
exactly if no name is declared twice, be it in two locations, and a query parameter is sent exactly
if its name is no path or header parameter's.
-/

namespace TypedClient

open Text Name

section Keys

variable {special : Char → Bool}

/-- A special character never comes first, as its backslash does. -/
theorem not_special_of_escape_eq_cons (plain : special '\\' = false) {text rest : Text} {c : Char}
    (opens : escape special text = c :: rest) : special c = false := by
  cases text with
  | nil => contradiction
  | cons first more =>
    rw [escape_cons] at opens
    split at opens
    · cases opens
      exact plain
    · rename_i other
      cases opens
      simpa using other

/-- Escaping keeps texts apart. -/
theorem escape_injective (plain : special '\\' = false) :
    Function.Injective (escape special) := by
  intro left
  induction left with
  | nil =>
    intro right same
    cases right with
    | nil => rfl
    | cons c rest =>
      rw [escape_cons] at same
      split at same <;> contradiction
  | cons a left ih =>
    intro right same
    cases right with
    | nil =>
      rw [escape_cons] at same
      split at same <;> contradiction
    | cons b right =>
      rw [escape_cons, escape_cons] at same
      -- Where only one of the heads is escaped, what the other text escapes to would open with it.
      cases first : special a <;> cases second : special b <;>
        simp only [first, second, if_true, if_false, Bool.false_eq_true, List.cons_append,
          List.nil_append, List.cons.injEq] at same
      · rw [same.1, ih same.2]
      · have opens := not_special_of_escape_eq_cons plain same.2
        simp [second] at opens
      · have opens := not_special_of_escape_eq_cons plain same.2.symm
        simp [first] at opens
      · rw [same.2.1, ih same.2.2]

/-- Different names are written as different keys. -/
theorem propertyKey_injective : Function.Injective propertyKey := by
  intro left right same
  unfold propertyKey at same
  split at same <;> split at same
  · exact same
  · rename_i plain _
    rw [same] at plain
    contradiction
  · rename_i plain
    rw [← same] at plain
    contradiction
  · have inside := List.append_cancel_right (List.cons.inj same).2
    exact escape_injective (by decide) inside

end Keys

namespace OperationTypes

/-- The keys of the parameters' type in order. -/
def paramsKeys (types : OperationTypes) : List Text :=
  (types.parameters.map Parameter.toField).map fun field => propertyKey field.name

theorem nodup_paramsKeys_iff (types : OperationTypes) :
    types.paramsKeys.Nodup ↔ (types.parameters.map (·.name)).Nodup := by
  have keys : types.paramsKeys = (types.parameters.map (·.name)).map propertyKey := by
    simp only [paramsKeys, List.map_map]
    rfl
  rw [keys]
  exact List.nodup_map_iff propertyKey_injective

end OperationTypes

namespace Request

/-- Whether what a caller gives for a parameter is sent. -/
def carries (request : Request) (parameter : Parameter) : Bool :=
  match parameter.location with
  | .path => parameter.name ∈ request.pathArguments.map (·.key)
  | .query => request.hasQuery ∧ parameter.name ∉ request.bindings.map (·.key)
  | .header => parameter.name ∈ request.headers.map (·.key)

/-- A path parameter is sent in its placeholder, a header always, and a query parameter unless its
name is taken out of the query for another parameter. -/
theorem carries_plan {parameter : Parameter} {types : OperationTypes} {endpoint : Endpoint}
    (placeholders : endpoint.placeholders.map (·.1) = Path.placeholders types.path)
    (declared : ∀ placeholder ∈ Path.placeholders types.path, ∃ parameter ∈ types.parameters,
      parameter.name = placeholder ∧ parameter.location = .path)
    (listed : parameter ∈ types.parameters) :
    (plan types.parameters endpoint).carries parameter = true ↔
      (parameter.location = .path → parameter.name ∈ Path.placeholders types.path) ∧
      (parameter.location = .query → ∀ other ∈ types.parameters, other.name = parameter.name →
        other.location = .query) := by
  unfold carries
  cases located : parameter.location with
  | path => simp [pathKeys_plan, placeholders]
  | header =>
    have header : parameter.name ∈ namesAt types.parameters .header :=
      mem_namesAt.mpr ⟨parameter, listed, rfl, located⟩
    simp [headerKeys_plan, header]
  | query =>
    have query : parameter.name ∈ namesAt types.parameters .query :=
      mem_namesAt.mpr ⟨parameter, listed, rfl, located⟩
    have sent : (plan types.parameters endpoint).hasQuery = true :=
      decide_eq_true (List.ne_nil_of_mem query)
    rw [← placeholders] at declared
    simp [sent, mem_keys_plan declared]

end Request

namespace Description

/-- The parameters of an operation as the caller gives them and as they are sent. -/
theorem params_distinct_iff (description : Description) (id path body : Text) (method : Method)
    (synthesized : Bool) :
    let types := description.typed id method path body synthesized
    types.params = paramsTarget? types.parameters ∧
    (types.paramsKeys.Nodup ↔ (types.parameters.map (·.name)).Nodup) ∧
    ∀ (operations : List OperationTypes) (endpoint : Endpoint),
      (types, endpoint) ∈ operations.zip (Endpoint.plan operations) →
      ∀ parameter ∈ types.parameters,
        ((Request.plan types.parameters endpoint).carries parameter = true ↔
          (parameter.location = .path → parameter.name ∈ Path.placeholders path) ∧
          (parameter.location = .query → ∀ other ∈ types.parameters,
            other.name = parameter.name → other.location = .query)) := by
  intro types
  have samePath : types.path = path := description.path_typed ..
  have declared : ∀ placeholder ∈ Path.placeholders types.path, ∃ parameter ∈ types.parameters,
      parameter.name = placeholder ∧ parameter.location = .path := by
    rw [samePath]
    exact description.declared_typed id path body method synthesized
  refine ⟨description.params_typed .., types.nodup_paramsKeys_iff, ?_⟩
  intro operations endpoint planned parameter listed
  rw [← samePath]
  exact Request.carries_plan (Endpoint.placeholders_of_mem_zip planned) declared listed

/-- One name for a query parameter and for a path parameter. -/
def orderBody : Text :=
  "parameters: \x7b query: \x7b id: string; \x7d; path: \x7b id: number; \x7d; \x7d;"

theorem order_params_clash :
    let types := (ofText "").value.typed "getOrder" .get "/orders/{id}" orderBody false
    types.params = some (.inline "\x7b id: number; id: string \x7d") ∧
    ¬ types.paramsKeys.Nodup ∧
    ∀ endpoint ∈ Endpoint.plan [types], ∃ parameter ∈ types.parameters,
      (Request.plan types.parameters endpoint).carries parameter = false := by
  decide +kernel

end Description

end TypedClient
