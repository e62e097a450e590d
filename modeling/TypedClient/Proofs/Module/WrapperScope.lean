import TypedClient.Proofs.Module.RequestPlan
import TypedClient.Proofs.Module.WrapperCode
import TypedClient.Proofs.Module.WrapperRoundTrip
import TypedClient.Proofs.Name.Unique
import TypedClient.Proofs.Operation.Parameters
import TypedClient.Proofs.Traversal

/-!
The names in the statements of a wrapper. Main statement: every name that is used is bound, by the
signature, by what is taken out of the parameters or outside, and each binding holds the parameter
it is made for.
-/

namespace TypedClient

open Text Name

/-- Whether every name that statements use is known by then. -/
def Closed (known : List Variable) : List Statement → Prop
  | [] => True
  | statement :: rest => statement.used ⊆ known ∧ Closed (known ++ statement.bound) rest

namespace Wrapper

variable (wrapper : Wrapper) (request : Request) (endpoint : Endpoint)

/-- What a wrapper finds around its statements: its arguments, the imports and `undefined`. -/
def scope : List Variable :=
  wrapper.arguments.map (.own ·.1) ++
    (endpoint.name :: "undefined" :: DomainApi.runtimeNames).map .outer

/-- The names that the request of a wrapper may use are known. -/
structure Supplied (known : List Variable) : Prop where
  outer : ∀ name ∈ endpoint.name :: "undefined" :: DomainApi.runtimeNames, .outer name ∈ known
  params : wrapper.paramsType.isSome = true → .own "params" ∈ known
  body : wrapper.bodyType.isSome = true → .own "body" ∈ known
  bindings : ∀ binding ∈ request.bindings, .own binding.name ∈ known
  query : wrapper.paramsType.isSome = true → request.hasQuery = true → request.bindings ≠ [] →
    .own "query" ∈ known

variable {wrapper request endpoint} {known : List Variable}

theorem Supplied.callCode (supplied : wrapper.Supplied request endpoint known) :
    (endpoint.callCode (request.pathArguments.map (·.name))).used ⊆ known := by
  have named : .outer endpoint.name ∈ known := supplied.outer _ List.mem_cons_self
  unfold Endpoint.callCode
  split
  · refine List.cons_subset.mpr ⟨named, Expression.usedIn_subset fun expression member => ?_⟩
    obtain ⟨argument, listed, rfl⟩ := List.mem_map.mp member
    obtain ⟨binding, inPath, rfl⟩ := List.mem_map.mp listed
    exact Expression.used_name (supplied.bindings binding
      (List.mem_append_left _ (List.mem_append_left _ inPath)))
  · exact Expression.used_name named

theorem Supplied.queryCode? (supplied : wrapper.Supplied request endpoint known) :
    ∀ code ∈ wrapper.queryCode? request, code.used ⊆ known := by
  intro code present
  unfold Wrapper.queryCode? at present
  split at present
  · rename_i needed
    cases present
    split
    · exact Expression.used_name (supplied.params needed.1)
    · exact Expression.used_name (supplied.query needed.1 needed.2 ‹_›)
  · contradiction

theorem Supplied.headersCode? (supplied : wrapper.Supplied request endpoint known) :
    ∀ code ∈ Wrapper.headersCode? request, code.used ⊆ known := by
  intro code present
  unfold Wrapper.headersCode? at present
  split at present
  · contradiction
  · cases present
    refine Expression.usedIn_subset fun expression member => ?_
    obtain ⟨binding, inHeaders, rfl⟩ := List.mem_map.mp member
    exact Expression.used_name
      (supplied.bindings binding (List.mem_append_right _ inHeaders))

theorem Supplied.dataCode? (supplied : wrapper.Supplied request endpoint known) :
    ∀ code ∈ wrapper.dataCode?, code.used ⊆ known := by
  intro code present
  unfold Wrapper.dataCode? at present
  split at present
  · rename_i needed
    cases present
    exact Expression.used_name (supplied.body needed.1)
  · contradiction

theorem Supplied.optionsCode? (supplied : wrapper.Supplied request endpoint known) :
    ∀ code ∈ wrapper.optionsCode? request, code.used ⊆ known := by
  intro code present
  unfold Wrapper.optionsCode? at present
  split at present
  · contradiction
  · cases present
    refine Expression.usedIn_subset fun entry member => ?_
    simp only [List.mem_filterMap, List.mem_cons, List.not_mem_nil, or_false, id] at member
    obtain ⟨source, rfl | rfl | rfl, found⟩ := member
    · exact supplied.queryCode? entry found
    · exact supplied.headersCode? entry found
    · exact supplied.dataCode? entry found

theorem Supplied.bodyCode? (supplied : wrapper.Supplied request endpoint known) :
    ∀ code ∈ wrapper.bodyCode? request, code.used ⊆ known := by
  intro code present
  unfold Wrapper.bodyCode? at present
  split at present
  · contradiction
  · split at present
    · cases present
      exact Expression.used_name (supplied.body ‹_›)
    · split at present
      · cases present
        exact Expression.used_name
          (supplied.outer _ (List.mem_cons_of_mem _ List.mem_cons_self))
      · contradiction

theorem Supplied.requestCode (supplied : wrapper.Supplied request endpoint known) :
    (wrapper.requestCode request endpoint).used ⊆ known := by
  refine List.cons_subset.mpr ⟨supplied.outer _ (by simp [DomainApi.runtimeNames]),
    Expression.usedIn_subset fun argument member => ?_⟩
  simp only [requestArguments, List.mem_cons, List.mem_append, Option.mem_toList] at member
  rcases member with rfl | body | options
  · exact supplied.callCode
  · exact supplied.bodyCode? argument body
  · exact supplied.optionsCode? argument options

theorem params_mem_scope (present : wrapper.paramsType.isSome = true) :
    .own "params" ∈ wrapper.scope endpoint := by
  obtain ⟨type, typed⟩ := Option.isSome_iff_exists.mp present
  simp [scope, arguments, typed]

theorem body_mem_scope (present : wrapper.bodyType.isSome = true) :
    .own "body" ∈ wrapper.scope endpoint := by
  obtain ⟨type, typed⟩ := Option.isSome_iff_exists.mp present
  simp [scope, arguments, typed]

theorem taken?_eq (given : wrapper.paramsType.isSome = true) (filled : request.bindings ≠ []) :
    wrapper.taken? request = some (.take request.bindings
      (if request.hasQuery then some "query" else none) (.own "params")) :=
  if_pos ⟨given, filled⟩

/-- The signature and the first statement supply all names, if there are parameters to take the
bindings out of. -/
theorem supplied_taken? (given : request.bindings ≠ [] → wrapper.paramsType.isSome = true) :
    wrapper.Supplied request endpoint
      (wrapper.scope endpoint ++ (wrapper.taken? request).toList.flatMap Statement.bound) where
  outer name member := List.mem_append_left _ (List.mem_append_right _ (List.mem_map_of_mem member))
  params present := List.mem_append_left _ (params_mem_scope present)
  body present := List.mem_append_left _ (body_mem_scope present)
  bindings binding member := by
    have filled := List.ne_nil_of_mem member
    rw [taken?_eq (given filled) filled, Option.toList_some, List.flatMap_singleton]
    exact List.mem_append_right _ (List.mem_append_left _ (List.mem_map_of_mem member))
  query present sent filled := by
    rw [taken?_eq present filled, Option.toList_some, List.flatMap_singleton, sent]
    exact List.mem_append_right _ (List.mem_append_right _ List.mem_cons_self)

theorem closed_code (given : request.bindings ≠ [] → wrapper.paramsType.isSome = true) :
    Closed (wrapper.scope endpoint) (wrapper.code request endpoint) := by
  have supplied : wrapper.Supplied request endpoint _ := supplied_taken? given
  have returned : (Expression.call "handleResponse" ("<" ++ wrapper.resultType ++ ">")
      [wrapper.requestCode request endpoint]).used ⊆
        wrapper.scope endpoint ++ (wrapper.taken? request).toList.flatMap Statement.bound := by
    refine List.cons_subset.mpr ⟨supplied.outer _ (by simp [DomainApi.runtimeNames]),
      Expression.usedIn_subset fun argument member => ?_⟩
    rw [List.mem_singleton.mp member]
    exact supplied.requestCode
  unfold code
  by_cases taken : wrapper.paramsType.isSome = true ∧ request.bindings ≠ []
  · rw [taken?_eq taken.1 taken.2] at returned ⊢
    rw [Option.toList_some, List.flatMap_singleton] at returned
    exact ⟨Expression.used_name (params_mem_scope taken.1), returned, trivial⟩
  · rw [taken?, if_neg taken] at returned ⊢
    rw [Option.toList_none, List.flatMap_nil, List.append_nil] at returned
    exact ⟨returned, trivial⟩

end Wrapper

namespace Endpoint

/-- The endpoint planned for an operation has the placeholders of its path. -/
theorem placeholders_of_mem_zip {operations : List OperationTypes} {types : OperationTypes}
    {endpoint : Endpoint} (planned : (types, endpoint) ∈ operations.zip (plan operations)) :
    endpoint.placeholders.map (·.1) = Path.placeholders types.path := by
  obtain ⟨name, rfl⟩ := mem_zip_zipWith planned
  exact List.map_fst_zip (by simp)

end Endpoint

namespace Wrapper

/-- The statements of the wrapper of an operation, with the endpoint planned for it. Every name in
them is bound. The endpoint gets one argument for each placeholder in order, which is the name that
the property of this key is bound to. Exactly the path and header parameters are taken out, so none
of them is left in the query. -/
theorem statements_closed (description : Description) (id path body : Text) (method : Method)
    (synthesized : Bool) (operations : List OperationTypes) (endpoint : Endpoint) (name : Text)
    (planned : (description.typed id method path body synthesized, endpoint) ∈
      operations.zip (Endpoint.plan operations)) :
    let types := description.typed id method path body synthesized
    let wrapper := Wrapper.ofTypes name types
    let request := Request.plan types.parameters endpoint
    wrapper.statements request endpoint = (wrapper.code request endpoint).map Statement.text ∧
    Closed (wrapper.scope endpoint) (wrapper.code request endpoint) ∧
    request.pathArguments.map (·.key) = Path.placeholders path ∧
    (wrapper.requestArguments request endpoint).head? =
      some (endpoint.callCode (request.pathArguments.map (·.name))) ∧
    (∀ key, key ∈ request.bindings.map (·.key) ↔
      ∃ parameter ∈ types.parameters, parameter.name = key ∧ parameter.location ≠ .query) ∧
    (request.bindings.map (·.name)).Nodup ∧
    (∀ binding ∈ request.bindings, binding.name ∉ Request.reservedNames) ∧
    (request.bindings ≠ [] → (wrapper.code request endpoint).head? =
      some (.take request.bindings (if request.hasQuery then some "query" else none)
        (.own "params"))) := by
  intro types wrapper request
  have placeholders : endpoint.placeholders.map (·.1) = Path.placeholders path := by
    rw [Endpoint.placeholders_of_mem_zip planned, Description.path_typed]
  have keys : ∀ key, key ∈ request.bindings.map (·.key) ↔
      ∃ parameter ∈ types.parameters, parameter.name = key ∧ parameter.location ≠ .query := by
    have declared := description.declared_typed id path body method synthesized
    rw [← placeholders] at declared
    exact fun key => Request.mem_keys_plan declared
  have given : request.bindings ≠ [] → wrapper.paramsType.isSome = true := by
    intro filled
    obtain ⟨binding, member⟩ := List.exists_mem_of_ne_nil _ filled
    obtain ⟨parameter, listed, _⟩ := (keys binding.key).mp (List.mem_map_of_mem member)
    have present : types.parameters ≠ [] := List.ne_nil_of_mem listed
    have target : types.params = paramsTarget? types.parameters := description.params_typed ..
    exact Option.isSome_map.trans (target ▸ isSome_paramsTarget?.mpr present)
  have names := Request.names_plan types.parameters endpoint
  refine ⟨wrapper.statements_eq request endpoint, closed_code given, ?_, rfl, keys, ?_, ?_, ?_⟩
  · exact (Request.pathKeys_plan types.parameters endpoint).trans placeholders
  · rw [names]
    exact nodup_uniques _ _
  · intro binding member
    have inside : binding.name ∈ request.bindings.map (·.name) := List.mem_map_of_mem member
    rw [names] at inside
    exact not_mem_of_mem_uniques inside
  · intro filled
    rw [code, taken?_eq (given filled) filled]
    rfl

/-- Declares a query and a header, but not the placeholder that its path has twice. -/
def substituteBody : Text :=
  "parameters: \x7b query: \x7b minute?: number \x7d; header: \x7b 'X-Id': string \x7d \x7d;"

def substituteTypes : OperationTypes :=
  (Description.ofText "").value.typed "substitute" .patch "/team/{id}/player/{id}" substituteBody
    false

def substituteEndpoint : Endpoint where
  operation := "substitute"
  method := .patch
  path := "/team/{id}/player/{id}"
  name := "PATCH_TEAM_ID_PLAYER_ID"
  placeholders := [("id", "id"), ("id", "id2")]

theorem statements_closed_substitute :
    let wrapper := Wrapper.ofTypes "updatePlayer" substituteTypes
    let request := Request.plan substituteTypes.parameters substituteEndpoint
    (substituteTypes, substituteEndpoint) ∈
      [substituteTypes].zip (Endpoint.plan [substituteTypes]) ∧
    wrapper.statements request substituteEndpoint =
      (["const \x7b id, id: id2, 'X-Id': xId, ...query \x7d = params;",
        "return handleResponse<substitute_Response>(http.patch(PATCH_TEAM_ID_PLAYER_ID(id, id2), " ++
          "undefined, \x7b params: query, headers: \x7b 'X-Id': xId \x7d \x7d));"] :
        List Text) ∧
    Closed (wrapper.scope substituteEndpoint) (wrapper.code request substituteEndpoint) ∧
    request.pathArguments.map (·.key) = (["id", "id"] : List Text) := by
  have endpoints : Endpoint.plan [substituteTypes] = [substituteEndpoint] := by decide +kernel
  have planned : (substituteTypes, substituteEndpoint) ∈
      [substituteTypes].zip (Endpoint.plan [substituteTypes]) := by
    rw [endpoints]
    exact List.mem_singleton.mpr rfl
  obtain ⟨_, closed, arguments, _⟩ := statements_closed (Description.ofText "").value "substitute"
    "/team/{id}/player/{id}" substituteBody .patch false [substituteTypes] substituteEndpoint
    "updatePlayer" planned
  have placeholders : Path.placeholders "/team/{id}/player/{id}" =
      (["id", "id"] : List Text) := by decide +kernel
  exact ⟨planned, by decide +kernel, closed, arguments.trans placeholders⟩

end Wrapper

end TypedClient
