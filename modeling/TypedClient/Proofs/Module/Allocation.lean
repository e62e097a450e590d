import TypedClient.Module.Types
import TypedClient.Proofs.Module.EndpointPairing
import TypedClient.Proofs.Module.HookRoundTrip
import TypedClient.Proofs.Module.RequestPlan
import TypedClient.Proofs.Table

/-!
The names that are given out in generated modules. Main statement: endpoints and their arguments,
wrappers, the bindings of a wrapper, local schema names and hooks are each named apart from one
another and from what else is in scope, and every name is its base or the base with the first free
number.
-/

namespace TypedClient

open Text Name

variable {operations : List OperationTypes} {config : Config}

namespace Endpoint

/-- The arguments of the endpoints of a plan stand for the placeholders of their paths. -/
theorem placeholders_of_mem_plan {endpoint : Endpoint} (member : endpoint ∈ plan operations) :
    endpoint.placeholders = argumentsOf endpoint.path := by
  obtain ⟨types, _, name, _, rfl⟩ := mem_plan member
  rfl

theorem allotted_arguments (path : Text) :
    (argumentsOf path).map (·.1) = Path.placeholders path ∧
      Allotted [] ((Path.placeholders path).map identifier) ((argumentsOf path).map (·.2)) := by
  have length : (uniques [] ((Path.placeholders path).map identifier)).length =
      (Path.placeholders path).length := by simp
  unfold argumentsOf
  rw [List.map_fst_zip (Nat.le_of_eq length.symm), List.map_snd_zip (Nat.le_of_eq length)]
  exact ⟨rfl, allotted_uniques _ _⟩

end Endpoint

namespace DomainApi

theorem names_wrappersOf (verbs : VerbPrefixes) (operations : List OperationTypes) :
    (wrappersOf verbs operations).map (·.name) =
      uniques runtimeNames (operations.map fun types =>
        verbs.wrapperName types.method types.path) := by
  unfold wrappersOf
  rw [map_zipWith_left (g := Wrapper.name) (h := id) fun _ _ => rfl, List.map_id]
  simp

theorem wrappers_of_generate {server tag : Text} {planned : List Endpoint} {api : DomainApi}
    (made : generate server tag operations planned config = .ok api) :
    api.wrappers = wrappersOf config.verbs operations := by
  unfold generate at made
  cases unknown : config.templates.unknown? with
  | some error =>
    rw [unknown] at made
    contradiction
  | none =>
    rw [unknown] at made
    by_cases none : operations = []
    · simp only [none, if_true] at made
      cases made
      simp [none, wrappersOf, uniques]
    · simp only [none, if_false] at made
      cases paired : operations.mapM (endpointFor server tag planned) with
      | error error =>
        rw [paired] at made
        contradiction
      | ok endpoints =>
        rw [paired] at made
        cases made
        rfl

end DomainApi

namespace HookContext

/-- Each wrapper whose method is known gets a hook, named apart from the hooks before it. -/
theorem names_plan (context : HookContext) (used : List Text) (wrappers : List FoundWrapper) :
    let hooks := (context.plan used wrappers).value
    hooks.map (·.wrapper) = wrappers.filter (fun wrapper => (context.methodOf? wrapper).isSome) ∧
      hooks.map (·.name) = uniques used (hooks.map fun hook => hookName hook.wrapper.name) := by
  induction wrappers generalizing used with
  | nil => exact ⟨rfl, rfl⟩
  | cons wrapper rest ih =>
    unfold plan
    cases method : context.methodOf? wrapper with
    | none =>
      obtain ⟨served, named⟩ := ih used
      refine ⟨?_, named⟩
      rw [List.filter_cons_of_neg (by simp [method])]
      exact served
    | some found =>
      obtain ⟨served, named⟩ := ih (unique (hookName wrapper.name) used :: used)
      refine ⟨?_, congrArg (unique (hookName wrapper.name) used :: ·) named⟩
      rw [List.filter_cons_of_pos (by simp [method])]
      exact congrArg (wrapper :: ·) served

end HookContext

namespace HookModules

/-- The hooks of both modules are the planned ones. -/
theorem names_ofHooks (names : NameTable) (config : Config) (hooks : List Hook) :
    ((ofHooks names config hooks).queryHooks ++
      (ofHooks names config hooks).mutationHooks).Perm (hooks.map (·.name)) := by
  have parted := (List.filter_append_perm Hook.isQuery hooks).map Hook.name
  rwa [List.map_append] at parted

theorem value_of_generate {source : Text} {modules : Reported HookModules}
    (made : generate source operations config = .ok modules) :
    let context := HookContext.ofOperations operations config.verbs
    let wrappers := FoundWrapper.findAll source
    modules.value = ofHooks context.names config
      (context.plan (wrappers.map (·.name)) wrappers).value := by
  unfold generate at made
  split at made
  · contradiction
  · cases made
    rfl

end HookModules

/-- Local names for schemas, none of them reserved, one for every schema. -/
theorem Module.allotted_localNames (targets : List Target) (reserved : List Text) :
    Table.Ascending ((localNames targets reserved).map (·.1)) ∧
      Allotted reserved ((localNames targets reserved).map fun entry => schemaType entry.1)
        ((localNames targets reserved).map (·.2)) := by
  generalize found : Table.sorted (targets.flatMap schemasOf) = schemas
  have ascending : Table.Ascending schemas := found ▸ Table.ascending_sorted _
  have length : (uniques reserved (schemas.map schemaType)).length = schemas.length := by simp
  have keys : (localNames targets reserved).map (·.1) = schemas := by
    rw [← found] at length ⊢
    exact List.map_fst_zip (Nat.le_of_eq length.symm)
  have names : (localNames targets reserved).map (·.2) =
      uniques reserved (schemas.map schemaType) := by
    rw [← found] at length ⊢
    exact List.map_snd_zip (Nat.le_of_eq length)
  have bases : ((localNames targets reserved).map fun entry => schemaType entry.1) =
      schemas.map schemaType := by
    rw [← keys, List.map_map]
    rfl
  rw [keys, names, bases]
  exact ⟨ascending, allotted_uniques _ _⟩

/-- What is named in the modules for these operations is named apart: endpoints, the arguments of
each, wrappers, what a wrapper takes out of its parameters, local names of schemas, and hooks for
whatever module of wrappers. -/
structure NamedApart (operations : List OperationTypes) (config : Config) (source : Text) :
    Prop where
  endpoints : Allotted []
    (operations.map fun types => Path.constantName types.method types.path)
    ((Endpoint.plan operations).map (·.name))
  arguments : ∀ endpoint ∈ Endpoint.plan operations,
    endpoint.placeholders.map (·.1) = Path.placeholders endpoint.path ∧
      Allotted [] ((Path.placeholders endpoint.path).map identifier)
        (endpoint.placeholders.map (·.2))
  wrappers : ∀ server tag planned api,
    DomainApi.generate server tag operations planned config = .ok api →
      Allotted DomainApi.runtimeNames
        (operations.map fun types => config.verbs.wrapperName types.method types.path)
        (api.wrappers.map (·.name))
  bindings : ∀ types ∈ operations, ∀ endpoint,
    Allotted Request.reservedNames ((Request.keysOf types.parameters endpoint).map identifier)
      ((Request.plan types.parameters endpoint).bindings.map (·.name))
  locals : Table.Ascending ((Module.localsFor operations).map (·.1)) ∧
    Allotted ((Module.aliasesOf operations).map (·.name))
      ((Module.localsFor operations).map fun entry => schemaType entry.1)
      ((Module.localsFor operations).map (·.2))
  hooks : ∀ modules, HookModules.generate source operations config = .ok modules →
    let wrappers := FoundWrapper.findAll source
    ∃ hooks : List Hook,
      hooks.map (·.wrapper) = wrappers.filter (fun wrapper =>
        ((HookContext.ofOperations operations config.verbs).methodOf? wrapper).isSome) ∧
      Allotted (wrappers.map (·.name))
        (hooks.map fun hook => HookContext.hookName hook.wrapper.name) (hooks.map (·.name)) ∧
      modules.value.queryHooks = (hooks.filter Hook.isQuery).map (·.name) ∧
      modules.value.mutationHooks = (hooks.filter fun hook => !hook.isQuery).map (·.name) ∧
      (modules.value.queryHooks ++ modules.value.mutationHooks).Nodup ∧
      ∀ name ∈ modules.value.queryHooks ++ modules.value.mutationHooks,
        name ∉ wrappers.map (·.name)

/-- All names given out in generated modules are apart, and each is its base or the base with the
smallest number from 2 on that was free. -/
theorem named_apart (operations : List OperationTypes) (config : Config) (source : Text) :
    NamedApart operations config source where
  endpoints := by
    rw [Endpoint.names_plan]
    exact allotted_uniques _ _
  arguments := by
    intro endpoint member
    rw [Endpoint.placeholders_of_mem_plan member]
    exact Endpoint.allotted_arguments endpoint.path
  wrappers := by
    intro server tag planned api made
    rw [DomainApi.wrappers_of_generate made, DomainApi.names_wrappersOf]
    exact allotted_uniques _ _
  bindings := by
    intro types _ endpoint
    rw [Request.names_plan]
    exact allotted_uniques _ _
  locals := Module.allotted_localNames _ _
  hooks := by
    intro modules made wrappers
    obtain ⟨served, named⟩ := HookContext.names_plan
      (HookContext.ofOperations operations config.verbs) (wrappers.map (·.name)) wrappers
    have planned := HookModules.value_of_generate made
    have apart := allotted_uniques (wrappers.map (·.name))
      ((((HookContext.ofOperations operations config.verbs).plan (wrappers.map (·.name))
        wrappers).value).map fun hook => HookContext.hookName hook.wrapper.name)
    rw [← named] at apart
    have both := HookModules.names_ofHooks
      (HookContext.ofOperations operations config.verbs).names config
      ((HookContext.ofOperations operations config.verbs).plan (wrappers.map (·.name))
        wrappers).value
    rw [← planned] at both
    refine ⟨_, served, apart, ?_, ?_, both.nodup_iff.mpr apart.nodup, fun name member =>
      apart.unreserved name (both.mem_iff.mp member)⟩
    · rw [planned]
      rfl
    · rw [planned]
      rfl

/-- Two operations on alike paths, with parameters of alike names and a schema that is named like an
exported alias. -/
def alikeOperations : List OperationTypes :=
  [⟨"User", .get, "/users/\x7bid\x7d/\x7bId\x7d",
      [⟨"id", "string", false, .path⟩, ⟨"Id", "string", false, .path⟩,
        ⟨"query", "string", false, .header⟩],
      some (.inline "\x7b \x7d"), none, .schema "User_Response", none, none⟩,
    ⟨"Users", .get, "/users/\x7bID\x7d/\x7bid\x7d", [], none, none, .schema "User", none, none⟩]

/-- The names of their wrappers and of their query hooks. -/
def alikeNames : List Text × List Text :=
  (["fetchUsersIdId", "fetchUsersIdId2"], ["useFetchUsersIdId", "useFetchUsersIdId2"])

theorem alike_named_apart :
    ∃ api modules,
      DomainApi.generate "main" "users" alikeOperations (Endpoint.plan alikeOperations)
        .standard = .ok api ∧
      HookModules.generate api.content alikeOperations .standard = .ok modules ∧
      (api.wrappers.map (·.name), modules.value.queryHooks) = alikeNames ∧
      Allotted DomainApi.runtimeNames (alikeOperations.map fun types =>
        Config.standard.verbs.wrapperName types.method types.path) (api.wrappers.map (·.name)) ∧
      (modules.value.queryHooks ++ modules.value.mutationHooks).Nodup := by
  have distinct : (alikeOperations.map (·.id)).Nodup := by decide
  have known : Config.standard.templates.unknown? = none := by decide +kernel
  have generated := DomainApi.generate_plan "main" "users" distinct known
  generalize DomainApi.ofPlan .standard alikeOperations = api at generated
  have written : ((DomainApi.generate "main" "users" alikeOperations
      (Endpoint.plan alikeOperations) .standard).toOption.bind fun api =>
        (HookModules.generate api.content alikeOperations .standard).toOption.map fun found =>
          (api.wrappers.map (·.name), found.value.queryHooks)) = some alikeNames := by
    decide +kernel
  rw [generated] at written
  cases made : HookModules.generate api.content alikeOperations .standard with
  | error error => simp [Except.toOption, made] at written
  | ok modules =>
    simp only [Except.toOption, Option.bind_some, made, Option.map_some, Option.some.injEq]
      at written
    have apart := named_apart alikeOperations .standard api.content
    obtain ⟨_, _, _, _, _, nodup, _⟩ := apart.hooks modules made
    exact ⟨api, modules, generated, made, written,
      apart.wrappers "main" "users" _ api generated, nodup⟩

end TypedClient
