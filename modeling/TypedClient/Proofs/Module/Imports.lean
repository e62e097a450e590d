import TypedClient.Module.Hooks
import TypedClient.Proofs.Module.Declarations
import TypedClient.Proofs.Operation.AliasNames
import TypedClient.Proofs.Table

/-!
What the modules of a tag import from each other. Main statement: an endpoint is declared once and
called as it is declared, every type that is imported is an alias of the tag, and every schema that
an alias refers to has one local name.
-/

namespace TypedClient

open Text Name

namespace Endpoint

variable {operations : List OperationTypes} {endpoint : Endpoint}

/-- An endpoint is a function that is called with an argument for each of its parameters, or a
constant that is not called. -/
inductive Fits (endpoint : Endpoint) (arguments : List Text) : Prop
  | function (parameters : List Text) (body : Text)
      (declared : endpoint.render = "export const " ++ endpoint.name ++ " = (" ++
        join ", " (parameters.map parameterText) ++ ") => \x60" ++ body ++ "\x60;")
      (called : endpoint.call arguments =
        endpoint.name ++ "(" ++ join ", " arguments ++ ")")
      (length : parameters.length = arguments.length)
      (words : ∀ word ∈ parameters ++ arguments, word.all isBare = true)
  | constant (value : Text)
      (declared : endpoint.render = "export const " ++ endpoint.name ++ " = '" ++ value ++ "';")
      (called : endpoint.call arguments = endpoint.name)
      (none : arguments = [])

/-- What a wrapper calls an endpoint with fits how the endpoint is declared. -/
theorem fits_plan (parameters : List Parameter)
    (bare : ∀ placeholder ∈ endpoint.placeholders, placeholder.2.all isBare = true) :
    endpoint.Fits ((Request.plan parameters endpoint).pathArguments.map (·.name)) := by
  have keys := congrArg List.length (Request.pathKeys_plan parameters endpoint)
  rw [List.length_map, List.length_map] at keys
  cases dynamic : endpoint.isDynamic with
  | true =>
    apply Fits.function (endpoint.placeholders.map (·.2))
      (template (endpoint.placeholders.map (·.2)) (Path.parts endpoint.path))
    case declared => rw [render, if_pos dynamic]
    case called => rw [call, if_pos dynamic]
    case length => rw [List.length_map, List.length_map, keys]
    case words =>
      intro word member
      rcases List.mem_append.mp member with own | given
      · obtain ⟨placeholder, listed, rfl⟩ := List.mem_map.mp own
        exact bare placeholder listed
      · obtain ⟨binding, listed, rfl⟩ := List.mem_map.mp given
        have inside : binding ∈ (Request.plan parameters endpoint).bindings := by
          simp [Request.bindings, listed]
        exact Request.bare_of_mem_plan inside
  | false =>
    apply Fits.constant (escape (· == '\'') endpoint.path)
    case declared => rw [render, dynamic, if_neg Bool.false_ne_true]
    case called => rw [call, dynamic, if_neg Bool.false_ne_true]
    case none =>
      have static : endpoint.placeholders = [] := by simpa [isDynamic] using dynamic
      rw [static, List.length_nil, List.length_eq_zero_iff] at keys
      rw [keys, List.map_nil]

end Endpoint

namespace OperationTypes

variable {types : OperationTypes}

theorem names_aliases (types : OperationTypes) :
    types.aliases.map (·.name) = types.paramsType?.toList ++ types.bodyType?.toList ++
      [types.nameOf .response] ++ (types.payload.map fun _ => types.nameOf .payload).toList := by
  unfold aliases paramsType? bodyType?
  cases types.params <;> cases types.body <;> cases types.payload <;> rfl

theorem resultType_mem (other : types.resultType ≠ "void".toList) :
    types.resultType ∈ types.aliases.map (·.name) := by
  rw [names_aliases]
  unfold resultType at other ⊢
  cases payload : types.payload with
  | some target => simp
  | none =>
    by_cases void : types.response = .void
    · simp [payload, void] at other
    · simp [void]

/-- The types that a wrapper names are aliases of its operation. -/
theorem typeNames_subset (name : Text) (types : OperationTypes) :
    (Wrapper.ofTypes name types).typeNames ⊆ types.aliases.map (·.name) := by
  intro type member
  rcases List.mem_append.mp member with argument | result
  · rw [names_aliases, List.append_assoc]
    exact List.mem_append_left _ argument
  · split at result
    · contradiction
    · rename_i other
      rw [List.mem_singleton.mp result]
      exact types.resultType_mem other

end OperationTypes

namespace Module

variable {operations : List OperationTypes} {entry : Alias} {target : Target}

theorem typeNames_wrappersOf_subset (verbs : VerbPrefixes) (operations : List OperationTypes) :
    (DomainApi.wrappersOf verbs operations).flatMap Wrapper.typeNames ⊆
      (aliasesOf operations).map (·.name) := by
  intro type member
  obtain ⟨wrapper, listed, named⟩ := List.mem_flatMap.mp member
  rw [DomainApi.wrappersOf, ← List.map_uncurry_zip_eq_zipWith] at listed
  obtain ⟨⟨name, types⟩, pair, rfl⟩ := List.mem_map.mp listed
  obtain ⟨found, inside, rfl⟩ := List.mem_map.mp (types.typeNames_subset name named)
  exact List.mem_map_of_mem (List.mem_flatMap.mpr ⟨types, (List.of_mem_zip pair).2, inside⟩)

/-- Of the types that hooks name, aliases of the tag are imported. -/
theorem generatedNames_subset (verbs : VerbPrefixes) (operations : List OperationTypes)
    (hooks : List Hook) :
    HookModules.generatedNames (HookContext.ofOperations operations verbs).names hooks ⊆
      (aliasesOf operations).map (·.name) := by
  intro type member
  have known := (List.mem_filter.mp member).2
  simp only [Bool.and_eq_true, decide_eq_true_eq] at known
  exact Table.mem_sorted.mp known.2

theorem keys_localNames (targets : List Target) (reserved : List Text) :
    (localNames targets reserved).map (·.1) = Table.sorted (targets.flatMap schemasOf) :=
  List.map_fst_zip (by simp)

/-- Every schema that an alias refers to has one local name. -/
theorem count_localsFor {schema : Text} (listed : entry ∈ aliasesOf operations)
    (refers : schema ∈ schemasOf entry.target) :
    ((localsFor operations).map (·.1)).count schema = 1 := by
  rw [localsFor, keys_localNames]
  apply List.count_eq_one_of_mem (Table.ascending_sorted _).nodup
  exact Table.mem_sorted.mpr (List.mem_flatMap.mpr
    ⟨entry.target, List.mem_map_of_mem listed, refers⟩)

/-- The text of a target, given a name for every schema. -/
def renderWith (nameOf : Text → Text) : Target → Text
  | .schema name => nameOf name
  | .schemaArray element => nameOf element ++ "[]"
  | .inline type => replaceSchemaRefs nameOf type
  | .void => "void"
  | .fallback => "unknown"

theorem renderTarget_eq (locals : List (Text × Text)) (target : Target) :
    renderTarget locals target = renderWith (localOf locals) target := by
  cases target <;> rfl

/-- The names of the schemas that a target refers to decide its text. -/
theorem renderWith_congr {first second : Text → Text}
    (agree : ∀ schema ∈ schemasOf target, first schema = second schema) :
    renderWith first target = renderWith second target := by
  cases target with
  | schema name => exact agree name List.mem_cons_self
  | schemaArray element => exact congrArg (· ++ "[]".toList) (agree element List.mem_cons_self)
  | inline type =>
    unfold renderWith replaceSchemaRefs
    apply List.flatMap_congr
    intro fragment inside
    cases fragment with
    | other c => rfl
    | schema name => exact agree name (List.mem_filterMap.mpr ⟨.schema name, inside, rfl⟩)
  | void | fallback => rfl

/-- No schema of an alias is without a local name, so that it does not matter how such a schema
would be written. -/
theorem renderTarget_localsFor (listed : entry ∈ aliasesOf operations) (other : Text → Text) :
    renderWith (fun schema => ((localsFor operations).lookup schema).getD (other schema))
      entry.target = renderTarget (localsFor operations) entry.target := by
  rw [renderTarget_eq]
  apply renderWith_congr
  intro schema refers
  have named : schema ∈ (localsFor operations).map (·.1) := by
    apply List.count_pos_iff.mp
    rw [count_localsFor listed refers]
    exact Nat.one_pos
  obtain ⟨⟨_, name⟩, inside, rfl⟩ := List.mem_map.mp named
  have distinct : ((localsFor operations).map (·.1)).Nodup := by
    rw [localsFor, keys_localNames]
    exact (Table.ascending_sorted _).nodup
  rw [localOf, Table.lookup_of_mem distinct inside, Option.getD_some, Option.getD_some]

end Module

namespace HookContext

/-- Hooks are made from wrappers that are there, with the types that are found for these. -/
theorem of_mem_plan {context : HookContext} {used : List Text} {wrappers : List FoundWrapper}
    {hook : Hook} (member : hook ∈ (context.plan used wrappers).value) :
    hook.wrapper ∈ wrappers ∧ hook.types =
      (TypeSource.resolve context.operations context.names TypeSource.all hook.wrapper).value := by
  induction wrappers generalizing used with
  | nil => contradiction
  | cons wrapper rest ih =>
    unfold plan at member
    cases method : context.methodOf? wrapper with
    | none =>
      rw [method] at member
      exact (ih member).imp_left (List.mem_cons_of_mem wrapper)
    | some method =>
      rw [method] at member
      rcases List.mem_cons.mp member with rfl | later
      · exact ⟨List.mem_cons_self, rfl⟩
      · exact (ih later).imp_left (List.mem_cons_of_mem wrapper)

end HookContext

namespace HookModules

/-- The hooks that are made from the text of a wrapper module. -/
def hooksFor (config : Config) (operations : List OperationTypes) (source : Text) : List Hook :=
  ((HookContext.ofOperations operations config.verbs).plan
    ((FoundWrapper.findAll source).map (·.name)) (FoundWrapper.findAll source)).value

/-- The hook modules that are made from the text of a wrapper module. -/
def madeFrom (config : Config) (operations : List OperationTypes) (source : Text) : HookModules :=
  ofHooks (HookContext.ofOperations operations config.verbs).names config
    (hooksFor config operations source)

variable {config : Config}

/-- Hooks are made from wrappers that lines of the module export. -/
theorem wrapper_exported {operations : List OperationTypes} {source : Text} {hook : Hook}
    (member : hook ∈ hooksFor config operations source) :
    hook.wrapper.name ∈ Module.exports source := by
  apply (FoundWrapper.names_findAll source).subset
  exact List.mem_map_of_mem (HookContext.of_mem_plan member).1

theorem generate_known (known : config.templates.unknown? = none)
    (operations : List OperationTypes) (source : Text) :
    ∃ modules, generate source operations config = .ok modules ∧
      modules.value = madeFrom config operations source := by
  unfold generate
  rw [known]
  exact ⟨_, rfl, rfl⟩

end HookModules

namespace Module

open DomainApi HookModules

/-- What the modules of a tag import from each other is declared where it is imported from. -/
structure Resolved (config : Config) (server tag : Text) (operations : List OperationTypes) :
    Prop where
  /-- No two endpoints have the same name. -/
  once : ∀ endpoint ∈ Endpoint.plan operations,
    ((Endpoint.plan operations).map (·.name)).count endpoint.name = 1
  endpoints : (∀ types ∈ operations, '\n' ∉ types.path) →
    exports (Module.endpoints (Endpoint.plan operations)) =
      (Endpoint.plan operations).map (·.name)
  /-- A wrapper calls its endpoint as that is declared. -/
  calls : ∀ wrapper types endpoint, (wrapper, types, endpoint) ∈ wrapped config operations →
    let request := Request.plan types.parameters endpoint
    let arguments := request.pathArguments.map (·.name)
    (wrapper.callArguments request endpoint).head? = some (endpoint.call arguments) ∧
      endpoint.Fits arguments
  apiTypes : (wrappersOf config.verbs operations).flatMap Wrapper.typeNames ⊆
    (aliasesOf operations).map (·.name)
  hookTypes : ∀ hooks, generatedNames (HookContext.ofOperations operations config.verbs).names hooks ⊆
    (aliasesOf operations).map (·.name)
  aliases : ∀ types ∈ operations, '\n' ∉ types.id → ∀ entry ∈ types.aliases,
    '\n' :: exportOpening entry.name <:+: validatedTypes server tag operations config.imports
  /-- Hooks are made from what lines of the module of wrappers export. -/
  exported : ∀ hook ∈ hooksFor config operations (ofPlan config operations).content,
    hook.wrapper.name ∈ exports (ofPlan config operations).content
  wrappers : Unbroken config operations →
    ∀ hook ∈ hooksFor config operations (ofPlan config operations).content,
      hook.wrapper.name ∈ (ofPlan config operations).wrappers.map (·.name)
  /-- A schema that is referred to has one local name. -/
  locals : ∀ entry ∈ aliasesOf operations, ∀ schema ∈ schemasOf entry.target,
    ((localsFor operations).map (·.1)).count schema = 1
  /-- It does not matter how a schema without a local name would be written. -/
  rendered : ∀ entry ∈ aliasesOf operations, ∀ other : Text → Text,
    renderWith (fun schema => ((localsFor operations).lookup schema).getD (other schema))
      entry.target = renderTarget (localsFor operations) entry.target

theorem resolved (config : Config) (server tag : Text) {operations : List OperationTypes}
    (known : ∀ types ∈ operations, types.method ∈ Method.known) :
    Resolved config server tag operations where
  once endpoint member :=
    List.count_eq_one_of_mem (Endpoint.nodup_names_plan operations) (List.mem_map_of_mem member)
  endpoints := Endpoint.exports_endpoints
  calls wrapper types endpoint member := by
    obtain ⟨_, planned⟩ := List.of_mem_zip member
    have bare := Endpoint.bare_of_mem_plan (List.of_mem_zip planned).2
    exact ⟨rfl, Endpoint.fits_plan types.parameters bare⟩
  apiTypes := typeNames_wrappersOf_subset config.verbs operations
  hookTypes := generatedNames_subset config.verbs operations
  aliases types listed free entry inside := by
    refine alias_declared server tag config.imports listed inside ?_
    rw [OperationTypes.name_of_mem_aliases inside]
    exact AliasKind.aliasName_free free entry.kind
  exported _ := wrapper_exported
  wrappers unbroken _ member := exports_ofPlan unbroken known ▸ wrapper_exported member
  locals _ listed _ := count_localsFor listed
  rendered _ listed := renderTarget_localsFor listed

end Module

end TypedClient
