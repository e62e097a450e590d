import TypedClient.Artifact.Kind
import TypedClient.Config.Basic
import TypedClient.Module.Basic
import TypedClient.Module.HookTypes
import TypedClient.Name.Unique

/-!
The modules of a tag that export a hook for each wrapper: query hooks for the method `GET`, mutation
hooks for all others. Hooks are made from the text of the wrapper module, so that one written by
hand will do.
-/

namespace TypedClient

open Text Name

/-- A hook before it is written. -/
structure Hook where
  name : Text
  wrapper : FoundWrapper
  method : Method
  path : Text
  types : HookTypes
  deriving DecidableEq, Repr

namespace Hook

def isQuery (hook : Hook) : Bool := hook.method = .get

def docContext (hook : Hook) : DocContext :=
  ⟨hook.method, hook.path, hook.wrapper.operation.getD [], hook.wrapper.name⟩

def doc (hook : Hook) (template : Text) : Text :=
  Module.docComment (docLines template hook.docContext) 0

/-- The call of the wrapper with the variables of its slots, in its own order. -/
def call (hook : Hook) : Text :=
  hook.wrapper.name ++ "(" ++ join ", " (hook.wrapper.slots.map Slot.variable) ++ ")"

/-- An argument of a query hook with its type. -/
def typedArgument (argument type : Text) : Text := argument ++ ": " ++ type

def queryArguments (hook : Hook) : List Text :=
  (hook.types.params.map (typedArgument "params")).toList ++
    (hook.types.body.map (typedArgument "body")).toList ++
    ["options?: Omit<UseQueryOptions<" ++ hook.types.result ++ ">, 'queryKey' | 'queryFn'>"]

def queryKey (hook : Hook) : List Text :=
  ("'" ++ hook.wrapper.name ++ "'") ::
    ((hook.types.params.map fun _ => Slot.params.variable).toList ++
      (hook.types.body.map fun _ => Slot.body.variable).toList)

def renderQuery (template : Text) (hook : Hook) : Text :=
  hook.doc template ++ "\nexport const " ++ hook.name ++ " = (" ++ join ", " hook.queryArguments ++
    ") =>\n  useQuery<" ++ hook.types.result ++ ">(\x7b\n    queryKey: [" ++
    join ", " hook.queryKey ++ "],\n    queryFn: () => " ++ hook.call ++
    ",\n    ...options,\n  \x7d);"

/-- The type of the variables of a mutation. -/
def variablesType (hook : Hook) : Text :=
  match hook.types.params, hook.types.body with
  | some params, some body => "\x7b params: " ++ params ++ "; body: " ++ body ++ " \x7d"
  | some only, none | none, some only => only
  | none, none => "void"

/-- The function that a mutation calls with its variables. -/
def mutationFunction (hook : Hook) : Text :=
  match hook.types.params, hook.types.body with
  | some _, some _ => "(\x7b params, body \x7d) => " ++ hook.call
  | some _, none => "(params) => " ++ hook.wrapper.name ++ "(params)"
  | none, some _ => "(body) => " ++ hook.wrapper.name ++ "(body)"
  | none, none => "() => " ++ hook.wrapper.name ++ "()"

def onError (hook : Hook) : ErrorNotification → List Text
  | .none => []
  | .console =>
    ["    onError: (error) => \x7b\n      console.error('[" ++ hook.wrapper.name ++
      "]', error);\n    \x7d,"]
  | .toast => ["    onError: (error) => \x7b\n      notify.error(error.message);\n    \x7d,"]

def onSuccess (policy : NotificationPolicy) : List Text :=
  if policy.onSuccess then
    ["    onSuccess: () => \x7b\n      notify.success('" ++
      escape (fun c => c == '\\' || c == '\'') policy.successMessage ++ "');\n    \x7d,"]
  else []

def renderMutation (template : Text) (policy : NotificationPolicy) (hook : Hook) : Text :=
  let lines := ("    mutationFn: " ++ hook.mutationFunction ++ ",") ::
    hook.onError policy.onError ++ onSuccess policy
  hook.doc template ++ "\nexport const " ++ hook.name ++ " = () =>\n  useMutation<" ++
    hook.types.result ++ ", Error, " ++ hook.variablesType ++ ">(\x7b\n" ++ join "\n" lines ++
    "\n  \x7d);"

/-- The types that a hook names. -/
def typeNames (hook : Hook) : List Text :=
  hook.types.params.toList ++ hook.types.body.toList ++ [hook.types.result]

end Hook

/-- What hooks are planned against. -/
structure HookContext where
  operations : List OperationTypes
  verbs : VerbPrefixes
  names : NameTable
  deriving DecidableEq, Repr

namespace HookContext

def ofOperations (operations : List OperationTypes) (verbs : VerbPrefixes) : HookContext :=
  ⟨operations, verbs,
    .ofNames ((operations.flatMap OperationTypes.aliases).map (·.name)) verbs⟩

/-- The operation that a wrapper's doc comment names; of several under one id the last counts. -/
def operationOf? (context : HookContext) (wrapper : FoundWrapper) : Option OperationTypes :=
  wrapper.operation.bind fun id => context.operations.reverse.find? fun types => types.id = id

/-- The method of a wrapper: that of its requests, of its operation, or of its verb. -/
def methodOf? (context : HookContext) (wrapper : FoundWrapper) : Option Method :=
  (wrapper.method.or ((context.operationOf? wrapper).map (·.method))).or
    (context.verbs.methodOfName? wrapper.name)

def hookName (wrapper : Text) : Text := "use" ++ pascal wrapper

/-- A hook for each wrapper whose method is known, under a name that is not `used`. -/
def plan (context : HookContext) (used : List Text) : List FoundWrapper → Reported (List Hook)
  | [] => pure []
  | wrapper :: rest =>
    match context.methodOf? wrapper with
    | none => do
      .warn (.noHookMethod wrapper.reportedName wrapper.name) ()
      context.plan used rest
    | some method => do
      let name := unique (hookName wrapper.name) used
      let types ← TypeSource.resolve context.operations context.names TypeSource.all wrapper
      let path := ((context.operationOf? wrapper).map (·.path)).getD []
      return ⟨name, wrapper, method, path, types⟩ :: (← context.plan (name :: used) rest)

end HookContext

/-- The hook modules of a tag, with the names of the hooks in each. -/
structure HookModules where
  queries : Text
  mutations : Text
  queryHooks : List Text
  mutationHooks : List Text
  deriving DecidableEq, Repr

namespace HookModules

/-- A module of hooks, or the empty module if there are none. -/
def assemble (imports : List (Option Text)) (blocks : List Text) : Text :=
  if blocks = [] then Module.empty else Module.assemble (Module.importBlock imports :: blocks)

def wrapperImport (hooks : List Hook) : Option Text :=
  Module.importLine? (hooks.map (·.wrapper.name)) ArtifactKind.domainApi.siblingModule false

/-- The generated aliases among the types that hooks name. -/
def generatedNames (names : NameTable) (hooks : List Hook) : List Text :=
  (hooks.flatMap Hook.typeNames).filter fun name => isPlain name && name ∈ names.typeNames

def typeImport (names : NameTable) (hooks : List Hook) : Option Text :=
  Module.importLine? (generatedNames names hooks) ArtifactKind.validatedTypes.siblingModule true

def queryModule (names : NameTable) (config : Config) (hooks : List Hook) : Text :=
  assemble
    [Module.importLine? ["useQuery"] config.imports.query false,
      Module.importLine? ["UseQueryOptions"] config.imports.query true,
      wrapperImport hooks, typeImport names hooks]
    (hooks.map (Hook.renderQuery config.templates.queryHook))

def mutationModule (names : NameTable) (config : Config) (hooks : List Hook) : Text :=
  assemble
    [Module.importLine? ["useMutation"] config.imports.query false,
      (if config.notifications.usesNotifier then
        Module.importLine? ["notify"] config.imports.notifier false
      else none),
      wrapperImport hooks, typeImport names hooks]
    (hooks.map (Hook.renderMutation config.templates.mutationHook config.notifications))

def ofHooks (names : NameTable) (config : Config) (hooks : List Hook) : HookModules :=
  let queries := hooks.filter Hook.isQuery
  let mutations := hooks.filter fun hook => !hook.isQuery
  ⟨queryModule names config queries, mutationModule names config mutations,
    queries.map (·.name), mutations.map (·.name)⟩

/-- The hook modules for the text of a wrapper module. -/
def generate (source : Text) (operations : List OperationTypes) (config : Config) :
    Except UnknownPlaceholder (Reported HookModules) :=
  match config.templates.unknown? with
  | some error => .error error
  | none =>
    let wrappers := FoundWrapper.findAll source
    let context := HookContext.ofOperations operations config.verbs
    .ok (ofHooks context.names config <$> context.plan (wrappers.map (·.name)) wrappers)

end HookModules

end TypedClient
